import NgMips.Lib.Runs
import NgMips.Proofs.Cop0Regs
import NgMips.Proofs.DelaySlot
import NgMips.Proofs.Poll

/-!
# Exceptions in exception handlers

An exception that comes while `EXL` is set keeps `EPC`, so that the outer handler can return.  The
bit of `Cause` that says whether `EPC` is the address of a branch belongs to it, but is written
again by every exception.  `returnPoint_kept_iff` says when the two stay together.
-/

namespace NgMips

/-! ## The bit of Cause -/

lemma MipsCop0.bd_eq (cop0 : MipsCop0) : cop0.bd = cop0.cause.getLsbD 31 := by
  have htop : (0x80000000 : BitVec 32) = BitVec.twoPow 32 31 := by decide
  rw [MipsCop0.bd, htop, BitVec.and_twoPow]
  cases cop0.cause.getLsbD 31 <;> decide

namespace MipsBase

variable {T δ : Type} [MipsTlbBase T] {m : MipsSetup δ}

/-- The bit an exception writes: whether a branch was pending.  The number of a coprocessor beyond
the four there are would reach it too. -/
def bdRecorded (cause : ExceptionCause) (s : MipsBase T δ) : Bool :=
  s.hasBranchDelay || (decide (cause = .kCop) && s.copCause.getLsbD 3)

omit [MipsTlbBase T] in
lemma causeReg_bd (cause : ExceptionCause) (causeRegOld copCause : BitVec 32)
    (interrupt line bd : Bool) :
    (causeReg cause causeRegOld copCause interrupt line bd).getLsbD 31 =
      (bd || (decide (cause = .kCop) && copCause.getLsbD 3)) := by
  have hcode : (cause.code <<< 2).getLsbD 31 = false := by cases cause <;> decide
  rw [causeReg_getLsbD, hcode, BitVec.getLsbD_shiftLeft]
  simp [Bool.or_comm]

/-! ## Steps of a handler -/

/-- Both halves of what an exception handler needs to return. -/
def returnPoint (s : MipsBase T δ) : BitVec 64 × Bool := (s.cop0.epc, s.cop0.bd)

/-- An exception is being handled. -/
structure InHandler (s : MipsBase T δ) : Prop where
  exl : s.cop0.exl = true
  copCause : s.copCause.toNat < 4

omit [MipsTlbBase T] in
lemma InHandler.of_same {s s' : MipsBase T δ} (h : InHandler s) (hsr : s'.cop0.sr = s.cop0.sr)
    (hcause : s'.copCause = s.copCause) : InHandler s' := by
  refine ⟨?_, by rw [hcause]; exact h.copCause⟩
  rw [MipsCop0.exl, hsr]
  exact h.exl

/-- What happens between an exception and the return from it. -/
inductive NestedOp where
  /-- An instruction is executed, which may raise an exception. -/
  | inst (opcode : BitVec 32)
  /-- An exception is raised. -/
  | exception (cause : ExceptionCause)
  | checkCompare
  | checkInterrupt
  /-- Anything that is no business of coprocessor 0. -/
  | other

variable (m) in
/-- The instructions of a handler that does not save or return: all but those that write `SR` or
`EPC`, `ERET` and `RFE`. -/
def staysInHandler (opcode : BitVec 32) : Bool :=
  !writesReg m 12 opcode && !writesReg m 14 opcode && !isCop0Command m opcode 0x10 &&
    !isCop0Command m opcode 0x18

variable (m) in
inductive NestedStep : NestedOp → MipsBase T δ → MipsBase T δ → Prop
  | inst {opcode : BitVec 32} {s s' : MipsBase T δ} (hstays : staysInHandler m opcode = true)
      (h : execute m opcode (getInstFuncPtr m.kIs64Bit opcode) s = .ok ((), s')) :
      NestedStep (.inst opcode) s s'
  | exception {cause : ExceptionCause} {s s' : MipsBase T δ}
      (h : triggerException m cause s = .ok ((), s')) : NestedStep (.exception cause) s s'
  | checkCompare {s s' : MipsBase T δ} (h : checkCompare m s = .ok ((), s')) :
      NestedStep .checkCompare s s'
  | checkInterrupt {s s' : MipsBase T δ} (h : checkInterrupt m s = .ok ((), s')) :
      NestedStep .checkInterrupt s s'
  | other {s s' : MipsBase T δ} (hcop0 : s'.cop0 = s.cop0) (hcause : s'.copCause = s.copCause) :
      NestedStep .other s s'

/-- The steps that keep the return point: exceptions that find the bit as they write it.  An
instruction starts with no branch pending, so the exceptions it raises clear the bit. -/
def NestedOp.Keeps (op : NestedOp) (s s' : MipsBase T δ) : Prop :=
  match op with
  | .inst _ => RaisesSync s s' → s.cop0.bd = false
  | .exception cause => s.cop0.bd = bdRecorded cause s
  | _ => True

/-- What an exception makes of the registers of the return point. -/
lemma exception_cop0 (hm : m.IsN64) (hexc : m.config.hasException = true)
    {cause : ExceptionCause} {s s' : MipsBase T δ} (h : triggerException m cause s = .ok ((), s')) :
    s'.cop0.epc = (if s.cop0.exl then s.cop0.epc
        else if s.hasBranchDelay then s.pc - 4 else s.pc) ∧
      s'.cop0.sr = (if s.cop0.exl then s.cop0.sr else s.cop0.sr ||| 2) ∧
      s'.cop0.bd = bdRecorded cause s ∧ s'.copCause = s.copCause := by
  have hbit : ∀ (t : MipsBase T δ) (epc : BitVec 64) (bd : Bool), t.copCause = s.copCause →
      (enteredCop0 m cause epc bd t).bd =
        (bd || (decide (cause = .kCop) && s.copCause.getLsbD 3)) := by
    intro t epc bd hcause
    rw [MipsCop0.bd_eq, enteredCop0, causeReg_bd, hcause]
  cases triggerException_outcome hm h with
  | off hoff => exact absurd (hoff.symm.trans hexc) (by simp)
  | plain _ _ hbd =>
      refine ⟨?_, rfl, ?_, rfl⟩
      · rw [hbd]
        rfl
      · rw [bdRecorded, hbd]
        exact hbit (told (.exception cause) s) s.pc false rfl
  | delayed _ _ hbd _ _ =>
      refine ⟨?_, rfl, ?_, rfl⟩
      · rw [hbd]
        rfl
      · rw [bdRecorded, hbd]
        exact hbit (fetched m (s.pc - 4) (givenUp cause s)) (s.pc - 4) true rfl

/-- A nested exception keeps `EPC` and the mode, and writes the bit. -/
lemma exception_nested (hm : m.IsN64) (hexc : m.config.hasException = true)
    {cause : ExceptionCause} {s s' : MipsBase T δ} (hexl : s.cop0.exl = true)
    (h : triggerException m cause s = .ok ((), s')) :
    s'.cop0.epc = s.cop0.epc ∧ s'.cop0.sr = s.cop0.sr ∧ s'.cop0.bd = bdRecorded cause s ∧
      s'.copCause = s.copCause := by
  obtain ⟨hepc, hsr, hrest⟩ := exception_cop0 hm hexc h
  rw [if_pos hexl] at hepc hsr
  exact ⟨hepc, hsr, hrest⟩

/-- The state stays in the handler, and the return point changes with the bit. -/
structure StaysNested (s s' : MipsBase T δ) : Prop where
  epc : s'.cop0.epc = s.cop0.epc
  sr : s'.cop0.sr = s.cop0.sr
  bd : s'.cop0.bd = s.cop0.bd
  copCause : s'.copCause = s.copCause

omit [MipsTlbBase T] in
lemma StaysNested.of_same {s s' : MipsBase T δ} (hcop0 : s'.cop0 = s.cop0)
    (hcause : s'.copCause = s.copCause) : StaysNested s s' := by
  refine ⟨?_, ?_, ?_, hcause⟩ <;> rw [hcop0]

omit [MipsTlbBase T] in
lemma StaysNested.refl (s : MipsBase T δ) : StaysNested s s := .of_same rfl rfl

omit [MipsTlbBase T] in
lemma StaysNested.trans {s t u : MipsBase T δ} (h : StaysNested s t) (h' : StaysNested t u) :
    StaysNested s u :=
  ⟨h'.epc.trans h.epc, h'.sr.trans h.sr, h'.bd.trans h.bd, h'.copCause.trans h.copCause⟩

lemma staysNested_write {context value : BitVec 64} {idx : ℕ} (hsr : idx ≠ 12) (hepc : idx ≠ 14)
    {s s' : MipsBase T δ} (h : cop0Write context idx value s = .ok ((), s')) :
    StaysNested s s' := by
  rw [cop0Write.eq_def] at h
  split at h
  case h_8 =>
    rw [← Prog.state_eq h]
    change StaysNested s { s with cop0 := s.cop0.writeCount s.timestamp (value.setWidth 32) }
    rw [MipsCop0.writeCount]
    split <;> exact ⟨rfl, rfl, rfl, rfl⟩
  case h_11 => exact absurd rfl hsr
  case h_13 => exact absurd rfl hepc
  case h_12 =>
    rw [← Prog.state_eq h]
    refine ⟨rfl, rfl, ?_, rfl⟩
    rw [MipsCop0.bd_eq, MipsCop0.bd_eq]
    simp
  all_goals
    rw [← Prog.state_eq h]
    exact ⟨rfl, rfl, rfl, rfl⟩

/-- No operation of an instruction that stays in the handler touches the return point. -/
lemma staysNested_step {opcode : BitVec 32} (hm : m.IsN64)
    (hstays : staysInHandler m opcode = true) (s s' : MipsBase T δ)
    (h : RegStep m opcode (getInstFuncPtr true opcode) s s') : StaysNested s s' := by
  simp only [staysInHandler, Bool.and_eq_true, Bool.not_eq_true'] at hstays
  obtain ⟨⟨⟨hsr, hepc⟩, hrfe⟩, heret⟩ := hstays
  cases h with
  | keeps hkept =>
      refine ⟨?_, ?_, ?_, hkept.copCause⟩ <;> rw [hkept.cop0]
      rfl
  | reads _ hcop0 hcause _ =>
      have hsame : ∃ start, s'.cop0 = { s.cop0 with countStartTimestamp := start } := by
        rw [hcop0, MipsCop0.getCount]
        split
        · exact ⟨_, rfl⟩
        · exact ⟨s.cop0.countStartTimestamp, rfl⟩
      obtain ⟨start, hstart⟩ := hsame
      refine ⟨?_, ?_, ?_, hcause⟩ <;> rw [hstart]
      rfl
  | writes hcop hcommand hidx hwrite =>
      refine staysNested_write (fun h => ?_) (fun h => ?_) hwrite
      · exact copWriteIdx_ne hsr hcop hcommand (hidx.trans (by rw [h]; rfl))
      · exact copWriteIdx_ne hepc hcop hcommand (hidx.trans (by rw [h]; rfl))
  | returns hcop hcommand hfunct _ _ _ =>
      have hcommands : ∀ funct, functField opcode = funct →
          isCop0Command m opcode funct = true := by
        intro funct hf
        simp [isCop0Command, hcop, hf, hm.is64Bit, hcommand]
      rcases hfunct with hf | hf
      · exact absurd (hrfe.symm.trans (hcommands _ hf)) (by simp)
      · exact absurd (heret.symm.trans (hcommands _ hf)) (by simp)

omit [MipsTlbBase T] in
/-- The number of a coprocessor does not reach the bit. -/
lemma getLsbD_three_of_lt {x : BitVec 32} (h : x.toNat < 4) : x.getLsbD 3 = false := by
  rw [BitVec.getLsbD]
  exact Nat.testBit_lt_two_pow (h.trans (by decide))

/-- An instruction of a handler either keeps the return point, or raises an exception and clears the
bit. -/
lemma execute_nested (hm : m.IsN64) (hexc : m.config.hasException = true) {opcode : BitVec 32}
    (hstays : staysInHandler m opcode = true) {s s' : MipsBase T δ} (hin : InHandler s)
    (h : execute m opcode (getInstFuncPtr m.kIs64Bit opcode) s = .ok ((), s')) :
    InHandler s' ∧ s'.cop0.epc = s.cop0.epc ∧
      ((RaisesSync s s' ∧ s'.cop0.bd = false) ∨
        (¬ RaisesSync s s' ∧ s'.cop0.bd = s.cop0.bd)) := by
  rw [execute_run] at h
  rcases callInst_cases hm h with ⟨cause, t, hsync, hreport, htrigger⟩ | ⟨x, hx, hact⟩
  · obtain ⟨hepc, hcop, htrace⟩ : t.cop0.epc = s.cop0.epc ∧ t.copCause.toNat < 4 ∧
        t.trace = .preExecute s.pc opcode :: s.trace := by
      cases hreport with
      | nothing => exact ⟨rfl, hin.copCause, rfl⟩
      | address address => exact ⟨rfl, hin.copCause, rfl⟩
      | copUnusable copId =>
          refine ⟨rfl, ?_, rfl⟩
          rw [BitVec.toNat_setWidth_of_le (by decide)]
          exact copId.isLt
    obtain ⟨-, hflag, hexl⟩ := exl_of_reported hreport
    have hbd : t.hasBranchDelay = false := hflag
    obtain ⟨hepc', hsr, hbit, hcause⟩ := exception_nested hm hexc (hexl.trans hin.exl) htrigger
    have hraise : RaisesSync s s' := by
      rw [triggerException_run hm hexc cause hbd] at htrigger
      split at htrigger
      · exact absurd htrigger (by simp)
      · rw [← Prog.state_eq htrigger]
        refine ⟨[.exception cause, .preExecute s.pc opcode], ?_, cause, List.mem_cons_self, hsync⟩
        exact congrArg (Event.exception cause :: ·) htrace
    have hclear : s'.cop0.bd = false := by
      rw [hbit, bdRecorded, hbd, getLsbD_three_of_lt hcop]
      simp
    have hin' : InHandler t := ⟨hexl.trans hin.exl, hcop⟩
    exact ⟨hin'.of_same hsr hcause, hepc'.trans hepc, .inl ⟨hraise, hclear⟩⟩
  · obtain ⟨new, htrace, hnew⟩ := (act_effect hm hx hact).trace
    rw [hm.is64Bit] at hx
    have hstart : StaysNested s (started opcode s) := ⟨rfl, rfl, rfl, rfl⟩
    have hsame : StaysNested s s' := hstart.trans (act_regs (staysNested_step hm hstays) hm
      (fun _ => ⟨rfl, rfl, rfl, rfl⟩) (fun _ _ _ => .trans) hx hact)
    have hno : ¬ RaisesSync (started opcode s) s' :=
      not_raisesSync htrace fun cause hmem => absurd (hnew _ hmem) (by simp [Event.isAccess])
    exact ⟨hin.of_same hsame.sr hsame.copCause, hsame.epc,
      .inr ⟨fun hraise => hno (raisesSync_started hraise ⟨new, htrace⟩), hsame.bd⟩⟩

omit [MipsTlbBase T] in
/-- Looking at the interrupt lines and at the timer does not touch the return point. -/
lemma staysNested_checked (s : MipsBase T δ) : StaysNested s (checked m s) := by
  obtain ⟨last, surpress, hstate⟩ := (latched m s).cop0.checkCompareInterrupt_state s.timestamp
  have hcop0 : (checked m s).cop0 = { (latched m s).cop0 with
      lastCompareCheckTimestamp := last
      surpressCompareInterrupt := surpress } := hstate
  refine ⟨by rw [hcop0]; rfl, by rw [hcop0]; rfl, ?_, rfl⟩
  rw [MipsCop0.bd_eq, MipsCop0.bd_eq, hcop0]
  simp [latched]

/-- A look at the timer does not touch the return point: a handler takes no interrupts. -/
lemma staysNested_checkCompare (hm : m.IsN64) {s s' : MipsBase T δ} (hexl : s.cop0.exl = true)
    (h : checkCompare m s = .ok ((), s')) : StaysNested s s' := by
  have hchecked := staysNested_checked (m := m) s
  cases checkCompare_cases hm h with
  | isolated _ hstate =>
      rw [hstate]
      exact .refl s
  | before _ _ hstate =>
      rw [hstate]
      exact hchecked
  | idle _ _ _ hstate =>
      rw [hstate]
      exact ⟨hchecked.epc, hchecked.sr, hchecked.bd, hchecked.copCause⟩
  | taken _ _ _ hready _ => exact absurd hready (not_ready_of_exl hexl)

lemma staysNested_checkInterrupt (hm : m.IsN64) {s s' : MipsBase T δ} (hexl : s.cop0.exl = true)
    (h : checkInterrupt m s = .ok ((), s')) : StaysNested s s' := by
  cases checkInterrupt_cases hm h with
  | idle _ hstate =>
      rw [hstate]
      exact .refl s
  | taken _ hready _ => exact absurd hready (not_ready_of_exl hexl)

omit [MipsTlbBase T] in
/-- Steps with the same `EPC` differ in the bit only. -/
lemma returnPoint_eq_iff {s s' : MipsBase T δ} (hepc : s'.cop0.epc = s.cop0.epc) :
    returnPoint s' = returnPoint s ↔ s'.cop0.bd = s.cop0.bd := by
  rw [returnPoint, returnPoint, Prod.mk.injEq, and_iff_right hepc]

/-- One step. -/
lemma nestedStep_iff (hm : m.IsN64) (hexc : m.config.hasException = true) (op : NestedOp)
    (s s' : MipsBase T δ) (hin : InHandler s) (h : NestedStep m op s s') :
    InHandler s' ∧ (returnPoint s' = returnPoint s ↔ op.Keeps s s') := by
  have hstay : StaysNested s s' → InHandler s' ∧ returnPoint s' = returnPoint s := fun hsame =>
    ⟨hin.of_same hsame.sr hsame.copCause, (returnPoint_eq_iff hsame.epc).mpr hsame.bd⟩
  cases h with
  | inst hstays hrun =>
      obtain ⟨hin', hepc, hcase⟩ := execute_nested hm hexc hstays hin hrun
      refine ⟨hin', (returnPoint_eq_iff hepc).trans ?_⟩
      change _ ↔ (RaisesSync s s' → s.cop0.bd = false)
      rcases hcase with ⟨hraise, hbd⟩ | ⟨hno, hbd⟩
      · rw [hbd]
        exact ⟨fun h _ => h.symm, fun h => (h hraise).symm⟩
      · exact iff_of_true hbd fun hraise => absurd hraise hno
  | exception hrun =>
      obtain ⟨hepc, hsr, hbd, hcause⟩ := exception_nested hm hexc hin.exl hrun
      refine ⟨hin.of_same hsr hcause, (returnPoint_eq_iff hepc).trans ?_⟩
      rw [hbd]
      exact eq_comm
  | checkCompare hrun =>
      obtain ⟨hin', hsame⟩ := hstay (staysNested_checkCompare hm hin.exl hrun)
      exact ⟨hin', iff_of_true hsame trivial⟩
  | checkInterrupt hrun =>
      obtain ⟨hin', hsame⟩ := hstay (staysNested_checkInterrupt hm hin.exl hrun)
      exact ⟨hin', iff_of_true hsame trivial⟩
  | other hcop0 hcause =>
      obtain ⟨hin', hsame⟩ := hstay (.of_same hcop0 hcause)
      exact ⟨hin', iff_of_true hsame trivial⟩

/-- The first exception notes where to return to. -/
lemma exception_first (hm : m.IsN64) (hexc : m.config.hasException = true)
    {cause : ExceptionCause} {s s' : MipsBase T δ} (hexl : s.cop0.exl = false)
    (hcop : s.copCause.toNat < 4) (h : triggerException m cause s = .ok ((), s')) :
    InHandler s' ∧ returnPoint s' =
      (if s.hasBranchDelay then s.pc - 4 else s.pc, s.hasBranchDelay) := by
  obtain ⟨hepc, hsr, hbd, hcause⟩ := exception_cop0 hm hexc h
  rw [hexl] at hepc hsr
  have hrecorded : bdRecorded cause s = s.hasBranchDelay := by
    rw [bdRecorded, getLsbD_three_of_lt hcop, Bool.and_false, Bool.or_false]
  refine ⟨⟨?_, by rw [hcause]; exact hcop⟩, ?_⟩
  · exact exl_of_or_two hsr
  · rw [returnPoint, hepc, hbd, hrecorded]
    rfl

/-- A nested exception keeps both halves of the return point exactly when it writes the bit as it
finds it.  From the first exception to the return, the return point is what the first exception
has noted exactly as long as all exceptions in between are of this kind. -/
theorem returnPoint_kept_iff (hm : m.IsN64) (hexc : m.config.hasException = true) :
    (∀ (cause : ExceptionCause) (s s' : MipsBase T δ), s.cop0.exl = true →
      triggerException m cause s = .ok ((), s') →
        (returnPoint s' = returnPoint s ↔ s.cop0.bd = bdRecorded cause s)) ∧
    ∀ (cause : ExceptionCause) (s₀ s : MipsBase T δ) (l : List (NestedOp × MipsBase T δ)),
      s₀.cop0.exl = false → s₀.copCause.toNat < 4 → triggerException m cause s₀ = .ok ((), s) →
        RunOf (NestedStep m) s l →
          returnPoint s = (if s₀.hasBranchDelay then s₀.pc - 4 else s₀.pc, s₀.hasBranchDelay) ∧
            ((∀ e ∈ l, returnPoint e.2 = returnPoint s) ↔ RunOf NestedOp.Keeps s l) := by
  constructor
  · intro cause s s' hexl h
    obtain ⟨hepc, -, hbd, -⟩ := exception_nested hm hexc hexl h
    rw [returnPoint, returnPoint, Prod.mk.injEq, and_iff_right hepc, hbd]
    exact eq_comm
  · intro cause s₀ s l hexl hcop hfirst hrun
    obtain ⟨hin, hpoint⟩ := exception_first hm hexc hexl hcop hfirst
    exact ⟨hpoint, RunOf.forall_same_iff (nestedStep_iff hm hexc) hin hrun⟩

/-- A `NOP` behind a `BEQ`, with or without the branch pending. -/
def behindBranch (pending : Bool) : MipsBase MipsTlbNormal WordMemory :=
  { programState 0x80001004 0x1000 [0x10000001, 0x00000000] with hasBranchDelay := pending }

/-- The processor enters the handler. -/
def handling (pending : Bool) : MipsBase MipsTlbNormal WordMemory :=
  lastState (triggerException exceptionSetup .kInt) (behindBranch pending)

/-- The handler calls the system. -/
def callingSystem (pending : Bool) : MipsBase MipsTlbNormal WordMemory :=
  lastState (execute exceptionSetup 0x0000000C .kSyscall) (handling pending)

lemma handling_run (pending : Bool) :
    triggerException exceptionSetup .kInt (behindBranch pending) = .ok ((), handling pending) := by
  cases pending <;> exact run_of_returned (by decide +kernel)

lemma callingSystem_step (pending : Bool) :
    NestedStep exceptionSetup (.inst 0x0000000C) (handling pending) (callingSystem pending) := by
  refine .inst (by decide) ?_
  rw [show getInstFuncPtr exceptionSetup.kIs64Bit 0x0000000C = .kSyscall by decide]
  cases pending <;> exact run_of_returned (by decide +kernel)

/-- Without a pending branch the handler still knows where to return to. -/
theorem calledFromHandler_kept :
    returnPoint (handling false) = (0x80001004, false) ∧
      returnPoint (callingSystem false) = returnPoint (handling false) := by
  obtain ⟨hpoint, hkept⟩ := (returnPoint_kept_iff (n64Setup_isN64 _) rfl).2 .kInt
    (behindBranch false) (handling false) [(.inst 0x0000000C, callingSystem false)]
    (by decide) (by decide) (handling_run false) ⟨callingSystem_step false, trivial⟩
  refine ⟨hpoint.trans (by decide), ?_⟩
  exact hkept.mpr ⟨fun _ => by decide +kernel, trivial⟩ _ List.mem_cons_self

/-- An interrupt in a delay slot, and a system call in its handler: `EPC` is still the address of
the branch, but no longer known to be one. -/
theorem calledFromHandler_lost :
    (behindBranch true).cop0.exl = false ∧ (behindBranch true).copCause = 0 ∧
      triggerException exceptionSetup .kInt (behindBranch true) = .ok ((), handling true) ∧
      (handling true).cop0.exl = true ∧
      NestedStep exceptionSetup (.inst 0x0000000C) (handling true) (callingSystem true) ∧
      returnPoint (handling true) = (0x80001000, true) ∧
      returnPoint (callingSystem true) = (0x80001000, false) ∧
      ∃ s', triggerException exceptionSetup .kSyscall (handling true) = .ok ((), s') ∧
        returnPoint s' ≠ returnPoint (handling true) := by
  refine ⟨rfl, rfl, handling_run true, by decide +kernel, callingSystem_step true,
    by decide +kernel, by decide +kernel, _, run_of_returned (by decide +kernel), ?_⟩
  decide +kernel

end MipsBase

end NgMips
