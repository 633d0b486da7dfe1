import NgMips.Proofs.Branch
import NgMips.Proofs.Elementary
import NgMips.Lib.Bits
import NgMips.Source.Machine

/-!
# The two program counters

The architecture has two program counters: that of the instruction to be executed and that of
the one after it.  An instruction moves on, jumps after its delay slot, skips the delay slot,
or goes somewhere at once; `control` says which, from the instruction word and the registers
before it.  The processor spreads this over `pc_`, `next_pc_`, `has_branch_delay_` and
`branch_delay_dst_`, and `twoPc` reads it back between two instructions.

`runInst_twoPc` is the refinement: an instruction of the plain interpreter moves the two
program counters as `control` says, or to the vector when it raises an exception.
-/

namespace NgMips

/-! ## The model -/

/-- The address of the instruction to be executed, and of the one after it. -/
structure TwoPc where
  pc : BitVec 32
  nPc : BitVec 32
deriving DecidableEq, Repr

/-- What an instruction does to the two program counters. -/
inductive Control where
  | next
  | jump (target : BitVec 32)
  | skip
  | goto (address : BitVec 32)
deriving DecidableEq, Repr

def TwoPc.step (p : TwoPc) : Control → TwoPc
  | .next => ⟨p.nPc, p.nPc + 4⟩
  | .jump target => ⟨p.nPc, target⟩
  | .skip => ⟨p.pc + 8, p.pc + 12⟩
  | .goto address => ⟨address, address + 4⟩

/-- The branches that skip their delay slot when they are not taken. -/
def MipsInstId.isLikely : MipsInstId → Bool
  | .kBeql | .kBnel | .kBgtzl | .kBlezl | .kBgezl | .kBltzl | .kBgezall | .kBltzall | .kBcfl
  | .kBctl => true
  | _ => false

/-- The register an instruction links into. -/
def MipsInstId.linkReg (func : MipsInstId) (opcode : BitVec 32) : Option (BitVec 5) :=
  match func with
  | .kJal | .kBgezal | .kBltzal | .kBgezall | .kBltzall => some 31
  | .kJalr => some (rdField opcode)
  | _ => none

namespace MipsBase

variable {T δ : Type} [MipsTlbBase T] (m : MipsSetup δ)

/-- The coprocessor can be used. -/
def copUsable (copId : BitVec 2) (s : MipsBase T δ) : Bool :=
  copId == 0 || s.cop0.sr.getLsbD (copId.toNat + 28)

/-- The condition of a branch; a branch on a coprocessor that cannot be used is none. -/
def branchTaken (func : MipsInstId) (opcode : BitVec 32) (s : MipsBase T δ) : Option Bool :=
  let rs := s.gpr (rsField opcode)
  let rt := s.gpr (rtField opcode)
  match func with
  | .kBeq | .kBeql => some (rs == rt)
  | .kBne | .kBnel => some (rs != rt)
  | .kBgtz | .kBgtzl => some ((0#64).slt rs)
  | .kBlez | .kBlezl => some (rs.sle 0)
  | .kBgez | .kBgezl | .kBgezal | .kBgezall => some ((0#64).sle rs)
  | .kBltz | .kBltzl | .kBltzal | .kBltzall => some (rs.slt 0)
  | .kBcf | .kBcfl =>
      if copUsable (copId opcode) s then some (flagOf m (copId opcode) s == false) else none
  | .kBct | .kBctl =>
      if copUsable (copId opcode) s then some (flagOf m (copId opcode) s == true) else none
  | _ => none

/-- The target of a branch at `pc`. -/
def relativeTarget (opcode pc : BitVec 32) : BitVec 32 :=
  pc + 4 + (immField opcode).signExtend 32 <<< 2

/-- The target of a jump within the region of its delay slot. -/
def regionTarget (opcode pc : BitVec 32) : BitVec 32 :=
  ((pc + 4) &&& 0xF0000000) ||| (addressField opcode).setWidth 32 <<< 2

/-- The instruction is a return from an exception. -/
def isEret (func : MipsInstId) (opcode : BitVec 32) : Bool :=
  isCopCommand m opcode func && copId opcode == 0 && functField opcode == 0x18

/-- What an instruction that raises no exception does to the two program counters. -/
def control (func : MipsInstId) (opcode : BitVec 32) (s : MipsBase T δ) : Control :=
  let pc := s.pc.setWidth 32
  match branchTaken m func opcode s with
  | some taken =>
      if taken then .jump (relativeTarget opcode pc)
      else if func.isLikely then .skip
      else .next
  | none =>
      match func with
      | .kJ | .kJal => .jump (regionTarget opcode pc)
      | .kJr | .kJalr => .jump ((s.gpr (rsField opcode)).setWidth 32)
      | _ =>
          if isEret m func opcode then
            .goto ((if s.cop0.erl then s.cop0.errorEpc else s.cop0.epc).setWidth 32)
          else .next

/-- The two program counters of the processor between two instructions. -/
def twoPc (s : MipsBase T δ) : TwoPc where
  pc := s.pc.setWidth 32
  nPc := (if s.hasBranchDelay then s.branchDelayDst else s.pc + 4).setWidth 32

variable {m} {func : MipsInstId} {opcode : BitVec 32} {s t u : MipsBase T δ}

/-! ## Targets -/

lemma setWidth_add (a b : BitVec 64) : (a + b).setWidth 32 = a.setWidth 32 + b.setWidth 32 :=
  BitVec.setWidth_add _ _ (by decide)

lemma relativeTarget_eq (opcode : BitVec 32) (pc : BitVec 64) :
    (branchTarget opcode pc).setWidth 32 = relativeTarget opcode (pc.setWidth 32) := by
  have hback : ((sextItypeImmBranch opcode).signExtend 64).setWidth 32 =
      sextItypeImmBranch opcode := setWidth_signExtend (by decide) _
  rw [branchTarget, setWidth_add, setWidth_add, hback]
  rfl

lemma regionTarget_eq (opcode : BitVec 32) (pc : BitVec 64) :
    jumpTarget opcode pc = regionTarget opcode (pc.setWidth 32) := by
  rw [jumpTarget, regionTarget, BitVec.setWidth_and, setWidth_add]
  rfl

/-- An aligned register is the target itself. -/
lemma aligned_target {x : BitVec 64} (h : ¬ x &&& 3 ≠ 0) : x &&& ~~~3#64 = x := by
  have hzero : x &&& 3#64 = 0#64 := by simpa using h
  have hsplit : x = (x &&& 3#64) ||| (x &&& ~~~3#64) := by
    rw [← BitVec.and_or_distrib_left, BitVec.or_not_self, BitVec.and_allOnes]
  rw [hzero, BitVec.zero_or] at hsplit
  exact hsplit.symm

/-! ## What a handler leaves behind -/

/-- A handler that was called in `u` left the control behind in `t`. -/
def Controlled (u t : MipsBase T δ) : Control → Prop
  | .next => t.nextPc = u.nextPc ∧ t.hasBranchDelay = false
  | .jump target => t.nextPc = u.nextPc ∧ t.hasBranchDelay = true ∧
      t.branchDelayDst.setWidth 32 = target
  | .skip => t.nextPc = u.pc + 8 ∧ t.hasBranchDelay = false
  | .goto address => t.nextPc.setWidth 32 = address ∧ t.hasBranchDelay = false

omit [MipsTlbBase T] in
/-- The program counters between two instructions, from the control the handler left. -/
lemma twoPc_of_controlled {c : Control} (h : Controlled (started opcode s) t c) :
    twoPc (counted m 1 (stepped (BitVec.allOnes 64) t)) = (twoPc s).step c := by
  have hpc : (counted m 1 (stepped (BitVec.allOnes 64) t)).pc = t.nextPc := BitVec.and_allOnes
  have hflag : (counted m 1 (stepped (BitVec.allOnes 64) t)).hasBranchDelay = t.hasBranchDelay :=
    rfl
  have hdst : (counted m 1 (stepped (BitVec.allOnes 64) t)).branchDelayDst = t.branchDelayDst := rfl
  have hnext : (started opcode s).nextPc =
      if s.hasBranchDelay then s.branchDelayDst else s.pc + 4 :=
    rfl
  have hplain : t.hasBranchDelay = false →
      (if t.hasBranchDelay then t.branchDelayDst else t.nextPc + 4) = t.nextPc + 4 := by
    intro hbd
    rw [hbd]
    rfl
  rw [twoPc, hpc, hflag, hdst]
  cases c with
  | next =>
      obtain ⟨hnextPc, hbd⟩ := h
      rw [hplain hbd, hnextPc, hnext, setWidth_add]
      rfl
  | jump target =>
      obtain ⟨hnextPc, hbd, htarget⟩ := h
      rw [if_pos hbd, htarget, hnextPc, hnext]
      rfl
  | skip =>
      obtain ⟨hnextPc, hbd⟩ := h
      have hpc' : (started opcode s).pc = s.pc := rfl
      rw [hplain hbd, hnextPc, hpc', BitVec.add_assoc, setWidth_add, setWidth_add]
      rfl
  | goto address =>
      obtain ⟨haddress, hbd⟩ := h
      rw [hplain hbd, setWidth_add, haddress]
      rfl

/-- What a branch reads and what the program counters are made of are the same. -/
structure SameFlow (u v : MipsBase T δ) : Prop where
  pc : v.pc = u.pc
  nextPc : v.nextPc = u.nextPc
  flag : v.hasBranchDelay = u.hasBranchDelay
  dst : v.branchDelayDst = u.branchDelayDst
  gpr : v.gpr = u.gpr

omit [MipsTlbBase T] in
lemma SameFlow.refl (u : MipsBase T δ) : SameFlow u u := ⟨rfl, rfl, rfl, rfl, rfl⟩

omit [MipsTlbBase T] in
lemma SameFlow.trans {u v w : MipsBase T δ} (h : SameFlow u v) (h' : SameFlow v w) :
    SameFlow u w :=
  ⟨h'.pc.trans h.pc, h'.nextPc.trans h.nextPc, h'.flag.trans h.flag, h'.dst.trans h.dst,
    h'.gpr.trans h.gpr⟩

/-- A fetch that returns reads a word, or reports a miss when there are no exceptions. -/
lemma fetch_leaves (hm : m.IsN64) {address : BitVec 64} {word : BitVec 32} {s₀ : MipsBase T δ}
    (h : fetch m address s = .ok (word, s₀)) : ∃ device tlb badvaddr, s₀ = { s with
      device := device, tlb := tlb, cop0 := { s.cop0 with badvaddr := badvaddr } } := by
  cases hfound : (translateAddress s.tlb address).found with
  | true =>
      rw [fetch_found hfound] at h
      rw [← Prog.state_eq h]
      exact ⟨_, _, _, rfl⟩
  | false =>
      rw [fetch, fetchWith_fault hm _ hfound] at h
      cases hexc : m.config.hasException with
      | true =>
          obtain ⟨e, -, he⟩ := triggerException_tlb hm hexc
            (rfl : ExceptionCause.kTlbMissLoad.isTlb = true) (faulted address s)
          rw [he] at h
          exact absurd h (by simp [Except.map])
      | false =>
          rw [triggerException_off hexc] at h
          rw [← Prog.state_eq h]
          exact ⟨_, _, _, rfl⟩

lemma sameFlow_fetch (hm : m.IsN64) (address : BitVec 64) :
    Prog.Moves SameFlow (fetch (T := T) m address) := by
  intro s word s' h
  obtain ⟨device, tlb, badvaddr, rfl⟩ := fetch_leaves hm h
  exact ⟨rfl, rfl, rfl, rfl, rfl⟩

lemma sameFlow_detectIdleLoop (hm : m.IsN64) :
    Prog.Moves SameFlow (detectIdleLoop (T := T) m) := by
  refine .bind (fun _ _ _ => .trans) (.of_read .refl _) fun pc =>
    .bind (fun _ _ _ => .trans) (sameFlow_fetch hm _) fun delayOp => ?_
  split
  · exact .of_modify fun s => ⟨rfl, rfl, rfl, rfl, rfl⟩
  · exact .of_pure .refl ()

/-! ## Exceptions -/

/-- An exception was raised on the way. -/
def Raises (s s' : MipsBase T δ) : Prop :=
  ∃ new, s'.trace = new ++ s.trace ∧ ∃ cause, Event.exception cause ∈ new

/-- Without exceptions, a handler that wants to raise one leaves the program counters alone. -/
lemma controlled_of_raise (hm : m.IsN64) (hbd : u.hasBranchDelay = false) (hquiet : ¬ Raises u t)
    {x : CpuM T δ Unit} (hx : Raise m x) (h : x u = .ok ((), t)) : Controlled u t .next := by
  obtain ⟨cause, v, -, hreported, htrigger⟩ := raise_run hm hx h
  have hsame : v.nextPc = u.nextPc ∧ v.hasBranchDelay = false ∧ v.trace = u.trace := by
    cases hreported <;> exact ⟨rfl, hbd, rfl⟩
  obtain ⟨hnext, hbd', htrace⟩ := hsame
  cases triggerException_outcome hm htrigger with
  | off _ => exact ⟨hnext, hbd'⟩
  | plain _ _ _ =>
      refine absurd ⟨[.exception cause], ?_, cause, List.mem_singleton_self _⟩ hquiet
      show .exception cause :: v.trace = _
      rw [htrace]
      rfl
  | delayed _ _ hpending _ _ => exact absurd (hbd'.symm.trans hpending) (by simp)

/-- A handler that raises an exception ends at the vector. -/
lemma callInst_raises (hm : m.IsN64) (hbd : u.hasBranchDelay = false) (hraise : Raises u t)
    (h : callInst m opcode func u = .ok ((), t)) :
    Controlled u t (.goto (vecAddressGeneral.setWidth 32)) := by
  rcases callInst_cases hm h with ⟨cause, v, -, hreported, htrigger⟩ | ⟨x, hx, hrun⟩
  · have hsame : v.hasBranchDelay = false ∧ v.trace = u.trace := by
      cases hreported <;> exact ⟨hbd, rfl⟩
    obtain ⟨hbd', htrace⟩ := hsame
    cases triggerException_outcome hm htrigger with
    | off _ =>
        obtain ⟨new, hnew, cause', hmem⟩ := hraise
        rw [htrace, List.self_eq_append_left] at hnew
        rw [hnew] at hmem
        exact absurd hmem (by simp)
    | plain _ _ _ => exact ⟨rfl, hbd'⟩
    | delayed _ _ hpending _ _ => exact absurd (hbd'.symm.trans hpending) (by simp)
  · -- A handler that acts tells of its accesses only.
    obtain ⟨new, htrace, hnew⟩ := (act_effect hm hx hrun).trace
    obtain ⟨new', htrace', cause, hmem⟩ := hraise
    obtain rfl : new' = new := List.append_cancel_right (htrace'.symm.trans htrace)
    exact absurd (hnew _ hmem) (by simp [Event.isAccess])

/-! ## Branches and jumps -/

/-- The control of a branch whose condition is known. -/
def branchControl (likely taken : Bool) (opcode : BitVec 32) (pc : BitVec 64) : Control :=
  if taken then .jump (relativeTarget opcode (pc.setWidth 32)) else if likely then .skip else .next

omit [MipsTlbBase T] in
lemma controlled_branchEnd (hbd : u.hasBranchDelay = false) (likely taken : Bool) :
    Controlled u (branchEnd opcode likely taken u) (branchControl likely taken opcode u.pc) := by
  cases taken with
  | true => exact ⟨rfl, rfl, relativeTarget_eq opcode u.pc⟩
  | false =>
      cases likely with
      | true => exact ⟨rfl, hbd⟩
      | false => exact ⟨rfl, hbd⟩

omit [MipsTlbBase T] in
/-- The control of the rest of a handler, when what came before left the program counters
alone. -/
lemma Controlled.of_sameFlow {v : MipsBase T δ} {c : Control} (h : Controlled v t c)
    (hflow : v.pc = u.pc ∧ v.nextPc = u.nextPc) : Controlled u t c := by
  obtain ⟨hpc, hnext⟩ := hflow
  cases c with
  | next => exact ⟨h.1.trans hnext, h.2⟩
  | jump target => exact ⟨h.1.trans hnext, h.2⟩
  | skip => exact ⟨h.1.trans (by rw [hpc]), h.2⟩
  | goto address => exact h

omit [MipsTlbBase T] in
lemma controlled_branchR (hm : m.IsN64) {likely : Bool} {cond : BitVec 64 → BitVec 64 → Bool}
    (hbd : u.hasBranchDelay = false) (h : branchR m opcode likely cond u = .ok ((), t)) :
    Controlled u t
      (branchControl likely (cond (u.gpr (rsField opcode)) (u.gpr (rtField opcode))) opcode
        u.pc) := by
  rw [branchR_run hm] at h
  rw [← Prog.state_eq h]
  exact controlled_branchEnd hbd _ _

omit [MipsTlbBase T] in
lemma controlled_branchZ (hm : m.IsN64) {link likely : Bool} {cond : BitVec 64 → Bool}
    (hbd : u.hasBranchDelay = false) (h : branchZ m opcode link likely cond u = .ok ((), t)) :
    Controlled u t (branchControl likely (cond (u.gpr (rsField opcode))) opcode u.pc) := by
  rw [branchZ_run hm] at h
  rw [← Prog.state_eq h]
  cases link with
  | false => exact controlled_branchEnd hbd _ _
  | true =>
      obtain ⟨hflag, hpc⟩ := linked_flag 31 u
      have hnext : (linked 31 u).nextPc = u.nextPc := by
        rw [linked]
        split <;> rfl
      rw [if_pos rfl, ← hpc]
      exact (controlled_branchEnd (hflag.trans hbd) _ _).of_sameFlow ⟨hpc, hnext⟩

lemma controlled_instBeq (hm : m.IsN64) (hbd : u.hasBranchDelay = false)
    (h : instBeq m opcode u = .ok ((), t)) :
    Controlled u t
      (branchControl false (u.gpr (rsField opcode) == u.gpr (rtField opcode)) opcode u.pc) := by
  rw [instBeq] at h
  split at h
  · obtain ⟨⟨⟩, v, hidle, hbranch⟩ := Prog.bind_ok.mp h
    have hflow := sameFlow_detectIdleLoop hm u () v hidle
    have hcontrol := controlled_branchR hm (hflow.flag.trans hbd) hbranch
    rw [hflow.gpr, hflow.pc] at hcontrol
    exact hcontrol.of_sameFlow ⟨hflow.pc, hflow.nextPc⟩
  · exact controlled_branchR hm hbd h

lemma controlled_instJ (hm : m.IsN64) (h : instJ m opcode u = .ok ((), t)) :
    Controlled u t (.jump (regionTarget opcode (u.pc.setWidth 32))) := by
  have hjump : jump32 (jumpTarget opcode u.pc) u =
      .ok ((), branched ((jumpTarget opcode u.pc).setWidth 64) u) := rfl
  have hpending : Controlled u (branched ((jumpTarget opcode u.pc).setWidth 64) u)
      (.jump (regionTarget opcode (u.pc.setWidth 32))) := by
    refine ⟨rfl, rfl, ?_⟩
    show ((jumpTarget opcode u.pc).setWidth 64).setWidth 32 = _
    rw [BitVec.setWidth_setWidth_of_le _ (by decide), BitVec.setWidth_eq, regionTarget_eq]
  rw [instJ, Prog.bind_of_ok (read_run _ _), Prog.bind_of_ok hjump] at h
  split at h
  · have hflow := sameFlow_detectIdleLoop hm _ () t h
    exact ⟨hflow.nextPc.trans hpending.1, hflow.flag.trans hpending.2.1, by
      rw [hflow.dst]; exact hpending.2.2⟩
  · rw [← Prog.state_eq h]
    exact hpending

omit [MipsTlbBase T] in
lemma controlled_instJal (h : instJal opcode u = .ok ((), t)) :
    Controlled u t (.jump (regionTarget opcode (u.pc.setWidth 32))) := by
  rw [instJal_run] at h
  rw [← Prog.state_eq h]
  refine ⟨?_, rfl, ?_⟩
  · show (linked 31 u).nextPc = _
    rw [linked]
    split <;> rfl
  · show ((jumpTarget opcode u.pc).setWidth 64).setWidth 32 = _
    rw [BitVec.setWidth_setWidth_of_le _ (by decide), BitVec.setWidth_eq, regionTarget_eq]

omit [MipsTlbBase T] in
lemma controlled_instJr (hm : m.IsN64) (h : instJr m opcode u = .ok ((), t)) :
    Controlled u t (.jump ((u.gpr (rsField opcode)).setWidth 32)) := by
  rw [instJr, Prog.bind_of_ok (readGpr64_run hm _ _)] at h
  split at h
  · exact absurd h (by simp)
  · next haligned =>
      rw [aligned_target haligned] at h
      rw [← Prog.state_eq h]
      exact ⟨rfl, rfl, rfl⟩

omit [MipsTlbBase T] in
lemma controlled_instJalr (hm : m.IsN64) (h : instJalr m opcode u = .ok ((), t)) :
    Controlled u t (.jump ((u.gpr (rsField opcode)).setWidth 32)) := by
  rw [instJalr, Prog.bind_of_ok (readGpr64_run hm _ _)] at h
  split at h
  · exact absurd h (by simp)
  · next haligned =>
      rw [aligned_target haligned, Prog.bind_of_ok (linkForJump_run _ _)] at h
      rw [← Prog.state_eq h]
      refine ⟨?_, rfl, rfl⟩
      show (linked (rdField opcode) u).nextPc = _
      rw [linked]
      split <;> rfl

/-- A coprocessor that cannot be used leaves the program counters alone, unless an exception
is raised. -/
lemma controlled_branchCop (hm : m.IsN64) {likely onFlag : Bool} (hbd : u.hasBranchDelay = false)
    (hquiet : ¬ Raises u t) (h : branchCop m opcode likely onFlag u = .ok ((), t)) :
    Controlled u t (if copUsable (copId opcode) u then
      branchControl likely (flagOf m (copId opcode) u == onFlag) opcode u.pc else .next) := by
  rw [branchCop, whenCopEnabled, Prog.bind_of_ok (isCopEnabled_run hm _ _)] at h
  cases husable : copUsable (copId opcode) u with
  | true =>
      have henabled : (copId opcode == 0 || u.cop0.sr.getLsbD ((copId opcode).toNat + 28)) = true :=
        husable
      rw [henabled, if_pos rfl, Prog.bind_of_ok (copGetFlag_run _ _), branchIf_run] at h
      rw [← Prog.state_eq h, if_pos rfl]
      exact controlled_branchEnd hbd _ _
  | false =>
      have henabled :
          (copId opcode == 0 || u.cop0.sr.getLsbD ((copId opcode).toNat + 28)) = false :=
        husable
      rw [henabled, if_neg (by simp)] at h
      rw [if_neg (by simp)]
      exact controlled_of_raise hm hbd hquiet (.copUnusable (copId opcode)) h

/-! ## Returns -/

/-- A command to a coprocessor is one whichever instruction it was decoded as. -/
lemma callInst_command (h : isCopCommand m opcode func = true) :
    callInst (T := T) m opcode func = instCop m opcode := by
  cases func with
  | kCop => rfl
  | kMfc | kCfc | kMtc | kCtc | kLwc | kSwc => exact if_pos h
  | _ => exact absurd h (by simp [isCopCommand])

lemma callInst_isEret (hm : m.IsN64) (h : isEret m func opcode = true) (u : MipsBase T δ) :
    callInst m opcode func u = eret u := by
  simp only [isEret, Bool.and_eq_true, beq_iff_eq] at h
  obtain ⟨⟨hcommand, hcop⟩, hfunct⟩ := h
  have hslot : m.slot 0 = .cop0 := hm.slot_zero
  rw [callInst_command hcommand, instCop, whenCopEnabled, Prog.bind_of_ok (isCopEnabled_run hm _ _),
    hcop, if_pos (by simp), copCommand, hslot]
  simp only [cop0Command, hfunct]
  rfl

lemma controlled_eret (hm : m.IsN64) (heret : isEret m func opcode = true)
    (hbd : u.hasBranchDelay = false) (h : callInst m opcode func u = .ok ((), t)) :
    Controlled u t (.goto ((if u.cop0.erl then u.cop0.errorEpc else u.cop0.epc).setWidth 32)) := by
  rw [callInst_isEret hm heret, eret_run] at h
  rw [← Prog.state_eq h]
  exact ⟨rfl, hbd⟩

/-! ## All handlers -/

/-- Neither a branch nor a return touches the next program counter. -/
lemma nextPc_elem (hm : m.IsN64) (hslot : func.hasDelaySlot = false)
    (heret : isEret m func opcode = false) (α : Type) (x : CpuM T δ α)
    (hx : Elem m opcode func α x) :
    Prog.Moves (fun s s' => s'.nextPc = s.nextPc) x := by
  intro s a s' h
  cases hx with
  | readStatus =>
      rw [copRead32Internal_status hm] at h
      rw [← Prog.state_eq h]
  | writeGpr idx value =>
      obtain ⟨gpr, rfl⟩ := writeGpr64_ok h
      rfl
  | access f =>
      obtain ⟨device, halt, cache, rfl⟩ := access_ok h
      rfl
  | fault cause hcause address =>
      rw [(translationFault_ok hm hcause h).2]
      rfl
  | random =>
      obtain ⟨state, rfl⟩ := readRandom_ok h
      rfl
  | fpu f =>
      obtain ⟨fpu, rfl⟩ := setFpu_ok h
      rfl
  | eret hcop hcommand hfunct =>
      have hyes : isEret m func opcode = true := by
        simp only [isEret, hcommand, hcop, hfunct]
        rfl
      exact absurd (heret.symm.trans hyes) (by simp)
  | jump hyes dst => exact absurd (hslot.symm.trans hyes) (by simp)
  | nullify hyes => exact absurd (hslot.symm.trans hyes) (by simp)
  | panic α reason => exact absurd h (by simp)
  | _ => rw [← Prog.state_eq h]

/-- A handler of an instruction without a delay slot that is not a return. -/
lemma controlled_plain (hm : m.IsN64) (hslot : func.hasDelaySlot = false)
    (heret : isEret m func opcode = false) (hbd : u.hasBranchDelay = false) (hquiet : ¬ Raises u t)
    (h : callInst m opcode func u = .ok ((), t)) : Controlled u t .next := by
  rcases (callInst_body m opcode func).cases_run (look_moves hm) h with
    ⟨x, hx, hrun⟩ | ⟨x, hx, hrun⟩
  · exact controlled_of_raise hm hbd hquiet hx hrun
  · have hnext : t.nextPc = u.nextPc := by
      refine act_moves (R := fun s s' => s'.nextPc = s.nextPc) (fun _ => rfl)
        (fun _ _ _ h h' => h'.trans h) (nextPc_elem hm hslot heret) hx hrun
    exact ⟨hnext, ((act_effect hm hx hrun).flag hslot).trans hbd⟩

/-- A handler that raises no exception leaves its control behind. -/
lemma callInst_controlled (hm : m.IsN64) (hbd : u.hasBranchDelay = false) (hquiet : ¬ Raises u t)
    (h : callInst m opcode func u = .ok ((), t)) : Controlled u t (control m func opcode u) := by
  cases heret : isEret m func opcode with
  | true =>
      have hcontrol : control m func opcode u =
          .goto ((if u.cop0.erl then u.cop0.errorEpc else u.cop0.epc).setWidth 32) := by
        have hcommand : isCopCommand m opcode func = true := by
          simp only [isEret, Bool.and_eq_true] at heret
          exact heret.1.1
        cases func with
        | kCop | kMfc | kCfc | kMtc | kCtc | kLwc | kSwc =>
            simp only [control, branchTaken, heret]
            rfl
        | _ => exact absurd hcommand (by simp [isCopCommand])
      rw [hcontrol]
      exact controlled_eret hm heret hbd h
  | false =>
      cases func with
      | kBeq => exact controlled_instBeq hm hbd h
      | kBne | kBeql | kBnel => exact controlled_branchR hm hbd h
      | kBgtz | kBlez | kBgez | kBltz | kBgtzl | kBlezl | kBgezl | kBltzl | kBgezal | kBltzal
      | kBgezall | kBltzall => exact controlled_branchZ hm hbd h
      | kBcf | kBcfl | kBct | kBctl =>
          have hcontrol := controlled_branchCop hm hbd hquiet h
          simp only [control, branchTaken]
          split at hcontrol
          · next husable =>
              rw [if_pos husable]
              exact hcontrol
          · next husable =>
              rw [if_neg husable]
              simp only [heret]
              exact hcontrol
      | kJ => exact controlled_instJ hm h
      | kJal => exact controlled_instJal h
      | kJr => exact controlled_instJr hm h
      | kJalr => exact controlled_instJalr hm h
      | _ =>
          simp only [control, branchTaken, heret]
          exact controlled_plain hm rfl heret hbd hquiet h

/-! ## Linking -/

/-- An instruction that links writes the address after its delay slot, and no other register,
whether or not it jumps. -/
lemma callInst_links (hm : m.IsN64) {dst : BitVec 5} (hlink : func.linkReg opcode = some dst)
    (h : callInst m opcode func u = .ok ((), t)) : t.gpr = (linked dst u).gpr := by
  have hbranch : ∀ likely taken (v : MipsBase T δ),
      (branchEnd opcode likely taken v).gpr = v.gpr := by
    intro likely taken v
    cases taken <;> cases likely <;> rfl
  have hbranchZ : ∀ {likely : Bool} {cond : BitVec 64 → Bool}, some 31 = some dst →
      branchZ m opcode true likely cond u = .ok ((), t) → t.gpr = (linked dst u).gpr := by
    intro likely cond hdst hrun
    rw [branchZ_run hm] at hrun
    rw [← Prog.state_eq hrun, hbranch, if_pos rfl, Option.some.inj hdst]
  cases func with
  | kBgezal | kBltzal | kBgezall | kBltzall => exact hbranchZ hlink h
  | kJal =>
      have hrun : instJal opcode u = .ok ((), t) := h
      rw [instJal_run] at hrun
      rw [← Prog.state_eq hrun, ← Option.some.inj hlink]
      rfl
  | kJalr =>
      have hrun : instJalr m opcode u = .ok ((), t) := h
      rw [instJalr, Prog.bind_of_ok (readGpr64_run hm _ _)] at hrun
      split at hrun
      · exact absurd hrun (by simp)
      · rw [Prog.bind_of_ok (linkForJump_run _ _)] at hrun
        rw [← Prog.state_eq hrun, ← Option.some.inj hlink]
  | _ => exact absurd hlink (by simp [MipsInstId.linkReg])

/-! ## One instruction -/

/-- One instruction of the two-counter model: `opcode` is the word fetched at the program counter,
with the registers `s₀` of the fetch, and `s'` is the state after it. -/
structure TwoPcStep (m : MipsSetup δ) (opcode : BitVec 32) (s s₀ s' : MipsBase T δ) : Prop where
  fetched : fetch m s.pc s = .ok (opcode, s₀)
  /-- The fetch leaves the registers alone, apart from the report of a miss. -/
  registers : ∃ device tlb badvaddr, s₀ = { s with
    device := device, tlb := tlb, cop0 := { s.cop0 with badvaddr := badvaddr } }
  executed : ∃ t, callInst m opcode (getInstFuncPtr m.kIs64Bit opcode) (started opcode s₀) =
    .ok ((), t) ∧ s' = counted m 1 (stepped (BitVec.allOnes 64) t)
  moves : ¬ Raises s s' →
    twoPc s' = (twoPc s).step (control m (getInstFuncPtr m.kIs64Bit opcode) opcode s₀)
  raises : Raises s s' → twoPc s' = (twoPc s).step (.goto 0x80000180)
  links : ∀ dst, (getInstFuncPtr m.kIs64Bit opcode).linkReg opcode = some dst →
    s'.gpr = if dst = 0 then s.gpr
      else Function.update s.gpr dst (((s.pc + 8).setWidth 32).signExtend 64)

omit [MipsTlbBase T] in
/-- Nothing but the instruction itself is told before its handler is called. -/
lemma raises_started_iff (hgrow : ∃ new, t.trace = new ++ (started opcode s).trace) :
    Raises (started opcode s) t ↔ Raises s t := by
  obtain ⟨new, htrace⟩ := hgrow
  have htrace' : t.trace = (new ++ [.preExecute s.pc opcode]) ++ s.trace := by
    rw [htrace, List.append_assoc]
    rfl
  constructor
  · rintro ⟨new', hnew', cause, hmem⟩
    obtain rfl : new' = new := List.append_cancel_right (hnew'.symm.trans htrace)
    exact ⟨_, htrace', cause, List.mem_append_left _ hmem⟩
  · rintro ⟨new', hnew', cause, hmem⟩
    obtain rfl := List.append_cancel_right (hnew'.symm.trans htrace')
    rcases List.mem_append.mp hmem with hmem | hmem
    · exact ⟨new, htrace, cause, hmem⟩
    · exact absurd (List.mem_singleton.mp hmem) (by simp)

/-- An instruction of the plain interpreter moves the two program counters as the architecture
says. -/
theorem runInst_twoPc (hm : m.IsN64) {s' : MipsBase T δ} (h : runInst m s = .ok ((), s')) :
    ∃ opcode s₀, TwoPcStep m opcode s s₀ s' := by
  obtain ⟨opcode, s₀, t, hfetch, hcall, rfl⟩ := runInst_ok.mp h
  obtain ⟨device, tlb, badvaddr, hleaves⟩ := fetch_leaves hm hfetch
  have hflow : s₀.gpr = s.gpr ∧ s₀.pc = s.pc := by rw [hleaves]; exact ⟨rfl, rfl⟩
  have htrace : s₀.trace = s.trace := by rw [hleaves]
  have hsame : twoPc s₀ = twoPc s := by rw [hleaves]; rfl
  -- The exceptions of the instruction are those of its handler.
  have hraises : Raises (started opcode s₀) t ↔
      Raises s (counted m 1 (stepped (BitVec.allOnes 64) t)) := by
    obtain ⟨new, hnew, -⟩ := (callInst_grown hcall).trace
    rw [raises_started_iff ⟨new, hnew⟩, Raises, Raises, htrace]
    rfl
  have hbd : (started opcode s₀).hasBranchDelay = false := rfl
  refine ⟨opcode, s₀, hfetch, ⟨device, tlb, badvaddr, hleaves⟩, ⟨t, hcall, rfl⟩, ?_, ?_, ?_⟩
  · intro hquiet
    rw [← hsame]
    exact twoPc_of_controlled
      (callInst_controlled hm hbd (fun hraise => hquiet (hraises.mp hraise)) hcall)
  · intro hraise
    rw [← hsame]
    exact twoPc_of_controlled (callInst_raises hm hbd (hraises.mpr hraise) hcall)
  · intro dst hdst
    have hgpr : t.gpr = (linked dst (started opcode s₀)).gpr := callInst_links hm hdst hcall
    show t.gpr = _
    rw [hgpr, linked, ← hflow.1, ← hflow.2]
    split <;> rfl

/-- `BGEZAL` on a negative register in the delay slot of a jump to `0x80002000`. -/
def linkInSlot : MipsBase MipsTlbNormal WordMemory :=
  { programState 0x80001000 0x1000 [0x04310004] with
    gpr := fun idx => if idx = 1 then 0xFFFFFFFF80000000 else 0
    hasBranchDelay := true
    branchDelayDst := 0x80002000 }

theorem linkInSlot_twoPc : ∃ opcode s₀, TwoPcStep exceptionSetup opcode linkInSlot s₀
    (lastState (runInst exceptionSetup) linkInSlot) :=
  runInst_twoPc (n64Setup_isN64 _) (rfl : runInst exceptionSetup linkInSlot = _)

end MipsBase

end NgMips
