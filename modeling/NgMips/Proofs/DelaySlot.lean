import NgMips.Proofs.Effect
import NgMips.Source.Machine

/-!
# Exceptions in a delay slot

A pending branch is used up before the handler of its delay slot runs, so an exception the
handler raises finds none: the exception program counter is the address of the delay slot
itself and `Cause.BD` is clear.  This is so for every handler that raises, in both
interpreters.
-/

namespace NgMips

namespace MipsBase

variable {T δ : Type} [MipsTlbBase T] {m : MipsSetup δ}

/-- One instruction was executed, by the plain interpreter or as an entry of a block. -/
def InstStep (m : MipsSetup δ) (s s' : MipsBase T δ) : Prop :=
  runInst m s = .ok ((), s') ∨ ∃ entry, runEntry m entry s = .ok ((), s')

/-- A synchronous exception was raised on the way. -/
def RaisesSync (s s' : MipsBase T δ) : Prop :=
  ∃ new, s'.trace = new ++ s.trace ∧
    ∃ cause, Event.exception cause ∈ new ∧ cause.isSynchronous = true

/-- A branch or jump at `b` was executed and taken, and its delay slot is next.  Addresses are
compared in their low words: a block drops the high word of the program counter. -/
structure BranchesFrom (m : MipsSetup δ) (b : BitVec 64) (s₀ s : MipsBase T δ) : Prop where
  step : InstStep m s₀ s
  atBranch : s₀.pc.setWidth 32 = b.setWidth 32
  taken : s.hasBranchDelay = true
  atSlot : s.pc.setWidth 32 = (b + 4).setWidth 32

/-- The exception can be returned from to the branch at `b`. -/
structure ReturnsToBranch (b : BitVec 64) (s : MipsBase T δ) : Prop where
  epc : s.cop0.epc.setWidth 32 = b.setWidth 32
  bd : s.cop0.bd = true

omit [MipsTlbBase T] in
/-- The new events do not depend on how the older ones are named. -/
lemma not_raisesSync {s s' : MipsBase T δ} {new : List Event} (htrace : s'.trace = new ++ s.trace)
    (hnew : ∀ cause, Event.exception cause ∈ new → cause.isSynchronous = false) :
    ¬ RaisesSync s s' := by
  rintro ⟨new', htrace', cause, hmem, hsync⟩
  obtain rfl : new' = new := List.append_cancel_right (htrace'.symm.trans htrace)
  exact absurd (hnew cause hmem) (by simp [hsync])

/-! ## The exception program counter -/

omit [MipsTlbBase T] in
lemma exl_of_reported {s t : MipsBase T δ} (h : Reported s t) :
    t.pc = s.pc ∧ t.hasBranchDelay = s.hasBranchDelay ∧ t.cop0.exl = s.cop0.exl := by
  cases h <;> exact ⟨rfl, rfl, rfl⟩

/-- A handler that is called with no branch pending and raises a synchronous exception
leaves the address of its own instruction behind. -/
lemma callInst_epc (hm : m.IsN64) (hexc : m.config.hasException = true) {opcode : BitVec 32}
    {func : MipsInstId} {s s' : MipsBase T δ} (hexl : s.cop0.exl = false)
    (hbd : s.hasBranchDelay = false) (h : callInst m opcode func s = .ok ((), s'))
    (hraise : RaisesSync s s') : s'.cop0.epc = s.pc := by
  rcases callInst_cases hm h with ⟨cause, t, hsync, hreported, htrigger⟩ | ⟨x, hx, hrun⟩
  · obtain ⟨hpc, hbd', hexl'⟩ := exl_of_reported hreported
    rw [triggerException_run hm hexc cause (hbd'.trans hbd)] at htrigger
    split at htrigger
    · exact absurd htrigger (by simp)
    · rw [← Prog.state_eq htrigger]
      have hopen : t.cop0.exl = false := hexl'.trans hexl
      simp [entered, enteredCop0, told, hopen, hpc]
  · obtain ⟨new, htrace, hnew⟩ := (act_effect hm hx hrun).trace
    refine absurd hraise (not_raisesSync htrace fun cause hmem => ?_)
    exact absurd (hnew _ hmem) (by simp [Event.isAccess])

omit [MipsTlbBase T] in
/-- The handler is called from a state with no branch pending, whose new events are those
of the instruction. -/
lemma started_spec (opcode : BitVec 32) (s : MipsBase T δ) :
    (started opcode s).pc = s.pc ∧ (started opcode s).cop0 = s.cop0 ∧
      (started opcode s).hasBranchDelay = false ∧
      (started opcode s).trace = .preExecute s.pc opcode :: s.trace := ⟨rfl, rfl, rfl, rfl⟩

omit [MipsTlbBase T] in
lemma raisesSync_started {opcode : BitVec 32} {s s' : MipsBase T δ} (hraise : RaisesSync s s')
    (hgrow : ∃ new, s'.trace = new ++ (started opcode s).trace) :
    RaisesSync (started opcode s) s' := by
  obtain ⟨new, htrace⟩ := hgrow
  obtain ⟨new', htrace', cause, hmem, hsync⟩ := hraise
  have hsplit : new' = new ++ [.preExecute s.pc opcode] := by
    refine (List.append_left_inj s.trace).mp ?_
    rw [← htrace', htrace]
    simp [(started_spec opcode s).2.2.2]
  rw [hsplit, List.mem_append, List.mem_singleton] at hmem
  exact ⟨new, htrace, cause, hmem.resolve_right (by simp), hsync⟩

/-- A step whose handler is called in the state `t`. -/
lemma callInst_started_epc (hm : m.IsN64) (hexc : m.config.hasException = true)
    {opcode : BitVec 32} {func : MipsInstId} {s s' : MipsBase T δ}
    (hexl : s.cop0.exl = false) (h : callInst m opcode func (started opcode s) = .ok ((), s'))
    (hraise : RaisesSync s s') : s'.cop0.epc = s.pc := by
  obtain ⟨hpc, hcop0, hbd, -⟩ := started_spec opcode s
  obtain ⟨new, htrace, -⟩ := (callInst_grown h).trace
  have hraise' := raisesSync_started hraise ⟨new, htrace⟩
  rw [← hpc]
  exact callInst_epc hm hexc (by rw [hcop0]; exact hexl) hbd h hraise'

/-- An exception in any instruction leaves the address of that instruction behind. -/
lemma step_epc (hm : m.IsN64) (hexc : m.config.hasException = true) {s s' : MipsBase T δ}
    (hexl : s.cop0.exl = false) (hstep : InstStep m s s') (hraise : RaisesSync s s') :
    s'.cop0.epc = s.pc := by
  rcases hstep with h | ⟨entry, h⟩
  · obtain ⟨opcode, t₀, t, hfetch, hcall, rfl⟩ := runInst_ok.mp h
    obtain ⟨-, -, rfl⟩ := fetch_ok hm hexc hfetch
    have hraise' : RaisesSync (fetched m s.pc s) t := hraise
    have hepc : t.cop0.epc = s.pc :=
      callInst_started_epc (s := fetched m s.pc s) hm hexc hexl hcall hraise'
    exact hepc
  · obtain ⟨t, hcall, rfl⟩ := runEntry_ok.mp h
    have hraise' : RaisesSync s t := hraise
    have hepc : t.cop0.epc = s.pc := callInst_started_epc hm hexc hexl hcall hraise'
    exact hepc

/-- After a taken branch at `b`, no synchronous exception in the delay slot can be returned
from to the branch. -/
theorem slotException_not_returnsToBranch (hm : m.IsN64) (hexc : m.config.hasException = true)
    {b : BitVec 64} {s₀ s s' : MipsBase T δ} (hbranch : BranchesFrom m b s₀ s)
    (hexl : s.cop0.exl = false) (hslot : InstStep m s s') (hraise : RaisesSync s s') :
    ¬ ReturnsToBranch b s' := by
  rintro ⟨hepc, -⟩
  have hslotEpc := step_epc hm hexc hexl hslot hraise
  rw [hslotEpc, hbranch.atSlot] at hepc
  have hne : (b + 4).setWidth 32 ≠ b.setWidth 32 := by
    rw [BitVec.setWidth_add b 4 (by decide)]
    bv_omega
  exact hne hepc

/-! ## A system call in a delay slot -/

/-- `BEQ` with its target two words on, and a `SYSCALL` in its delay slot. -/
def slotSyscall : MipsBase MipsTlbNormal WordMemory :=
  programState 0x80001000 0x1000 [0x10000001, 0x0000000C]

/-- The branch at 0x80001000 is taken, and the system call behind it leaves its own address
behind. -/
theorem slotSyscall_lost :
    ∃ s s' : MipsBase MipsTlbNormal WordMemory,
      BranchesFrom exceptionSetup 0x80001000 slotSyscall s ∧ s.cop0.exl = false ∧
      InstStep exceptionSetup s s' ∧ RaisesSync s s' ∧ ¬ ReturnsToBranch 0x80001000 s' := by
  refine ⟨lastState (runInst exceptionSetup) slotSyscall,
    lastState (runInst exceptionSetup) (lastState (runInst exceptionSetup) slotSyscall),
    ⟨.inl rfl, rfl, rfl, rfl⟩, rfl, .inl rfl,
    ⟨[.exception .kSyscall, .preExecute 0x80001004 0x0000000C], rfl, .kSyscall, ?_, rfl⟩, ?_⟩
  · exact List.mem_cons_self
  · rintro ⟨hepc, -⟩
    exact absurd hepc (by decide)

/-- `JR` through a register and a trapping `ADD` in its delay slot. -/
def slotOverflow : MipsBase MipsTlbNormal WordMemory :=
  { programState 0x80001000 0x1000 [0x00200008, 0x00421820] with
    gpr := fun idx => if idx = 1 then 0x80002000 else 0x7FFFFFFF }

theorem slotOverflow_not_returnsToBranch :
    ¬ ReturnsToBranch 0x80001000
      (lastState (runInst exceptionSetup) (lastState (runInst exceptionSetup) slotOverflow)) :=
  slotException_not_returnsToBranch (m := exceptionSetup) (n64Setup_isN64 _) rfl
    (s := lastState (runInst exceptionSetup) slotOverflow)
    ⟨.inl (rfl : runInst _ slotOverflow = _), rfl, rfl, rfl⟩ rfl (.inl rfl)
    ⟨[.exception .kOvf, .preExecute 0x80001004 0x00421820], rfl, .kOvf, List.mem_cons_self, rfl⟩

end MipsBase

end NgMips
