import NgMips.Proofs.Agree
import NgMips.Proofs.Cop0Regs
import NgMips.Proofs.Reset

/-!
# The saved program counter

The upper half of the program counter is not looked at when an instruction is fetched, and jumps,
exceptions and the two interpreters leave different values there.  An exception copies the whole
of it into `EPC`, where `DMFC0` shows it: two processors that differ in the upper halves only are
told apart, unless `EPC` is not written.
-/

namespace NgMips

namespace MipsBase

variable {δ : Type} {m : MipsSetup δ}

/-- The states agree on everything but the upper halves of the two program counters. -/
structure AgreeButHigh (s t : MipsBase MipsTlbNormal δ) : Prop where
  eq : t = { s with pc := t.pc, nextPc := t.nextPc }
  pc : SameLow t.pc s.pc
  nextPc : SameLow t.nextPc s.nextPc

/-- An exception, and the instruction `opcode` after it. -/
def raiseAndExecute (m : MipsSetup δ) (cause : ExceptionCause) (opcode : BitVec 32) :
    CpuM MipsTlbNormal δ Unit := do
  triggerException m cause
  callInst m opcode (getInstFuncPtr m.kIs64Bit opcode)

/-- What an instruction that reads `EPC` after an exception leaves in its register; there is no
value when the exception ends in a `PANIC`. -/
def savedEpc (m : MipsSetup δ) (cause : ExceptionCause) (opcode : BitVec 32)
    (s : MipsBase MipsTlbNormal δ) : Option (BitVec 64) :=
  match raiseAndExecute m cause opcode s with
  | .ok r => some (r.2.gpr (rtField opcode))
  | .error _ => none

/-- `DMFC0` of `EPC` into a register that can be written. -/
structure ReadsEpc (opcode : BitVec 32) : Prop where
  isDmfc : decode opcode = .kDmfc
  cop : copId opcode = 0
  epc : rdField opcode = 14
  writes : rtField opcode ≠ 0

/-- The exception does not end in a `PANIC`: it is none of the translation unit, and a pending
branch is there to be returned to. -/
def entersVector (m : MipsSetup δ) (cause : ExceptionCause) (s : MipsBase MipsTlbNormal δ) : Bool :=
  !cause.isTlb && (!s.hasBranchDelay || ((translateAddress s.tlb (s.pc - 4)).found &&
    doesInstHaveDelaySlot (wordAt m (s.pc - 4) s)))

/-- The address the exception returns to. -/
def returnPc (s : MipsBase MipsTlbNormal δ) : BitVec 64 :=
  if s.hasBranchDelay then s.pc - 4 else s.pc

/-! ## The value that is read -/

/-- `EPC` is read as it is. -/
lemma callInst_readsEpc (hm : m.IsN64) {opcode : BitVec 32} (hload : ReadsEpc opcode)
    (s : MipsBase MipsTlbNormal δ) :
    callInst m opcode (getInstFuncPtr m.kIs64Bit opcode) s = .ok ((),
      { s with gpr := Function.update s.gpr (rtField opcode) s.cop0.epc }) := by
  have hreads : readsReg m 14 opcode = true := by
    rw [readsReg, hload.isDmfc, hload.cop, hload.epc]
    simp
  have hmoved : movedValue opcode s.cop0.epc = s.cop0.epc := by
    rw [movedValue, hload.isDmfc, if_neg (by decide)]
  have hread : cop0Read64 (14 : BitVec 5).toNat s = .ok (s.cop0.epc, s) := rfl
  rw [callInst_readsReg hm hreads, Prog.bind_of_ok hread, hmoved, writeGpr64,
    if_neg hload.writes]
  rfl

/-- The state after the exception decides what is read. -/
lemma savedEpc_of_run (hm : m.IsN64) {opcode : BitVec 32} (hload : ReadsEpc opcode)
    {cause : ExceptionCause} {s t : MipsBase MipsTlbNormal δ}
    (h : triggerException m cause s = .ok ((), t)) :
    savedEpc m cause opcode s = some t.cop0.epc := by
  rw [savedEpc, raiseAndExecute, Prog.bind_of_ok h, callInst_readsEpc hm hload]
  exact congrArg some (Function.update_self (β := fun _ : BitVec 5 => BitVec 64) _ _ _)

lemma savedEpc_of_error {opcode : BitVec 32} {cause : ExceptionCause} {e : Stop}
    {s : MipsBase MipsTlbNormal δ} (h : triggerException m cause s = .error e) :
    savedEpc m cause opcode s = none := by
  rw [savedEpc, raiseAndExecute, Prog.bind_run, h]
  rfl

lemma entersVector_eq_true {cause : ExceptionCause} {s : MipsBase MipsTlbNormal δ} :
    entersVector m cause s = true ↔ cause.isTlb = false ∧ (s.hasBranchDelay = true →
      (translateAddress s.tlb (s.pc - 4)).found = true ∧
        doesInstHaveDelaySlot (wordAt m (s.pc - 4) s) = true) := by
  rw [entersVector, Bool.and_eq_true, Bool.or_eq_true, Bool.and_eq_true]
  cases cause.isTlb <;> cases s.hasBranchDelay <;> simp

/-- The address to return to is saved, unless `EPC` is kept. -/
lemma triggerException_enters (hm : m.IsN64) (hexc : m.config.hasException = true)
    {cause : ExceptionCause} {s : MipsBase MipsTlbNormal δ}
    (henters : entersVector m cause s = true) :
    ∃ t, triggerException m cause s = .ok ((), t) ∧
      t.cop0.epc = if s.cop0.exl then s.cop0.epc else returnPc s := by
  obtain ⟨htlb, hpending⟩ := entersVector_eq_true.mp henters
  cases hbd : s.hasBranchDelay with
  | false =>
      have hreturn : returnPc s = s.pc := by
        rw [returnPc, hbd]
        rfl
      refine ⟨entered m cause s.pc false (told (.exception cause) s), ?_, ?_⟩
      · rw [triggerException_run hm hexc cause hbd, htlb, if_neg (by simp)]
      · rw [hreturn]
        rfl
  | true =>
      obtain ⟨hfound, hslot⟩ := hpending hbd
      have hreturn : returnPc s = s.pc - 4 := by
        rw [returnPc, hbd]
        rfl
      refine ⟨entered m cause (s.pc - 4) true (fetched m (s.pc - 4) (givenUp cause s)), ?_, ?_⟩
      · rw [triggerException_pending hm hexc cause hbd hfound, hslot, htlb, if_pos rfl,
          if_neg (by simp)]
      · rw [hreturn]
        rfl

/-- Every other exception ends in a `PANIC`. -/
lemma triggerException_panics (hm : m.IsN64) (hexc : m.config.hasException = true)
    {cause : ExceptionCause} {s : MipsBase MipsTlbNormal δ}
    (henters : entersVector m cause s = false) :
    ∃ e, triggerException m cause s = .error e := by
  cases hrun : triggerException m cause s with
  | error e => exact ⟨e, rfl⟩
  | ok r =>
      obtain ⟨⟨⟩, t⟩ := r
      have hcontra : entersVector m cause s = true := by
        rw [entersVector_eq_true]
        cases triggerException_outcome hm hrun with
        | off hoff => exact absurd (hoff.symm.trans hexc) (by simp)
        | plain _ htlb hbd => exact ⟨htlb, fun h => absurd (hbd.symm.trans h) (by simp)⟩
        | delayed _ htlb _ hfound hslot => exact ⟨htlb, fun _ => ⟨hfound, hslot⟩⟩
      exact absurd (henters.symm.trans hcontra) (by simp)

/-- With exceptions, the address to return to is read, unless `EPC` was kept. -/
lemma savedEpc_eq (hm : m.IsN64) (hexc : m.config.hasException = true) {opcode : BitVec 32}
    (hload : ReadsEpc opcode) (cause : ExceptionCause) (s : MipsBase MipsTlbNormal δ) :
    savedEpc m cause opcode s =
      if entersVector m cause s then
        some (if s.cop0.exl then s.cop0.epc else returnPc s)
      else none := by
  cases henters : entersVector m cause s with
  | false =>
      obtain ⟨e, hrun⟩ := triggerException_panics hm hexc henters
      rw [savedEpc_of_error hrun]
      rfl
  | true =>
      obtain ⟨t, hrun, hepc⟩ := triggerException_enters hm hexc henters
      rw [savedEpc_of_run hm hload hrun, hepc]
      rfl

/-- Processors that differ in the upper halves only take an exception together. -/
lemma AgreeButHigh.entersVector_eq {s t : MipsBase MipsTlbNormal δ} (h : AgreeButHigh s t)
    (cause : ExceptionCause) : entersVector m cause t = entersVector m cause s := by
  have htranslate : ∀ tlb : MipsTlbNormal,
      translateAddress tlb (t.pc - 4) = translateAddress tlb (s.pc - 4) := fun tlb =>
    MipsTlbNormal.translateAddress_congr tlb (h.pc.sub 4).and_mask
  have htlb : t.tlb = s.tlb := by rw [h.eq]
  have hbd : t.hasBranchDelay = s.hasBranchDelay := by rw [h.eq]
  have hdevice : t.device = s.device := by rw [h.eq]
  simp only [entersVector, wordAt, htlb, hbd, hdevice, htranslate]

/-- **What is saved.**  Processors that agree on everything but the upper halves of the program
counters read the same return address after an exception exactly when exceptions are off, the
exception ends in a `PANIC`, `EPC` still holds the address of an earlier exception, or the
program counters are the same. -/
theorem savedEpc_same_iff (hm : m.IsN64) {opcode : BitVec 32} (hload : ReadsEpc opcode)
    (cause : ExceptionCause) {s t : MipsBase MipsTlbNormal δ} (h : AgreeButHigh s t) :
    savedEpc m cause opcode s = savedEpc m cause opcode t ↔
      m.config.hasException = false ∨ entersVector m cause s = false ∨ s.cop0.exl = true ∨
        s.pc = t.pc := by
  have hcop0 : t.cop0 = s.cop0 := by rw [h.eq]
  have hbd : t.hasBranchDelay = s.hasBranchDelay := by rw [h.eq]
  cases hexc : m.config.hasException with
  | false =>
      rw [savedEpc_of_run hm hload (triggerException_off hexc cause s),
        savedEpc_of_run hm hload (triggerException_off hexc cause t), hcop0]
      simp
  | true =>
      rw [savedEpc_eq hm hexc hload, savedEpc_eq hm hexc hload, h.entersVector_eq, hcop0]
      cases henters : entersVector m cause s with
      | false => simp
      | true =>
          cases hexl : s.cop0.exl with
          | true => simp
          | false =>
              cases hdelay : s.hasBranchDelay with
              | false => simp [returnPc, hbd, hdelay]
              | true => simp [returnPc, hbd, hdelay]

/-! ## Two ways to enter the same code -/

/-- A processor whose program counter was set. -/
def startedAt (pc : BitVec 64) : MipsBase MipsTlbNormal WordMemory :=
  lastState (performAll exceptionSetup [.setPc pc]) (built [])

lemma startedAt_reachable (pc : BitVec 64) : Reachable exceptionSetup (startedAt pc) :=
  ⟨[], [.setPc pc], [none], rfl⟩

lemma startedAt_agree : AgreeButHigh (startedAt 0x80001000) (startedAt 0xFFFFFFFF80001000) :=
  ⟨rfl, rfl, rfl⟩

lemma dmfcEpc_readsEpc : ReadsEpc 0x40227000 := ⟨by decide, by decide, by decide, by decide⟩

/-- Code at `0x80001000` that is entered with a zero-extended address and with a sign-extended
one: `DMFC0 $2, EPC` after a system call tells them apart. -/
theorem startedAt_told_apart :
    Reachable exceptionSetup (startedAt 0x80001000) ∧
      Reachable exceptionSetup (startedAt 0xFFFFFFFF80001000) ∧
      AgreeButHigh (startedAt 0x80001000) (startedAt 0xFFFFFFFF80001000) ∧
      ReadsEpc 0x40227000 ∧
      savedEpc exceptionSetup .kSyscall 0x40227000 (startedAt 0x80001000) =
        some 0x80001000 ∧
      savedEpc exceptionSetup .kSyscall 0x40227000 (startedAt 0xFFFFFFFF80001000) =
        some 0xFFFFFFFF80001000 :=
  ⟨startedAt_reachable _, startedAt_reachable _, startedAt_agree, dmfcEpc_readsEpc,
    by decide +kernel, by decide +kernel⟩

/-- A processor that executed a system call. -/
def behindSyscall : MipsBase MipsTlbNormal WordMemory :=
  lastState (performAll exceptionSetup [.setPc 0x80001000, .run 10 1]) (built [(0x1000, 0x0000000C)])

/-- Its program counter was set. -/
def handlerAt (pc : BitVec 64) : MipsBase MipsTlbNormal WordMemory :=
  lastState (perform exceptionSetup (.setPc pc)) behindSyscall

lemma setPc_agree {a b : BitVec 64} (hpc : b.setWidth 32 = a.setWidth 32)
    (hnext : (b + 4).setWidth 32 = (a + 4).setWidth 32) (s : MipsBase MipsTlbNormal WordMemory) :
    AgreeButHigh (lastState (perform exceptionSetup (.setPc a)) s)
      (lastState (perform exceptionSetup (.setPc b)) s) := ⟨rfl, hpc, hnext⟩

/-- In the handler of an exception, another one keeps what was saved. -/
theorem handlerAt_same :
    (handlerAt 0x80002000).cop0.exl = true ∧
      savedEpc exceptionSetup .kSyscall 0x40227000 (handlerAt 0x80002000) =
        savedEpc exceptionSetup .kSyscall 0x40227000 (handlerAt 0xFFFFFFFF80002000) := by
  have hexl : (handlerAt 0x80002000).cop0.exl = true := by decide +kernel
  have hagree : AgreeButHigh (handlerAt 0x80002000) (handlerAt 0xFFFFFFFF80002000) := by
    rw [handlerAt, handlerAt]
    exact setPc_agree (by decide) (by decide) behindSyscall
  exact ⟨hexl, (savedEpc_same_iff (n64Setup_isN64 _) dmfcEpc_readsEpc .kSyscall hagree).mpr
    (.inr (.inr (.inl hexl)))⟩

end MipsBase

end NgMips
