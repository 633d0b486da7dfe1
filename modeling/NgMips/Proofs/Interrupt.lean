import NgMips.Proofs.Branch
import NgMips.Proofs.Poll
import NgMips.Source.Machine

/-!
# Interrupts are transparent

A handler that only returns: the word at the vector is `ERET`.  The interrupt is entered
with the address of the next instruction, or of the branch before it when one is pending;
`ERET` goes back there and opens interrupts again, and a pending branch is executed again.
What the program can see is then what it was (`Restored`).
-/

namespace NgMips

namespace MipsBase

variable {δ : Type} {m : MipsSetup δ}

/-! ## Returning -/

/-- The state after `ERET`. -/
def returned (s : MipsBase MipsTlbNormal δ) : MipsBase MipsTlbNormal δ :=
  { s with
    cop0 := { s.cop0 with sr := s.cop0.sr &&& ~~~2#32 }
    pc := s.cop0.epc
    nextPc := s.cop0.epc
    llbit := false }

/-- The word of the instruction `ERET`. -/
def eretWord : BitVec 32 := 0x42000018

lemma eret_returns {s : MipsBase MipsTlbNormal δ} (herl : s.cop0.erl = false) :
    eret s = .ok ((), returned s) := by
  rw [eret, Prog.bind_of_ok (read_run _ _)]
  rw [herl, if_neg (by simp)]
  rfl

lemma callInst_eret (hm : m.IsN64) {s : MipsBase MipsTlbNormal δ} (herl : s.cop0.erl = false) :
    callInst m eretWord (getInstFuncPtr m.kIs64Bit eretWord) s = .ok ((), returned s) := by
  have hfunc : getInstFuncPtr m.kIs64Bit eretWord = .kCop := by
    rw [hm.is64Bit]
    decide
  have hcop : copId eretWord = 0#2 := by decide
  rw [hfunc]
  change whenCopEnabled m eretWord (copCommand m (copId eretWord) eretWord) s = _
  rw [whenCopEnabled, Prog.bind_of_ok (isCopEnabled_run hm _ _), hcop]
  change copCommand m 0#2 eretWord s = _
  rw [copCommand, hm.slot_zero]
  exact eret_returns herl

/-- Executing `ERET` at a mapped address. -/
lemma runInst_eret (hm : m.IsN64) (hpure : m.bus.FetchPure) {s : MipsBase MipsTlbNormal δ}
    (hfound : (MipsTlbBase.translateAddress s.tlb s.pc).found = true)
    (hword : wordAt m s.pc s = eretWord) (herl : s.cop0.erl = false) :
    runInst m s =
      .ok ((), counted m 1 (stepped (BitVec.allOnes 64) (returned (started eretWord s)))) := by
  have hfetch := fetch_found (m := m) hfound
  rw [fetched_of_pure hpure, hword] at hfetch
  exact runInst_ok.mpr ⟨eretWord, s, _, hfetch, callInst_eret hm herl, rfl⟩

/-! ## There and back -/

/-- What the program can see is the same. -/
structure Restored (s s' : MipsBase MipsTlbNormal δ) : Prop where
  gpr : s'.gpr = s.gpr
  hi : s'.hi = s.hi
  lo : s'.lo = s.lo
  device : s'.device = s.device
  fpu : s'.fpu = s.fpu
  sr : s'.cop0.sr = s.cop0.sr
  pc : s'.pc = s.pc
  flag : s'.hasBranchDelay = s.hasBranchDelay
  dst : s.hasBranchDelay = true → s'.branchDelayDst = s.branchDelayDst

/-- The jump pending in `s` was made pending by the instruction before `pc`, executed from
`s₀`; that instruction is still in memory, and does not link into a register it reads. -/
structure PendingBranch (m : MipsSetup δ) (s₀ s : MipsBase MipsTlbNormal δ) : Prop where
  step : ∃ s₁, runInst m s₀ = .ok ((), s₁) ∧ SameInputs m s₁ s ∧ s.gpr = s₁.gpr ∧
    s₁.hasBranchDelay = true ∧ s.branchDelayDst = s₁.branchDelayDst
  pc : s.pc = s₀.pc + 4
  word : wordAt m s₀.pc s = wordAt m s₀.pc s₀
  source : (getInstFuncPtr m.kIs64Bit (wordAt m s₀.pc s₀)).linksOverSource
    (wordAt m s₀.pc s₀) = false

/-- The return from an interrupt that hit `s` is complete, at the address `epc`. -/
structure BackAt (epc : BitVec 64) (s r : MipsBase MipsTlbNormal δ) : Prop where
  pc : r.pc = epc
  flag : r.hasBranchDelay = false
  gpr : r.gpr = s.gpr
  hi : r.hi = s.hi
  lo : r.lo = s.lo
  device : r.device = s.device
  fpu : r.fpu = s.fpu
  tlb : r.tlb = s.tlb
  sr : r.cop0.sr = s.cop0.sr

/-- From the vector, `ERET` leads back to the exception program counter. -/
lemma runInst_entered (hm : m.IsN64) (hpure : m.bus.FetchPure) {s : MipsBase MipsTlbNormal δ}
    (epc : BitVec 64) (bd : Bool) (hready : InterruptReady m s)
    (hvector : wordAt m vecAddressGeneral s = eretWord) :
    ∃ r, runInst m (entered m .kInt epc bd s) = .ok ((), r) ∧ BackAt epc s r := by
  obtain ⟨hexl, herl, hsr⟩ := hready.open
  have hentered : (entered m .kInt epc bd s).cop0.sr = s.cop0.sr ||| 2#32 := by
    simp [entered, enteredCop0, hexl]
  have hfound : (MipsTlbBase.translateAddress s.tlb vecAddressGeneral).found = true := by
    rw [MipsTlbNormal.translateAddress_eq,
      MipsTlbNormal.translateAddress_of_inKseg _ (by decide)]
  have herl' : (entered m .kInt epc bd s).cop0.erl = false := by
    rw [MipsCop0.erl, hentered]
    simpa using herl
  have hrun := runInst_eret hm hpure (s := entered m .kInt epc bd s) hfound hvector herl'
  refine ⟨_, hrun, ?_, rfl, rfl, rfl, rfl, rfl, rfl, rfl, ?_⟩
  · have hepc : (entered m .kInt epc bd s).cop0.epc = epc := by
      simp [entered, enteredCop0, hexl]
    change (entered m .kInt epc bd s).cop0.epc &&& BitVec.allOnes 64 = epc
    rw [BitVec.and_allOnes, hepc]
  · change (entered m .kInt epc bd s).cop0.sr &&& ~~~2#32 = s.cop0.sr
    rw [hentered, hsr]

lemma doesInstHaveDelaySlot_of_func (opcode : BitVec 32) {kIs64Bit : Bool}
    (h : (getInstFuncPtr kIs64Bit opcode).hasDelaySlot = true) :
    doesInstHaveDelaySlot opcode = true := by
  rw [getInstFuncPtr] at h
  split at h
  · exact absurd h (by decide)
  · split at h
    · exact absurd h (by decide)
    · exact h

/-- The branch that made the jump pending, as it was executed. -/
lemma PendingBranch.executed (hm : m.IsN64) (hexc : m.config.hasException = true)
    (hpure : m.bus.FetchPure) {s₀ s : MipsBase MipsTlbNormal δ} (h : PendingBranch m s₀ s) :
    ∃ opcode t, opcode = wordAt m s₀.pc s ∧
      (MipsTlbBase.translateAddress s.tlb s₀.pc).found = true ∧
      (getInstFuncPtr m.kIs64Bit opcode).linksOverSource opcode = false ∧
      callInst m opcode (getInstFuncPtr m.kIs64Bit opcode) (started opcode s₀) = .ok ((), t) ∧
      t.hasBranchDelay = true ∧ s.gpr = t.gpr ∧ s.branchDelayDst = t.branchDelayDst ∧
      s.tlb = s₀.tlb ∧ s.cop0.sr = s₀.cop0.sr ∧ s.fpu = s₀.fpu ∧
      ∀ copId, m.cop.getFlag s.device copId = m.cop.getFlag s₀.device copId := by
  obtain ⟨s₁, hrun, hsame, hgpr, htaken, hdst⟩ := h.step
  obtain ⟨opcode, t₀, t, hfetch, hcall, rfl⟩ := runInst_ok.mp hrun
  obtain ⟨hfound, rfl, rfl⟩ := fetch_ok hm hexc hfetch
  rw [fetched_of_pure hpure] at hcall
  have hframe := callInst_branchFrame hm hexc hpure rfl hcall htaken
  have htlb : s.tlb = s₀.tlb := hsame.tlb.trans hframe.tlb
  refine ⟨_, t, h.word.symm, by rw [htlb]; exact hfound, h.source, hcall, htaken, hgpr, hdst, htlb,
    ?_, hsame.fpu.trans hframe.fpu, fun copId => ?_⟩
  · exact hsame.sr.trans (congrArg MipsCop0.sr hframe.cop0)
  · exact (hsame.copFlag copId).trans (congrArg (m.cop.getFlag · copId) hframe.device)

/-- The branch is executed again from the state after `ERET`. -/
lemma PendingBranch.again (hm : m.IsN64) (hexc : m.config.hasException = true)
    (hpure : m.bus.FetchPure) {s₀ s r : MipsBase MipsTlbNormal δ} (h : PendingBranch m s₀ s)
    (hbd : s.hasBranchDelay = true) (hback : BackAt s₀.pc s r) :
    ∃ s₃, runInst m r = .ok ((), s₃) ∧ Restored s s₃ := by
  obtain ⟨opcode, t, hopcode, hfound, hsource, hcall, htaken, hgpr, hdst, htlb, hsr, hfpu,
    hflag⟩ := h.executed hm hexc hpure
  have hin : SameInputs m (started opcode s₀) (started opcode r) := by
    refine ⟨hback.pc, hback.tlb.trans htlb, hback.sr.trans hsr, hback.fpu.trans hfpu, ?_⟩
    intro copId
    exact (congrArg (m.cop.getFlag · copId) hback.device).trans (hflag copId)
  obtain ⟨t', hcall', hretaken⟩ := callInst_retakes hm hexc hpure hin rfl hsource hcall htaken
    (hback.gpr.trans hgpr)
  have hfetch : fetch m r.pc r = .ok (opcode, r) := by
    have hfound' : (MipsTlbBase.translateAddress r.tlb r.pc).found = true := by
      rw [hback.tlb, hback.pc, hfound]
    rw [fetch_found hfound', fetched_of_pure hpure, hopcode, wordAt, wordAt, hback.tlb,
      hback.device, hback.pc]
  refine ⟨_, runInst_ok.mpr ⟨opcode, r, t', hfetch, hcall', rfl⟩, ?_⟩
  have hnext : (started opcode r).nextPc = s.pc := by
    have hadvanced : (started opcode r).nextPc =
      if r.hasBranchDelay then r.branchDelayDst else r.pc + 4 := rfl
    rw [hadvanced, hback.flag, if_neg (by simp), hback.pc, h.pc]
  refine ⟨hretaken.gpr.trans hback.gpr, hretaken.hi.trans hback.hi, hretaken.lo.trans hback.lo,
    hretaken.device.trans hback.device, hretaken.fpu.trans hback.fpu, ?_, ?_,
    hretaken.flag.trans hbd.symm, fun _ => hretaken.dst.trans hdst.symm⟩
  · exact (congrArg MipsCop0.sr hretaken.cop0).trans hback.sr
  · change t'.nextPc &&& BitVec.allOnes 64 = s.pc
    rw [BitVec.and_allOnes, hretaken.nextPc, hnext]

/-- An interrupt whose handler returns at once is not noticed: after `ERET`, and after the
branch was executed again when one was pending, the program sees what it saw before. -/
theorem interrupt_transparent (hm : m.IsN64) (hexc : m.config.hasException = true)
    (hpure : m.bus.FetchPure) {s : MipsBase MipsTlbNormal δ} (hready : InterruptReady m s)
    (hvector : wordAt m vecAddressGeneral s = eretWord)
    (hpending : s.hasBranchDelay = true → ∃ s₀, PendingBranch m s₀ s) :
    ∃ s₁ s₂, checkInterrupt m s = .ok ((), s₁) ∧ s₁.pc = vecAddressGeneral ∧
      runInst m s₁ = .ok ((), s₂) ∧
      (s.hasBranchDelay = false → Restored s s₂) ∧
      (s.hasBranchDelay = true → ∃ s₃, runInst m s₂ = .ok ((), s₃) ∧ Restored s s₃) := by
  rw [checkInterrupt_ready hm hexc hready]
  cases hbd : s.hasBranchDelay with
  | false =>
      have htrigger := triggerException_run hm hexc .kInt hbd
      have htold : InterruptReady m (told (.exception .kInt) s) := hready
      obtain ⟨r, hrun, hback⟩ := runInst_entered hm hpure s.pc false htold hvector
      refine ⟨_, r, htrigger, rfl, hrun, fun _ => ?_, fun h => absurd h (by simp)⟩
      exact ⟨hback.gpr, hback.hi, hback.lo, hback.device, hback.fpu, hback.sr, hback.pc,
        hback.flag.trans hbd.symm, fun h => absurd (hbd.symm.trans h) (by simp)⟩
  | true =>
      obtain ⟨s₀, hbranch⟩ := hpending hbd
      have hb : s.pc - 4 = s₀.pc := by
        rw [hbranch.pc]
        bv_omega
      obtain ⟨opcode, t, hopcode, hfound, -, hcall, htaken, -⟩ := hbranch.executed hm hexc hpure
      have hslot : doesInstHaveDelaySlot (wordAt m (s.pc - 4) s) = true := by
        rw [hb, ← hopcode]
        exact doesInstHaveDelaySlot_of_func opcode (callInst_slot hm rfl hcall htaken)
      have htrigger := triggerException_pending hm hexc .kInt hbd (by rw [hb]; exact hfound)
      rw [if_pos hslot, fetched_of_pure hpure, hb] at htrigger
      have hgiven : InterruptReady m (givenUp .kInt s) := hready
      obtain ⟨r, hrun, hback⟩ := runInst_entered hm hpure s₀.pc true hgiven hvector
      have hback' : BackAt s₀.pc s r := ⟨hback.pc, hback.flag, hback.gpr, hback.hi, hback.lo,
        hback.device, hback.fpu, hback.tlb, hback.sr⟩
      exact ⟨_, r, htrigger, rfl, hrun, fun h => absurd h (by simp),
        fun _ => hbranch.again hm hexc hpure hbd hback'⟩

/-- A taken branch, with the timer interrupt up and `ERET` at the vector. -/
def branchAndReturn : MipsBase MipsTlbNormal WordMemory :=
  { programState 0x80001000 0x1000 [0x10000001, 0x00000000] with
    cop0 := { sr := 0x8001 }
    compareInterrupt := true
    device := [(0x1000, 0x10000001), (0x180, eretWord)] }

/-- The interrupt hits the delay slot of the branch. -/
theorem branchAndReturn_transparent :
    ∃ s₁ s₂ s₃, checkInterrupt exceptionSetup (lastState (runInst exceptionSetup) branchAndReturn) =
        .ok ((), s₁) ∧ runInst exceptionSetup s₁ = .ok ((), s₂) ∧
      runInst exceptionSetup s₂ = .ok ((), s₃) ∧
      Restored (lastState (runInst exceptionSetup) branchAndReturn) s₃ := by
  have hbranch : PendingBranch exceptionSetup branchAndReturn
      (lastState (runInst exceptionSetup) branchAndReturn) :=
    ⟨⟨_, rfl, ⟨rfl, rfl, rfl, rfl, fun _ => rfl⟩, rfl, rfl, rfl⟩, rfl, rfl, by decide⟩
  have hready :
      InterruptReady exceptionSetup (lastState (runInst exceptionSetup) branchAndReturn) :=
    ⟨by decide, by decide⟩
  obtain ⟨s₁, s₂, hcheck, -, hreturn, -, hagain⟩ :=
    interrupt_transparent (n64Setup_isN64 _) rfl wordBus_fetchPure hready rfl
      fun _ => ⟨branchAndReturn, hbranch⟩
  obtain ⟨s₃, hrun, hrestored⟩ := hagain rfl
  exact ⟨s₁, s₂, s₃, hcheck, hreturn, hrun, hrestored⟩

end MipsBase

end NgMips
