import NgMips.Proofs.DelaySlot

/-!
# Synchronous exceptions are atomic

A handler that raises a synchronous exception has only looked before, and it is called with no
branch pending; so all the exception leaves behind is its entry: the program counter, the mode
bits, and the cause with what is reported about it.  Nothing the instruction would have
written is changed, by either interpreter.
-/

namespace NgMips

namespace MipsBase

variable {T δ : Type} [MipsTlbBase T] {m : MipsSetup δ}

/-- What differs after a synchronous exception in the instruction at the program counter: memory
has served the fetch of the instruction at most, and of the rest of the state only the entry into
the exception and the count of cycles are new. -/
structure OnlyEntered (m : MipsSetup δ) (s s' : MipsBase T δ) : Prop where
  gpr : s'.gpr = s.gpr
  hi : s'.hi = s.hi
  lo : s'.lo = s.lo
  memory : s'.device = s.device ∨ s'.device = (fetched m s.pc s).device
  fpu : s'.fpu = s.fpu
  tlb : s'.tlb = s.tlb
  cop0 : s'.cop0 = { s.cop0 with
    sr := s'.cop0.sr, cause := s'.cop0.cause, epc := s'.cop0.epc, badvaddr := s'.cop0.badvaddr }
  rest : s' = { s with
    pc := s'.pc, nextPc := s'.nextPc, hasBranchDelay := s'.hasBranchDelay
    copCause := s'.copCause, cop0 := s'.cop0, device := s'.device
    cpiCounter := s'.cpiCounter, cycleSpent := s'.cycleSpent
    cycleSpentTotal := s'.cycleSpentTotal, trace := s'.trace }

omit [MipsTlbBase T] in
/-- An exception that finds no branch pending is entered, and nothing else happens. -/
lemma entered_same (cause : ExceptionCause) {s t : MipsBase T δ} (h : Reported s t) :
    ∃ sr causeReg epc badvaddr copCause, entered m cause t.pc false (told (.exception cause) t) =
      { s with
        pc := vecAddressGeneral, nextPc := vecAddressGeneral, copCause := copCause
        cop0 := { s.cop0 with sr := sr, cause := causeReg, epc := epc, badvaddr := badvaddr }
        trace := .exception cause :: s.trace } := by
  cases h <;> exact ⟨_, _, _, _, _, rfl⟩

/-- A handler that is called with no branch pending and raises a synchronous exception. -/
lemma callInst_entered (hm : m.IsN64) (hexc : m.config.hasException = true)
    {opcode : BitVec 32} {func : MipsInstId} {s s' : MipsBase T δ} (hbd : s.hasBranchDelay = false)
    (h : callInst m opcode func s = .ok ((), s')) (hraise : RaisesSync s s') :
    ∃ sr causeReg epc badvaddr copCause trace, s' = { s with
      pc := vecAddressGeneral, nextPc := vecAddressGeneral, copCause := copCause
      cop0 := { s.cop0 with sr := sr, cause := causeReg, epc := epc, badvaddr := badvaddr }
      trace := trace } := by
  rcases callInst_cases hm h with ⟨cause, t, -, hreported, htrigger⟩ | ⟨x, hx, hrun⟩
  · rw [triggerException_run hm hexc cause ((exl_of_reported hreported).2.1.trans hbd)] at htrigger
    split at htrigger
    · exact absurd htrigger (by simp)
    · obtain ⟨sr, causeReg, epc, badvaddr, copCause, hsame⟩ := entered_same (m := m) cause hreported
      rw [← Prog.state_eq htrigger, hsame]
      exact ⟨sr, causeReg, epc, badvaddr, copCause, _, rfl⟩
  · -- A handler that acts tells of its accesses only.
    obtain ⟨new, htrace, hnew⟩ := (act_effect hm hx hrun).trace
    refine absurd hraise (not_raisesSync htrace fun cause hmem => ?_)
    exact absurd (hnew _ hmem) (by simp [Event.isAccess])

/-- The same from the state before the observer was told and the pending branch used up. -/
lemma callInst_started_entered (hm : m.IsN64) (hexc : m.config.hasException = true)
    {opcode : BitVec 32} {func : MipsInstId} {s s' : MipsBase T δ}
    (h : callInst m opcode func (started opcode s) = .ok ((), s')) (hraise : RaisesSync s s') :
    ∃ sr causeReg epc badvaddr copCause trace, s' = { s with
      pc := vecAddressGeneral, nextPc := vecAddressGeneral, hasBranchDelay := false
      copCause := copCause
      cop0 := { s.cop0 with sr := sr, cause := causeReg, epc := epc, badvaddr := badvaddr }
      trace := trace } := by
  obtain ⟨new, htrace, -⟩ := (callInst_grown h).trace
  obtain ⟨sr, causeReg, epc, badvaddr, copCause, trace, heq⟩ :=
    callInst_entered hm hexc (started_spec opcode s).2.2.1 h
      (raisesSync_started hraise ⟨new, htrace⟩)
  exact ⟨sr, causeReg, epc, badvaddr, copCause, trace, heq⟩

/-- An instruction that raises a synchronous exception has done nothing else. -/
theorem syncException_atomic (hm : m.IsN64) (hexc : m.config.hasException = true)
    {s s' : MipsBase T δ} (hstep : InstStep m s s') (hraise : RaisesSync s s') :
    OnlyEntered m s s' := by
  rcases hstep with h | ⟨entry, h⟩
  · obtain ⟨opcode, t₀, t, hfetch, hcall, rfl⟩ := runInst_ok.mp h
    obtain ⟨-, -, rfl⟩ := fetch_ok hm hexc hfetch
    have hraise' : RaisesSync (fetched m s.pc s) t := hraise
    obtain ⟨sr, causeReg, epc, badvaddr, copCause, trace, rfl⟩ :=
      callInst_started_entered hm hexc hcall hraise'
    exact ⟨rfl, rfl, rfl, .inr rfl, rfl, rfl, rfl, rfl⟩
  · obtain ⟨t, hcall, rfl⟩ := runEntry_ok.mp h
    have hraise' : RaisesSync s t := hraise
    obtain ⟨sr, causeReg, epc, badvaddr, copCause, trace, rfl⟩ :=
      callInst_started_entered hm hexc hcall hraise'
    exact ⟨rfl, rfl, rfl, .inl rfl, rfl, rfl, rfl, rfl⟩

/-- An unaligned load, `LW r2, 2(r0)`. -/
def unalignedLoad : MipsBase MipsTlbNormal WordMemory :=
  programState 0x80001000 0x1000 [0x8C020002]

theorem unalignedLoad_onlyEntered :
    OnlyEntered exceptionSetup unalignedLoad (lastState (runInst exceptionSetup) unalignedLoad) :=
  syncException_atomic (n64Setup_isN64 _) rfl (.inl (rfl : runInst _ unalignedLoad = _))
    ⟨[.exception .kAddrl, .preExecute 0x80001000 0x8C020002], rfl, .kAddrl, List.mem_cons_self, rfl⟩

end MipsBase

end NgMips
