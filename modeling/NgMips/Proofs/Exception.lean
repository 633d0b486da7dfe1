import NgMips.Source.Run

/-!
# Exception entry on the main processor

What `triggerException` and the internal register accesses do on a processor whose
coprocessor 0 is the built-in one, as equations between states.  An exception of the
translation unit always ends in a `PANIC`; every other one leaves the state `entered`.
-/

namespace NgMips

namespace MipsBase

variable {T δ : Type} [MipsTlbBase T] {m : MipsSetup δ}

/-! ## The internal accessors -/

section Internal

omit [MipsTlbBase T]

lemma copRead32Internal_status (hm : m.IsN64) (s : MipsBase T δ) :
    copRead32Internal m 12 s = .ok (s.cop0.sr, s) := by
  simp only [copRead32Internal, hm.slot_zero]
  rfl

lemma copRead32Internal_cause (hm : m.IsN64) (s : MipsBase T δ) :
    copRead32Internal m 13 s = .ok (s.cop0.cause, s) := by
  simp only [copRead32Internal, hm.slot_zero]
  rfl

lemma copRead32Internal_compare (hm : m.IsN64) (s : MipsBase T δ) :
    copRead32Internal m 128 s =
      .ok (if (s.cop0.checkCompareInterrupt s.timestamp).1 then 1 else 0,
        { s with cop0 := (s.cop0.checkCompareInterrupt s.timestamp).2 }) := by
  simp only [copRead32Internal, hm.slot_zero]
  rfl

lemma copWrite32Internal_status (hm : m.IsN64) (value : BitVec 32) (s : MipsBase T δ) :
    copWrite32Internal m 12 value s = .ok ((), { s with cop0 := { s.cop0 with sr := value } }) := by
  simp only [copWrite32Internal, hm.slot_zero]
  simp [MipsCop0.write32Internal, MipsCop0.write64Internal, Except.map]

lemma copWrite32Internal_cause (hm : m.IsN64) (value : BitVec 32) (s : MipsBase T δ) :
    copWrite32Internal m 13 value s =
      .ok ((), { s with cop0 := { s.cop0 with cause := value } }) := by
  simp only [copWrite32Internal, hm.slot_zero]
  simp [MipsCop0.write32Internal, MipsCop0.write64Internal, Except.map]

lemma copWrite64Internal_epc (hm : m.IsN64) (value : BitVec 64) (s : MipsBase T δ) :
    copWrite64Internal m 14 value s =
      .ok ((), { s with cop0 := { s.cop0 with epc := value } }) := by
  simp only [copWrite64Internal, hm.slot_zero]
  rfl

lemma copWrite64Internal_badvaddr (hm : m.IsN64) (value : BitVec 64) (s : MipsBase T δ) :
    copWrite64Internal m 8 value s =
      .ok ((), { s with cop0 := { s.cop0 with badvaddr := value } }) := by
  simp only [copWrite64Internal, hm.slot_zero]
  rfl

lemma isCopEnabled_run (hm : m.IsN64) (copId : BitVec 2) (s : MipsBase T δ) :
    isCopEnabled m copId s =
      .ok (copId == 0 || s.cop0.sr.getLsbD (copId.toNat + 28), s) := by
  rw [isCopEnabled, if_pos hm.hasCop0, Prog.bind_of_ok (copRead32Internal_status hm s)]
  rfl

end Internal

/-! ## Entry -/

/-- Each bit of the new value of `Cause`. -/
lemma causeReg_getLsbD (cause : ExceptionCause) (causeRegOld copCause : BitVec 32)
    (interrupt line bd : Bool) (i : ℕ) :
    (causeReg cause causeRegOld copCause interrupt line bd).getLsbD i =
      ((cause.code <<< 2).getLsbD i || (interrupt && decide (10 = i)) ||
        (line && decide (15 = i)) || (causeRegOld &&& 0x0300).getLsbD i ||
        (decide (cause = .kCop) && (copCause <<< 28).getLsbD i) || (bd && decide (31 = i))) := by
  have hbit : ∀ (b : Bool) (k : ℕ), k < 32 →
      ((if b then 2 ^ k else 0 : ℕ) : BitVec 32).getLsbD i = (b && decide (k = i)) := by
    intro b k hk
    cases b with
    | false => simp
    | true =>
        rw [if_pos rfl, BitVec.natCast_eq_ofNat, BitVec.getLsbD_ofNat, Nat.testBit_two_pow,
          Bool.true_and]
        by_cases hik : k = i
        · simp [← hik, hk]
        · simp [hik]
  have hbd : (if bd then 0x80000000#32 else 0).getLsbD i = (bd && decide (31 = i)) := by
    rw [← hbit bd 31 (by decide)]
    cases bd <;> rfl
  have hcop : (if cause = .kCop then copCause <<< 28 else 0).getLsbD i =
      (decide (cause = .kCop) && (copCause <<< 28).getLsbD i) := by
    by_cases h : cause = .kCop
    · rw [if_pos h, decide_eq_true h, Bool.true_and]
    · rw [if_neg h, decide_eq_false h, Bool.false_and]
      simp
  rw [causeReg]
  simp only [BitVec.getLsbD_or]
  rw [hcop, ← hbit interrupt 10 (by decide), ← hbit line 15 (by decide), ← hbd]
  rfl

/-- The registers of coprocessor 0 after an exception. -/
def enteredCop0 (m : MipsSetup δ) (cause : ExceptionCause) (epc : BitVec 64) (bd : Bool)
    (s : MipsBase T δ) : MipsCop0 :=
  { s.cop0 with
    cause := causeReg cause s.cop0.cause s.copCause (m.bus.getInterrupt s.device)
      s.compareInterrupt bd
    epc := if s.cop0.exl then s.cop0.epc else epc
    sr := if s.cop0.exl then s.cop0.sr else s.cop0.sr ||| 2 }

/-- The state after an exception that does not end in a `PANIC`. -/
def entered (m : MipsSetup δ) (cause : ExceptionCause) (epc : BitVec 64) (bd : Bool)
    (s : MipsBase T δ) : MipsBase T δ :=
  { s with
    cop0 := enteredCop0 m cause epc bd s
    pc := vecAddressGeneral
    nextPc := vecAddressGeneral }

omit [MipsTlbBase T] in
lemma takeException_run (hm : m.IsN64) (cause : ExceptionCause) (epc : BitVec 64) (bd : Bool)
    (s : MipsBase T δ) :
    takeException m cause epc bd s =
      if cause.isTlb then .error (.panic .tlbException)
      else .ok ((), entered m cause epc bd s) := by
  rw [takeException, Prog.bind_of_ok (copRead32Internal_cause hm s), Prog.bind_of_ok (read_run _ _),
    Prog.bind_of_ok (copWrite32Internal_cause hm _ _),
    Prog.bind_of_ok (copRead32Internal_status hm _), if_pos hm.is64Bit]
  by_cases hexl : s.cop0.sr &&& 2 != 0
  · rw [if_pos hexl, Prog.bind_of_ok (copWrite32Internal_status hm _ _)]
    have hexl' : s.cop0.exl = true := hexl
    cases cause.isTlb <;> simp [setPcDuringInst, entered, enteredCop0, hexl']
  · rw [if_neg hexl]
    have hexl' : s.cop0.exl = false := by simpa [MipsCop0.exl] using hexl
    rw [Prog.bind_of_ok (copWrite64Internal_epc hm _ _),
      Prog.bind_of_ok (copWrite32Internal_status hm _ _)]
    cases cause.isTlb <;> simp [setPcDuringInst, entered, enteredCop0, hexl']

/-- The state after the observer was told. -/
def told (e : Event) (s : MipsBase T δ) : MipsBase T δ := { s with trace := e :: s.trace }

omit [MipsTlbBase T] in
lemma triggerNoDelay_run (hm : m.IsN64) (hexc : m.config.hasException = true)
    (cause : ExceptionCause) (s : MipsBase T δ) :
    triggerNoDelay m cause s =
      if cause.isTlb then .error (.panic .tlbException)
      else .ok ((), entered m cause s.pc false (told (.exception cause) s)) := by
  rw [triggerNoDelay, if_pos hexc]
  exact takeException_run hm cause s.pc false _

/-- Without exceptions nothing happens. -/
lemma triggerException_off (hexc : m.config.hasException = false) (cause : ExceptionCause)
    (s : MipsBase T δ) : triggerException m cause s = .ok ((), s) := by
  rw [triggerException, if_neg (by simp [hexc])]
  rfl

/-- With no branch pending, the exception program counter is the program counter. -/
lemma triggerException_run (hm : m.IsN64) (hexc : m.config.hasException = true)
    (cause : ExceptionCause) {s : MipsBase T δ} (hbd : s.hasBranchDelay = false) :
    triggerException m cause s =
      if cause.isTlb then .error (.panic .tlbException)
      else .ok ((), entered m cause s.pc false (told (.exception cause) s)) := by
  rw [triggerException, if_pos hexc]
  have hflag : (told (.exception cause) s).hasBranchDelay = false := hbd
  change (if (told (.exception cause) s).hasBranchDelay then _ else _ : CpuM T δ Unit) _ = _
  rw [hflag, if_neg (by simp)]
  exact takeException_run hm cause s.pc false _

/-! ## Fetching -/

/-- The state after a fetch of a translated address. -/
def fetched (m : MipsSetup δ) (address : BitVec 64) (s : MipsBase T δ) : MipsBase T δ :=
  { s with device := (m.bus.fetch s.device (translateAddress s.tlb address).address).2 }

/-- The word a fetch of a translated address reads. -/
def wordAt (m : MipsSetup δ) (address : BitVec 64) (s : MipsBase T δ) : BitVec 32 :=
  m.bus.word s.device (translateAddress s.tlb address).address

/-- The state after a translation fault was noted, before the exception is raised. -/
def faulted (address : BitVec 64) (s : MipsBase T δ) : MipsBase T δ :=
  { s with
    cop0 := { s.cop0 with badvaddr := address }
    tlb := informTlbException s.tlb address }

lemma fetchWith_found (trigger : ExceptionCause → CpuM T δ Unit) {address : BitVec 64}
    {s : MipsBase T δ} (h : (translateAddress s.tlb address).found = true) :
    fetchWith m trigger address s = .ok (wordAt m address s, fetched m address s) := by
  rw [fetchWith, Prog.bind_of_ok (read_run _ _), if_pos h]
  rfl

lemma fetched_of_pure (hpure : m.bus.FetchPure) (address : BitVec 64) (s : MipsBase T δ) :
    fetched m address s = s := by
  rw [fetched, hpure]

/-- A fault ends in the program `trigger`. -/
lemma translationFault_run (hm : m.IsN64) (trigger : ExceptionCause → CpuM T δ Unit)
    (cause : ExceptionCause) (address : BitVec 64) (s : MipsBase T δ) :
    translationFault m trigger cause address s = trigger cause (faulted address s) := by
  rw [translationFault, Prog.bind_of_ok (copWrite64Internal_badvaddr hm _ _),
    Prog.bind_of_ok (Prog.modify_run _ _)]
  rfl

lemma fetchWith_fault (hm : m.IsN64) (trigger : ExceptionCause → CpuM T δ Unit)
    {address : BitVec 64} {s : MipsBase T δ}
    (h : (translateAddress s.tlb address).found = false) :
    fetchWith m trigger address s =
      (trigger .kTlbMissLoad (faulted address s)).map fun r => (0, r.2) := by
  rw [fetchWith, Prog.bind_of_ok (read_run _ _), if_neg (by simp [h]), Prog.bind_run,
    translationFault_run hm]
  rfl

/-- The state after the observer was told and the pending branch was given up. -/
def givenUp (cause : ExceptionCause) (s : MipsBase T δ) : MipsBase T δ :=
  { told (.exception cause) s with hasBranchDelay := false }

/-- With a branch pending, the branch is fetched first. -/
lemma triggerException_fetch (hexc : m.config.hasException = true) (cause : ExceptionCause)
    {s : MipsBase T δ} (hbd : s.hasBranchDelay = true) :
    triggerException m cause s = (do
      let opcode ← fetchWith m (triggerNoDelay m) (s.pc - 4)
      if doesInstHaveDelaySlot opcode then takeException m cause (s.pc - 4) true
      else throw (.panic .nonBranchOnBd) : CpuM T δ Unit) (givenUp cause s) := by
  rw [triggerException, if_pos hexc]
  have hflag : (told (.exception cause) s).hasBranchDelay = true := hbd
  change (if (told (.exception cause) s).hasBranchDelay then _ else _ : CpuM T δ Unit) _ = _
  rw [if_pos hflag, Prog.bind_of_ok (Prog.modify_run _ _)]
  rfl

/-- With a branch pending, the exception is taken at the branch. -/
lemma triggerException_pending (hm : m.IsN64) (hexc : m.config.hasException = true)
    (cause : ExceptionCause) {s : MipsBase T δ} (hbd : s.hasBranchDelay = true)
    (hfound : (translateAddress s.tlb (s.pc - 4)).found = true) :
    triggerException m cause s =
      if doesInstHaveDelaySlot (wordAt m (s.pc - 4) s) then
        if cause.isTlb then .error (.panic .tlbException)
        else .ok ((), entered m cause (s.pc - 4) true
          (fetched m (s.pc - 4) (givenUp cause s)))
      else .error (.panic .nonBranchOnBd) := by
  have hfetch : fetchWith m (triggerNoDelay m) (s.pc - 4) (givenUp cause s) =
      .ok (wordAt m (s.pc - 4) s, fetched m (s.pc - 4) (givenUp cause s)) :=
    fetchWith_found _ hfound
  rw [triggerException_fetch hexc cause hbd, Prog.bind_of_ok hfetch]
  split
  · exact takeException_run hm cause (s.pc - 4) true _
  · rfl

/-- With a branch pending that cannot be fetched, the exception ends in a `PANIC`. -/
lemma triggerException_lost (hm : m.IsN64) (hexc : m.config.hasException = true)
    (cause : ExceptionCause) {s : MipsBase T δ} (hbd : s.hasBranchDelay = true)
    (hfound : (translateAddress s.tlb (s.pc - 4)).found = false) :
    triggerException m cause s = .error (.panic .tlbException) := by
  have hfetch : fetchWith m (triggerNoDelay m) (s.pc - 4) (givenUp cause s) =
      .error (.panic .tlbException) := by
    have hfound' : (translateAddress (givenUp cause s).tlb (s.pc - 4)).found = false := hfound
    rw [fetchWith_fault hm _ hfound', triggerNoDelay_run hm hexc]
    rfl
  rw [triggerException_fetch hexc cause hbd]
  exact Prog.bind_error.mpr (.inl hfetch)

/-- A fault of the translation unit ends in a `PANIC`, which is not the one of the cached
interpreter. -/
lemma triggerException_tlb (hm : m.IsN64) (hexc : m.config.hasException = true)
    {cause : ExceptionCause} (hcause : cause.isTlb = true) (s : MipsBase T δ) :
    ∃ e, e ≠ .panic .blockCreationFailed ∧ triggerException m cause s = .error e := by
  cases hbd : s.hasBranchDelay with
  | false =>
      refine ⟨.panic .tlbException, by decide, ?_⟩
      rw [triggerException_run hm hexc cause hbd, if_pos hcause]
  | true =>
      cases hfound : (translateAddress s.tlb (s.pc - 4)).found with
      | false =>
          exact ⟨.panic .tlbException, by decide, triggerException_lost hm hexc cause hbd hfound⟩
      | true =>
          rw [triggerException_pending hm hexc cause hbd hfound, if_pos hcause]
          split
          · exact ⟨.panic .tlbException, by decide, rfl⟩
          · exact ⟨.panic .nonBranchOnBd, by decide, rfl⟩

/-- The outcomes of an exception that does not end in a `PANIC`. -/
inductive ExceptionOutcome (m : MipsSetup δ) (cause : ExceptionCause) (s : MipsBase T δ) :
    MipsBase T δ → Prop
  /-- The processor has no exceptions. -/
  | off (h : m.config.hasException = false) : ExceptionOutcome m cause s s
  /-- No branch was pending. -/
  | plain (hexc : m.config.hasException = true) (htlb : cause.isTlb = false)
      (hbd : s.hasBranchDelay = false) :
      ExceptionOutcome m cause s (entered m cause s.pc false (told (.exception cause) s))
  /-- A branch was pending, and is there to be executed again. -/
  | delayed (hexc : m.config.hasException = true) (htlb : cause.isTlb = false)
      (hbd : s.hasBranchDelay = true)
      (hfound : (translateAddress s.tlb (s.pc - 4)).found = true)
      (hslot : doesInstHaveDelaySlot (wordAt m (s.pc - 4) s) = true) :
      ExceptionOutcome m cause s
        (entered m cause (s.pc - 4) true (fetched m (s.pc - 4) (givenUp cause s)))

lemma triggerException_outcome (hm : m.IsN64) {cause : ExceptionCause} {s s' : MipsBase T δ}
    (h : triggerException m cause s = .ok ((), s')) : ExceptionOutcome m cause s s' := by
  cases hexc : m.config.hasException with
  | false =>
      rw [triggerException_off hexc] at h
      rw [← Prog.state_eq h]
      exact .off hexc
  | true =>
      have htlb : cause.isTlb = false := by
        by_contra hcause
        obtain ⟨e, -, he⟩ := triggerException_tlb hm hexc (by simpa using hcause) s
        exact absurd (h.symm.trans he) (by simp)
      cases hbd : s.hasBranchDelay with
      | false =>
          rw [triggerException_run hm hexc cause hbd, if_neg (by simp [htlb])] at h
          rw [← Prog.state_eq h]
          exact .plain hexc htlb hbd
      | true =>
          cases hfound : (translateAddress s.tlb (s.pc - 4)).found with
          | false =>
              have hlost := triggerException_lost hm hexc cause hbd hfound
              exact absurd (h.symm.trans hlost) (by simp)
          | true =>
              rw [triggerException_pending hm hexc cause hbd hfound, htlb] at h
              cases hslot : doesInstHaveDelaySlot (wordAt m (s.pc - 4) s) with
              | false =>
                  rw [hslot] at h
                  exact absurd h (by simp)
              | true =>
                  rw [if_pos hslot, if_neg (by simp)] at h
                  rw [← Prog.state_eq h]
                  exact .delayed hexc htlb hbd hfound hslot

/-- After an exception no branch is pending, unless there are no exceptions. -/
lemma triggerException_flag (hm : m.IsN64) {cause : ExceptionCause} {s s' : MipsBase T δ}
    (h : triggerException m cause s = .ok ((), s')) : s'.hasBranchDelay = false ∨ s' = s := by
  cases triggerException_outcome hm h with
  | off _ => exact .inr rfl
  | plain _ _ hbd => exact .inl hbd
  | delayed _ _ _ _ _ => exact .inl rfl

end MipsBase

end NgMips
