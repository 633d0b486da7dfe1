import NgMips.Proofs.Exception

/-!
# Looking for interrupts

When an interrupt is taken (`InterruptReady`), and what a round of polling does: it leaves
the program counter and the devices alone, or it enters the general vector.
-/

namespace NgMips

namespace MipsCop0

/-- A check looks at the registers of the timer and changes nothing else. -/
lemma checkCompareInterrupt_cause (cop0 : MipsCop0) (cause : BitVec 32) (t : BitVec 64) :
    ({ cop0 with cause := cause } : MipsCop0).checkCompareInterrupt t =
      ((cop0.checkCompareInterrupt t).1,
        { (cop0.checkCompareInterrupt t).2 with cause := cause }) := by
  simp only [checkCompareInterrupt]
  split
  · rfl
  · split
    · rfl
    · split <;> rfl

/-- A check only notes that it was made. -/
lemma checkCompareInterrupt_state (cop0 : MipsCop0) (t : BitVec 64) :
    ∃ last surpress, (cop0.checkCompareInterrupt t).2 = { cop0 with
      lastCompareCheckTimestamp := last
      surpressCompareInterrupt := surpress } := by
  simp only [checkCompareInterrupt]
  split
  · exact ⟨_, _, rfl⟩
  · split
    · exact ⟨_, _, rfl⟩
    · split <;> exact ⟨_, _, rfl⟩

lemma checkCompareInterrupt_sr (cop0 : MipsCop0) (t : BitVec 64) :
    (cop0.checkCompareInterrupt t).2.sr = cop0.sr := by
  obtain ⟨last, surpress, hstate⟩ := cop0.checkCompareInterrupt_state t
  rw [hstate]

end MipsCop0

lemma interruptPending_congr {cause cause' : BitVec 32}
    (h : (cause >>> 8) &&& (3 : BitVec 32) = (cause' >>> 8) &&& (3 : BitVec 32))
    (interrupt line : Bool) :
    interruptPending cause interrupt line = interruptPending cause' interrupt line := by
  rw [interruptPending, interruptPending, h]

/-- Copying the interrupt lines to `Cause` does not raise one. -/
lemma interruptPending_latched (cause : BitVec 32) (interrupt line line' : Bool) :
    interruptPending ((cause &&& ~~~0xFF00#32) |||
      ((interruptPending cause interrupt line).setWidth 32 <<< 8)) interrupt line' =
        interruptPending cause interrupt line' := by
  refine interruptPending_congr ?_ _ _
  have hmask : ∀ i, i < 32 → ¬ i < 2 → (3 : BitVec 32).getLsbD i = false := by decide
  apply BitVec.eq_of_getLsbD_eq
  intro i hi
  by_cases hlow : i < 2
  · have hcases : i = 0 ∨ i = 1 := by omega
    rcases hcases with rfl | rfl <;> cases interrupt <;> cases line <;> simp [interruptPending]
  · simp only [BitVec.getLsbD_and, hmask i hi hlow, Bool.and_false]

namespace MipsBase

variable {T δ : Type} [MipsTlbBase T] {m : MipsSetup δ}

/-! ## Taking an interrupt -/

/-- An interrupt is enabled and pending: `IE` is set, `EXL` and `ERL` are clear, and an
interrupt line is up that is not masked. -/
def InterruptReady (m : MipsSetup δ) (s : MipsBase T δ) : Prop :=
  s.cop0.sr &&& 7 = 1 ∧ (s.cop0.sr >>> 8).setWidth 8 &&& interruptPending s.cop0.cause
    (m.bus.getInterrupt s.device) s.compareInterrupt ≠ 0

lemma checkInterrupt_ready (hm : m.IsN64) (hexc : m.config.hasException = true)
    {s : MipsBase T δ} (h : InterruptReady m s) :
    checkInterrupt m s = triggerException m .kInt s := by
  rw [checkInterrupt, if_pos (by simp [hexc, hm.hasCop0]),
    Prog.bind_of_ok (copRead32Internal_status hm _),
    Prog.bind_of_ok (copRead32Internal_cause hm _), Prog.bind_of_ok (read_run _ _)]
  exact congrFun (if_pos h) s

omit [MipsTlbBase T] in
/-- What the status bits say when an interrupt is taken. -/
lemma InterruptReady.open {s : MipsBase T δ} (h : InterruptReady m s) :
    s.cop0.exl = false ∧ (s.cop0.sr ||| 2#32) &&& 4#32 = 0#32 ∧
      (s.cop0.sr ||| 2#32) &&& ~~~2#32 = s.cop0.sr := by
  have hbits : s.cop0.sr &&& 7#32 = 1#32 := h.1
  have hexl : s.cop0.sr &&& 2#32 = 0#32 := by
    calc s.cop0.sr &&& 2#32 = s.cop0.sr &&& 7#32 &&& 2#32 := by rw [BitVec.and_assoc]; rfl
      _ = 0#32 := by rw [hbits]; rfl
  have herl : s.cop0.sr &&& 4#32 = 0#32 := by
    calc s.cop0.sr &&& 4#32 = s.cop0.sr &&& 7#32 &&& 4#32 := by rw [BitVec.and_assoc]; rfl
      _ = 0#32 := by rw [hbits]; rfl
  refine ⟨by simp [MipsCop0.exl, hexl], ?_, ?_⟩
  · rw [BitVec.and_comm, BitVec.and_or_distrib_left, BitVec.and_comm _ s.cop0.sr, herl]
    rfl
  · have hsplit : s.cop0.sr = s.cop0.sr &&& 2#32 ||| s.cop0.sr &&& ~~~2#32 := by
      rw [← BitVec.and_or_distrib_left, BitVec.or_not_self, BitVec.and_allOnes]
    have hkeep : s.cop0.sr &&& ~~~2#32 = s.cop0.sr := by
      rw [hexl, BitVec.zero_or] at hsplit
      exact hsplit.symm
    rw [BitVec.and_comm, BitVec.and_or_distrib_left, BitVec.and_comm _ s.cop0.sr, hkeep]
    simp

lemma checkInterrupt_idle (hm : m.IsN64) {s : MipsBase T δ}
    (h : m.config.hasException = true → ¬ InterruptReady m s) :
    checkInterrupt m s = .ok ((), s) := by
  rw [checkInterrupt]
  split
  · next hon =>
      have hexc : m.config.hasException = true := (Bool.and_eq_true _ _ ▸ hon).1
      rw [Prog.bind_of_ok (copRead32Internal_status hm _),
        Prog.bind_of_ok (copRead32Internal_cause hm _), Prog.bind_of_ok (read_run _ _)]
      exact congrFun (if_neg (h hexc)) s
  · rfl

/-- Setting the bit sets the mode. -/
lemma exl_of_or_two {cop0 : MipsCop0} {sr : BitVec 32} (h : cop0.sr = sr ||| 2#32) :
    cop0.exl = true := by
  have hbit : (sr ||| 2#32) &&& 2#32 = 2#32 := by
    ext i hi
    simp only [BitVec.getElem_and, BitVec.getElem_or]
    cases (2#32)[i] <;> simp
  rw [MipsCop0.exl, h]
  simp [hbit]

/-- An interrupt that is taken leads to the vector and closes interrupts. -/
lemma interrupt_taken (hm : m.IsN64) (hexc : m.config.hasException = true)
    {s s' : MipsBase T δ} (hready : InterruptReady m s)
    (h : triggerException m .kInt s = .ok ((), s')) :
    s'.pc = vecAddressGeneral ∧ s'.cop0.exl = true ∧
      (m.bus.FetchPure → s'.device = s.device) := by
  have hexl := hready.open.1
  have hset : ∀ t : MipsBase T δ, t.cop0 = s.cop0 → ∀ epc bd,
      (entered m .kInt epc bd t).cop0.exl = true := by
    intro t ht epc bd
    have hclosed : t.cop0.exl = false := by rw [ht]; exact hexl
    have hsr : (entered m .kInt epc bd t).cop0.sr = t.cop0.sr ||| 2#32 := by
      simp [entered, enteredCop0, hclosed]
    exact exl_of_or_two hsr
  cases triggerException_outcome hm h with
  | off hoff => exact absurd (hoff.symm.trans hexc) (by simp)
  | plain _ _ _ => exact ⟨rfl, hset (told (.exception .kInt) s) rfl _ _, fun _ => rfl⟩
  | delayed _ _ _ _ _ =>
      refine ⟨rfl, hset (fetched m (s.pc - 4) (givenUp .kInt s)) rfl _ _, fun hpure => ?_⟩
      rw [fetched_of_pure hpure]
      rfl

/-! ## The timer -/

/-- The interrupt lines are copied to `Cause`. -/
def latched (m : MipsSetup δ) (s : MipsBase T δ) : MipsBase T δ :=
  { s with cop0 := { s.cop0 with
    cause := (s.cop0.cause &&& ~~~0xFF00#32) |||
      ((interruptPending s.cop0.cause (m.bus.getInterrupt s.device) s.compareInterrupt).setWidth 32
        <<< 8) } }

/-- The timer is checked. -/
def checked (m : MipsSetup δ) (s : MipsBase T δ) : MipsBase T δ :=
  { latched m s with cop0 := ((latched m s).cop0.checkCompareInterrupt s.timestamp).2 }

lemma checkCompare_run (hm : m.IsN64) (hiso : m.config.hasIsolateCacheBit = false)
    (s : MipsBase T δ) :
    checkCompare m s =
      if (s.cop0.checkCompareInterrupt s.timestamp).1 then
        checkInterrupt m { checked m s with compareInterrupt := true }
      else .ok ((), checked m s) := by
  rw [checkCompare, if_pos (by simp [hm.hasCop0, hiso]),
    Prog.bind_of_ok (copRead32Internal_cause hm s), Prog.bind_of_ok (read_run _ s),
    Prog.bind_of_ok (copWrite32Internal_cause hm _ s)]
  change (copRead32Internal m 128 >>= _ : CpuM T δ Unit) (latched m s) = _
  rw [Prog.bind_of_ok (copRead32Internal_compare hm _)]
  have hfst : ((latched m s).cop0.checkCompareInterrupt (latched m s).timestamp).1 =
      (s.cop0.checkCompareInterrupt s.timestamp).1 := by
    rw [latched, MipsCop0.checkCompareInterrupt_cause]
    rfl
  rw [hfst]
  cases (s.cop0.checkCompareInterrupt s.timestamp).1 <;> rfl

/-- With the isolate-cache bit the timer is never checked. -/
lemma checkCompare_isolated (hiso : m.config.hasIsolateCacheBit = true) (s : MipsBase T δ) :
    checkCompare m s = .ok ((), s) := by
  rw [checkCompare, if_neg (by simp [hiso])]
  rfl

/-! ## A round of polling -/

/-- The state with the timer interrupt up. -/
def withTimer (s : MipsBase T δ) : MipsBase T δ := { s with compareInterrupt := true }

/-- A poll takes an interrupt: it is due, and an interrupt is ready, or is when the timer has
run out. -/
def PollInterrupts (m : MipsSetup δ) (s : MipsBase T δ) : Prop :=
  m.config.hasException = true ∧ kInterruptCheckInterval ≤ s.interruptPollCounter + 1 ∧
    (InterruptReady m s ∨ (m.config.hasIsolateCacheBit = false ∧
      (s.cop0.checkCompareInterrupt s.timestamp).1 = true ∧ InterruptReady m (withTimer s)))

omit [MipsTlbBase T] in
lemma interruptReady_checked (s : MipsBase T δ) :
    InterruptReady m { checked m s with compareInterrupt := true } ↔
      InterruptReady m (withTimer s) := by
  have hsr : (checked m s).cop0.sr = s.cop0.sr := by
    rw [checked]
    exact MipsCop0.checkCompareInterrupt_sr _ _
  have hpending : interruptPending (checked m s).cop0.cause (m.bus.getInterrupt s.device) true =
      interruptPending s.cop0.cause (m.bus.getInterrupt s.device) true := by
    rw [checked, latched, MipsCop0.checkCompareInterrupt_cause]
    exact interruptPending_latched _ _ _ _
  simp only [InterruptReady, withTimer, hsr]
  change _ ∧ _ &&& interruptPending (checked m s).cop0.cause (m.bus.getInterrupt s.device) true ≠ 0
    ↔ _
  rw [hpending]

variable (m) in
/-- What a look at the interrupt lines does. -/
inductive InterruptCase (s s' : MipsBase T δ) : Prop
  | idle (hno : m.config.hasException = true → ¬ InterruptReady m s) (hstate : s' = s)
  | taken (hexc : m.config.hasException = true) (hready : InterruptReady m s)
      (htrigger : triggerException m .kInt s = .ok ((), s'))

lemma checkInterrupt_cases (hm : m.IsN64) {s s' : MipsBase T δ}
    (h : checkInterrupt m s = .ok ((), s')) : InterruptCase m s s' := by
  by_cases htake : m.config.hasException = true ∧ InterruptReady m s
  · rw [checkInterrupt_ready hm htake.1 htake.2] at h
    exact .taken htake.1 htake.2 h
  · have hno : m.config.hasException = true → ¬ InterruptReady m s :=
      fun hexc hready => htake ⟨hexc, hready⟩
    rw [checkInterrupt_idle hm hno] at h
    exact .idle hno (Prog.state_eq h).symm

variable (m) in
/-- What a look at the timer does: nothing at all with the isolate-cache bit, and otherwise
`Count` has reached `Compare` or not, and the interrupt is taken at once or not. -/
inductive CompareCase (s s' : MipsBase T δ) : Prop
  | isolated (hiso : m.config.hasIsolateCacheBit = true) (hstate : s' = s)
  | before (hiso : m.config.hasIsolateCacheBit = false)
      (hcrossed : (s.cop0.checkCompareInterrupt s.timestamp).1 = false) (hstate : s' = checked m s)
  | idle (hiso : m.config.hasIsolateCacheBit = false)
      (hcrossed : (s.cop0.checkCompareInterrupt s.timestamp).1 = true)
      (hno : m.config.hasException = true → ¬ InterruptReady m (withTimer s))
      (hstate : s' = { checked m s with compareInterrupt := true })
  | taken (hiso : m.config.hasIsolateCacheBit = false)
      (hcrossed : (s.cop0.checkCompareInterrupt s.timestamp).1 = true)
      (hexc : m.config.hasException = true) (hready : InterruptReady m (withTimer s))
      (htrigger : triggerException m .kInt { checked m s with compareInterrupt := true } =
        .ok ((), s'))

lemma checkCompare_cases (hm : m.IsN64) {s s' : MipsBase T δ}
    (h : checkCompare m s = .ok ((), s')) : CompareCase m s s' := by
  cases hiso : m.config.hasIsolateCacheBit with
  | true =>
      rw [checkCompare_isolated hiso] at h
      exact .isolated hiso (Prog.state_eq h).symm
  | false =>
      rw [checkCompare_run hm hiso] at h
      cases hcrossed : (s.cop0.checkCompareInterrupt s.timestamp).1 with
      | false =>
          rw [hcrossed, if_neg (by simp)] at h
          exact .before hiso hcrossed (Prog.state_eq h).symm
      | true =>
          rw [hcrossed, if_pos rfl] at h
          cases checkInterrupt_cases hm h with
          | idle hno hstate =>
              exact .idle hiso hcrossed
                (fun hexc hready => hno hexc ((interruptReady_checked s).mpr hready)) hstate
          | taken hexc hready htrigger =>
              exact .taken hiso hcrossed hexc ((interruptReady_checked s).mp hready) htrigger

/-- `checkCompare` leaves the program alone, or takes the timer interrupt. -/
lemma checkCompare_outcome (hm : m.IsN64) {s s' : MipsBase T δ}
    (h : checkCompare m s = .ok ((), s')) :
    (m.config.hasException = true ∧ m.config.hasIsolateCacheBit = false ∧
        (s.cop0.checkCompareInterrupt s.timestamp).1 = true ∧ InterruptReady m (withTimer s) ∧
        s'.pc = vecAddressGeneral ∧ (m.bus.FetchPure → s'.device = s.device)) ∨
      ((m.config.hasException = true → ¬ (m.config.hasIsolateCacheBit = false ∧
          (s.cop0.checkCompareInterrupt s.timestamp).1 = true ∧ InterruptReady m (withTimer s))) ∧
        s'.pc = s.pc ∧ s'.device = s.device) := by
  cases checkCompare_cases hm h with
  | isolated hiso hstate =>
      rw [hstate]
      exact .inr ⟨fun _ hcon => absurd (hiso.symm.trans hcon.1) (by simp), rfl, rfl⟩
  | before _ hcrossed hstate =>
      rw [hstate]
      exact .inr ⟨fun _ hcon => absurd (hcrossed.symm.trans hcon.2.1) (by simp), rfl, rfl⟩
  | idle _ _ hno hstate =>
      rw [hstate]
      exact .inr ⟨fun hexc hcon => hno hexc hcon.2.2, rfl, rfl⟩
  | taken hiso hcrossed hexc hready htrigger =>
      obtain ⟨hpc, -, hdevice⟩ := interrupt_taken hm hexc
        ((interruptReady_checked s).mpr hready) htrigger
      exact .inl ⟨hexc, hiso, hcrossed, hready, hpc, hdevice⟩

omit [MipsTlbBase T] in
/-- With interrupts closed none is taken. -/
lemma not_ready_of_exl {s : MipsBase T δ} (h : s.cop0.exl = true) : ¬ InterruptReady m s :=
  fun hready => absurd (hready.open.1.symm.trans h) (by simp)

/-- The state in which a poll that is due looks for interrupts. -/
def polling (s : MipsBase T δ) : MipsBase T δ := { s with interruptPollCounter := 0 }

variable (m) in
/-- What a poll does: it counts, or it looks for interrupts. -/
inductive PollCase (s s' : MipsBase T δ) : Prop
  | counts (hearly : s.interruptPollCounter + 1 < kInterruptCheckInterval)
      (hstate : s' = { s with interruptPollCounter := s.interruptPollCounter + 1 })
  | looks (hdue : kInterruptCheckInterval ≤ s.interruptPollCounter + 1) (t : MipsBase T δ)
      (hcheck : checkInterrupt m (polling s) = .ok ((), t))
      (hcompare : checkCompare m t = .ok ((), s'))

lemma poll_cases (hm : m.IsN64) {s s' : MipsBase T δ} (h : poll m s = .ok ((), s')) :
    PollCase m s s' := by
  rw [poll, if_pos hm.hasCop0, Prog.bind_of_ok (Prog.modify_run _ _),
    Prog.bind_of_ok (read_run _ _)] at h
  split at h
  · next hdue =>
      rw [Prog.bind_of_ok (Prog.modify_run _ _)] at h
      obtain ⟨⟨⟩, t, hcheck, hcompare⟩ := Prog.bind_ok.mp h
      exact .looks hdue t hcheck hcompare
  · next hdue => exact .counts (Nat.not_le.mp hdue) (Prog.state_eq h).symm

/-- A poll enters the vector when it takes an interrupt, and leaves the program alone when it
does not. -/
lemma poll_outcome (hm : m.IsN64) {s s' : MipsBase T δ} (h : poll m s = .ok ((), s')) :
    (PollInterrupts m s ∧ s'.pc = vecAddressGeneral ∧ (m.bus.FetchPure → s'.device = s.device)) ∨
      (¬ PollInterrupts m s ∧ s'.pc = s.pc ∧ s'.device = s.device) := by
  cases poll_cases hm h with
  | counts hearly hstate =>
      rw [hstate]
      exact .inr ⟨fun hpoll => absurd hpoll.2.1 (Nat.not_le.mpr hearly), rfl, rfl⟩
  | looks hdue t hcheck hcompare =>
      cases checkInterrupt_cases hm hcheck with
      | taken hexc hready htrigger =>
          obtain ⟨hpc, hexl, hdevice⟩ := interrupt_taken hm hexc hready htrigger
          refine .inl ⟨⟨hexc, hdue, .inl hready⟩, ?_⟩
          rcases checkCompare_outcome hm hcompare with ⟨-, -, -, hready', -⟩ | ⟨-, hpc', hdevice'⟩
          · -- The first interrupt keeps the timer from being a second one.
            exact absurd hready' (not_ready_of_exl hexl)
          · refine ⟨hpc'.trans hpc, fun hpure => ?_⟩
            exact hdevice'.trans (hdevice hpure)
      | idle hidle hstate =>
          have hcompare' := checkCompare_outcome hm hcompare
          rw [hstate] at hcompare'
          rcases hcompare' with ⟨hexc, hiso, hcrossed, hready, hpc, hdevice⟩ | ⟨hno, hpc, hdevice⟩
          · exact .inl ⟨⟨hexc, hdue, .inr ⟨hiso, hcrossed, hready⟩⟩, hpc, hdevice⟩
          · refine .inr ⟨?_, hpc, hdevice⟩
            rintro ⟨hexc, -, hready | hcross⟩
            · exact hidle hexc hready
            · exact hno hexc hcross

end MipsBase

end NgMips
