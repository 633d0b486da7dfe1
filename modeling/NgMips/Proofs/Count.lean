import NgMips.Proofs.Cop0Regs
import NgMips.Proofs.Timer

/-!
# Count as a counter

`Count` is not stored: it is the time since `countStartTimestamp`.  `checkCompareInterrupt_eq_loop`
says that the check for `Compare` in closed form is the loop it replaced, and `countReads_iff`
that a `Count` that was written goes on from there, unless more was written than the time
that has passed since the reset: then it starts at 0.
-/

namespace NgMips

namespace MipsCop0

/-! ## The loop -/

/-- The loop of the source: count up `delta` times and stop at `compare`. -/
def countLoop (compare : BitVec 32) : ℕ → BitVec 32 → Bool
  | 0, _ => false
  | delta + 1, count =>
      let count := count + 1
      if count = compare then true else countLoop compare delta count

/-- `CheckCompareInterrupt` with the loop. -/
def checkCompareInterruptByLoop (cop0 : MipsCop0) (timestamp : BitVec 64) : Bool × MipsCop0 :=
  if cop0.surpressCompareInterrupt then
    (false, { cop0 with
      surpressCompareInterrupt := false
      lastCompareCheckTimestamp := timestamp })
  else if timestamp < cop0.lastCompareCheckTimestamp then
    (false, { cop0 with lastCompareCheckTimestamp := timestamp })
  else
    let delta := timestamp - cop0.lastCompareCheckTimestamp
    if delta = 0 then (false, cop0)
    else
      let count := (cop0.lastCompareCheckTimestamp - cop0.countStartTimestamp).setWidth 32
      (countLoop cop0.compare delta.toNat count,
        { cop0 with lastCompareCheckTimestamp := timestamp })

/-- The loop finds `compare` when one of its steps leads there. -/
lemma countLoop_iff (compare : BitVec 32) (delta : ℕ) (count : BitVec 32) :
    countLoop compare delta count = true ↔
      ∃ i, 1 ≤ i ∧ i ≤ delta ∧ count + BitVec.ofNat 32 i = compare := by
  induction delta generalizing count with
  | zero =>
      refine ⟨fun h => absurd h (by simp [countLoop]), ?_⟩
      rintro ⟨i, hi, hle, -⟩
      omega
  | succ delta ih =>
      have hstep : ∀ i, count + 1 + BitVec.ofNat 32 i = count + BitVec.ofNat 32 (i + 1) := by
        intro i
        rw [BitVec.ofNat_add]
        grind
      rw [countLoop]
      by_cases hmet : count + 1 = compare
      · rw [if_pos hmet]
        exact iff_of_true rfl ⟨1, le_refl 1, by omega, hmet⟩
      · rw [if_neg hmet, ih]
        constructor
        · rintro ⟨i, hi, hle, hcount⟩
          exact ⟨i + 1, by omega, by omega, (hstep i).symm.trans hcount⟩
        · rintro ⟨i, hi, hle, hcount⟩
          have hne : i ≠ 1 := by
            rintro rfl
            exact hmet hcount
          obtain ⟨j, rfl⟩ : ∃ j, i = j + 1 := ⟨i - 1, by omega⟩
          exact ⟨j, by omega, by omega, (hstep j).trans hcount⟩

/-- The unsigned comparison tells whether counting from the last check to now meets `Compare`, and
so the check with the comparison is the check with the loop. -/
theorem checkCompareInterrupt_eq_loop (cop0 : MipsCop0) (timestamp : BitVec 64)
    (hsurpress : cop0.surpressCompareInterrupt = false)
    (hlater : cop0.lastCompareCheckTimestamp.toNat + 1 ≤ timestamp.toNat)
    (hround : timestamp.toNat ≤ cop0.lastCompareCheckTimestamp.toNat + 2 ^ 32) :
    (cop0.compare - (cop0.lastCompareCheckTimestamp - cop0.countStartTimestamp).setWidth 32 - 1 ≤
        (timestamp - cop0.countStartTimestamp).setWidth 32 -
          (cop0.lastCompareCheckTimestamp - cop0.countStartTimestamp).setWidth 32 - 1 ↔
      ∃ i, 1 ≤ i ∧ i ≤ timestamp.toNat - cop0.lastCompareCheckTimestamp.toNat ∧
        (cop0.lastCompareCheckTimestamp - cop0.countStartTimestamp).setWidth 32 +
          BitVec.ofNat 32 i = cop0.compare) ∧
      cop0.checkCompareInterrupt timestamp = cop0.checkCompareInterruptByLoop timestamp := by
  have hle : cop0.lastCompareCheckTimestamp ≤ timestamp := by
    rw [BitVec.le_def]
    omega
  have hdelta : (timestamp - cop0.lastCompareCheckTimestamp).toNat =
      timestamp.toNat - cop0.lastCompareCheckTimestamp.toNat := BitVec.toNat_sub_of_le hle
  have hne : ¬ timestamp - cop0.lastCompareCheckTimestamp = 0 := by
    intro hzero
    have hnat : (timestamp - cop0.lastCompareCheckTimestamp).toNat = 0 := by rw [hzero]; rfl
    omega
  have hclosed : cop0.checkCompareInterrupt timestamp =
      (decide (cop0.compare -
          (cop0.lastCompareCheckTimestamp - cop0.countStartTimestamp).setWidth 32 - 1 ≤
        (timestamp - cop0.countStartTimestamp).setWidth 32 -
          (cop0.lastCompareCheckTimestamp - cop0.countStartTimestamp).setWidth 32 - 1),
        { cop0 with lastCompareCheckTimestamp := timestamp }) := by
    rw [checkCompareInterrupt, if_neg (by simp [hsurpress]), if_neg (BitVec.not_lt.mpr hle),
      if_neg hne]
  have hloop : cop0.checkCompareInterruptByLoop timestamp =
      (countLoop cop0.compare (timestamp - cop0.lastCompareCheckTimestamp).toNat
          ((cop0.lastCompareCheckTimestamp - cop0.countStartTimestamp).setWidth 32),
        { cop0 with lastCompareCheckTimestamp := timestamp }) := by
    rw [checkCompareInterruptByLoop, if_neg (by simp [hsurpress]), if_neg (BitVec.not_lt.mpr hle)]
    exact if_neg hne
  rw [hclosed, hloop, hdelta]
  generalize hstart :
    (cop0.lastCompareCheckTimestamp - cop0.countStartTimestamp).setWidth 32 = count
  have hdiff : (timestamp - cop0.countStartTimestamp).setWidth 32 - count =
      BitVec.ofNat 32 (timestamp.toNat - cop0.lastCompareCheckTimestamp.toNat) := by
    rw [← hdelta, BitVec.ofNat_toNat, setWidth_sub_eq _ cop0.lastCompareCheckTimestamp, hstart,
      add_sub_cancel_left]
  have hcrossed := crossed_iff_steps (v := cop0.compare) (c := count)
    (d := timestamp.toNat - cop0.lastCompareCheckTimestamp.toNat) (by omega) (by omega)
  rw [hdiff]
  refine ⟨hcrossed, Prod.ext (Bool.eq_iff_iff.mpr ?_) rfl⟩
  rw [decide_eq_true_iff, hcrossed, countLoop_iff]

/-- `Count` started after the last check, and wraps before it is `Compare`. -/
def wrappingTimer : MipsCop0 where
  compare := 1
  countStartTimestamp := 10
  lastCompareCheckTimestamp := 8

theorem wrappingTimer_eq_loop :
    wrappingTimer.checkCompareInterrupt 11 = wrappingTimer.checkCompareInterruptByLoop 11 :=
  (checkCompareInterrupt_eq_loop wrappingTimer 11 rfl (by decide) (by decide)).2

/-! ## Reading and writing -/

/-- After a write, `Count` is derived from a time that is not in the future. -/
lemma writeCount_start (cop0 : MipsCop0) (t : BitVec 64) (v : BitVec 32) :
    (cop0.writeCount t v).countStartTimestamp =
      if t < v.setWidth 64 then t else t - v.setWidth 64 := by
  rw [writeCount]
  split <;> rfl

lemma writeCount_start_le (cop0 : MipsCop0) (t : BitVec 64) (v : BitVec 32) :
    (cop0.writeCount t v).countStartTimestamp ≤ t := by
  rw [writeCount_start]
  split
  · exact BitVec.le_refl t
  · next hle =>
    have hle' : v.setWidth 64 ≤ t := BitVec.not_lt.mp hle
    rw [BitVec.le_def, BitVec.toNat_sub_of_le hle']
    exact Nat.sub_le _ _

lemma getCount_of_le {cop0 : MipsCop0} {t : BitVec 64} (h : cop0.countStartTimestamp ≤ t) :
    cop0.getCount t = ((t - cop0.countStartTimestamp).setWidth 32, cop0) := by
  rw [getCount, if_neg (BitVec.not_lt.mpr h)]

/-- A later count is what was written and the time since, unless more was written than the time
shows. -/
lemma count_after_write_iff (cop0 : MipsCop0) (t t' : BitVec 64) (v : BitVec 32) :
    (t' - (cop0.writeCount t v).countStartTimestamp).setWidth 32 = v + (t' - t).setWidth 32 ↔
      v.toNat ≤ t.toNat := by
  have hwidth : (v.setWidth 64).toNat = v.toNat := BitVec.toNat_setWidth_of_le (by decide)
  have hlow : (v.setWidth 64).setWidth 32 = v := by
    rw [BitVec.setWidth_setWidth_of_le _ (by decide), BitVec.setWidth_eq]
  rw [writeCount_start]
  split
  · next hlt =>
    rw [BitVec.lt_def, hwidth] at hlt
    refine ⟨fun h => ?_, fun h => absurd hlt (by omega)⟩
    have hzero : v = 0 := by grind
    rw [hzero]
    exact Nat.zero_le _
  · next hle =>
    rw [BitVec.lt_def, hwidth] at hle
    refine iff_of_true ?_ (by omega)
    have hsplit : t' - (t - v.setWidth 64) = v.setWidth 64 + (t' - t) := by grind
    rw [hsplit, BitVec.setWidth_add _ _ (by decide), hlow]

end MipsCop0

namespace MipsBase

variable {T δ : Type} [MipsTlbBase T] {m : MipsSetup δ} {opcode : BitVec 32} {func : MipsInstId}

/-! ## Runs without a write to Count -/

variable (m) in
/-- What may happen while `Count` is not written: other instructions, checks for interrupts, and
whatever is no business of coprocessor 0, such as time that passes. -/
inductive CountStep (s s' : MipsBase T δ) : Prop
  | inst {opcode : BitVec 32} (hother : writesReg m 9 opcode = false)
      (h : execute m opcode (getInstFuncPtr m.kIs64Bit opcode) s = .ok ((), s'))
  | checkCompare (h : checkCompare m s = .ok ((), s'))
  | checkInterrupt (h : checkInterrupt m s = .ok ((), s'))
  | other (h : s'.cop0 = s.cop0)

variable (m) in
/-- A run of such steps, in which time does not go backwards. -/
inductive CountRun (s : MipsBase T δ) : MipsBase T δ → Prop
  | refl : CountRun s s
  | step {t u : MipsBase T δ} (hrun : CountRun s t) (hstep : CountStep m t u)
      (htime : t.timestamp ≤ u.timestamp) : CountRun s u

/-- The start of `Count` is kept if it is not in the future, and so is the time. -/
def StartKept (func : MipsInstId) (s s' : MipsBase T δ) : Prop :=
  (func.skipsIdle = false → s.cop0.countStartTimestamp ≤ s.timestamp) →
    s'.cop0.countStartTimestamp = s.cop0.countStartTimestamp ∧
      (func.skipsIdle = false → s'.timestamp = s.timestamp)

omit [MipsTlbBase T] in
lemma StartKept.trans {s t u : MipsBase T δ} (h : StartKept func s t) (h' : StartKept func t u) :
    StartKept func s u := by
  intro hstart
  obtain ⟨hst, htime⟩ := h hstart
  obtain ⟨htu, htime'⟩ := h' fun hidle => by
    rw [hst, htime hidle]
    exact hstart hidle
  exact ⟨htu.trans hst, fun hidle => (htime' hidle).trans (htime hidle)⟩

lemma cop0Write_start {context value : BitVec 64} {idx : ℕ} (hidx : idx ≠ 9) {s s' : MipsBase T δ}
    (h : cop0Write context idx value s = .ok ((), s')) :
    s'.cop0.countStartTimestamp = s.cop0.countStartTimestamp ∧ s'.timestamp = s.timestamp := by
  rw [cop0Write.eq_def] at h
  split at h
  case h_8 => exact absurd rfl hidx
  all_goals
    rw [← Prog.state_eq h]
    exact ⟨rfl, rfl⟩

/-- Only a write to `Count` moves its start. -/
lemma startKept_step (hother : copId opcode = 0#2 → isCopCommand m opcode func = false →
    func.copWriteIdx opcode ≠ some 9) (s s' : MipsBase T δ) (h : RegStep m opcode func s s') :
    StartKept func s s' := by
  intro hstart
  cases h with
  | keeps hkept => exact ⟨by rw [hkept.cop0], hkept.timestamp⟩
  | reads hidx hcop0 _ htime =>
      have hidle : func.skipsIdle = false := by
        cases func <;> first | rfl | exact absurd hidx (by simp [MipsInstId.copReadIdx])
      rw [hcop0, MipsCop0.getCount_of_le (hstart hidle)]
      exact ⟨rfl, fun _ => htime⟩
  | writes hcop hcommand hidx hwrite =>
      obtain ⟨hsame, htime⟩ := cop0Write_start
        (fun hnine => hother hcop hcommand (hnine ▸ hidx)) hwrite
      exact ⟨hsame, fun _ => htime⟩
  | returns _ _ _ hcop0 _ htime => exact ⟨by rw [hcop0], fun _ => htime⟩

omit [MipsTlbBase T] in
lemma exception_start [MipsTlbBase T] {cause : ExceptionCause} {s s' : MipsBase T δ}
    (h : ExceptionOutcome m cause s s') :
    s'.cop0.countStartTimestamp = s.cop0.countStartTimestamp := by
  cases h <;> rfl

lemma countStep_start (hm : m.IsN64) {s s' : MipsBase T δ} (h : CountStep m s s')
    (hstart : s.cop0.countStartTimestamp ≤ s.timestamp) :
    s'.cop0.countStartTimestamp = s.cop0.countStartTimestamp := by
  cases h with
  | @inst opcode hother hrun =>
      rw [execute_run] at hrun
      rcases callInst_cases hm hrun with ⟨cause, t, -, hreport, htrigger⟩ | ⟨x, hx, hact⟩
      · rw [exception_start (triggerException_outcome hm htrigger)]
        cases hreport <;> rfl
      · rw [hm.is64Bit] at hx
        have hkept := act_regs (startKept_step (copWriteIdx_ne hother)) hm
          (fun s _ => ⟨rfl, fun _ => rfl⟩) (fun _ _ _ => .trans) hx hact
        exact (hkept fun _ => hstart).1
  | checkCompare hrun =>
      cases hiso : m.config.hasIsolateCacheBit with
      | true => rw [← Prog.state_eq ((checkCompare_isolated hiso s).symm.trans hrun)]
      | false =>
          have htimer := congrArg MipsCop0.Timer.countStartTimestamp
            (checkCompare_timer hm hiso hrun).1
          obtain ⟨last, surpress, hstate⟩ := s.cop0.checkCompareInterrupt_state s.timestamp
          rw [hstate] at htimer
          exact htimer
  | checkInterrupt hrun =>
      exact congrArg MipsCop0.Timer.countStartTimestamp (checkInterrupt_sameTimer hm hrun).timer
  | other hcop0 => rw [hcop0]

/-- Through a whole run `Count` goes on from the same start. -/
lemma countRun_start (hm : m.IsN64) {s s' : MipsBase T δ} (hrun : CountRun m s s')
    (hstart : s.cop0.countStartTimestamp ≤ s.timestamp) :
    s'.cop0.countStartTimestamp = s.cop0.countStartTimestamp ∧
      s.cop0.countStartTimestamp ≤ s'.timestamp := by
  induction hrun with
  | refl => exact ⟨rfl, hstart⟩
  | step _ hstep htime ih =>
      obtain ⟨hsame, hle⟩ := ih
      refine ⟨?_, BitVec.le_trans hle htime⟩
      rw [countStep_start hm hstep (by rw [hsame]; exact hle), hsame]

/-- The state after `Count` was written. -/
lemma writeCount_state (hm : m.IsN64) (hw : writesReg m 9 opcode = true) {s s' : MipsBase T δ}
    (h : execute m opcode (getInstFuncPtr m.kIs64Bit opcode) s = .ok ((), s')) :
    s'.cop0 = s.cop0.writeCount s.timestamp ((s.gpr (rtField opcode)).setWidth 32) ∧
      s'.timestamp = s.timestamp := by
  obtain ⟨context, value, hvalue, hrun⟩ := callInst_writesReg hm hw (started opcode s)
  rw [execute_run, hrun] at h
  rw [← Prog.state_eq h]
  refine ⟨?_, rfl⟩
  change s.cop0.writeCount s.timestamp (value.setWidth 32) = _
  rw [hvalue]
  rfl

/-- What reading `Count` puts into a register. -/
lemma readCount_value (hm : m.IsN64) (hr : readsReg m 9 opcode = true)
    (hrt : rtField opcode ≠ 0) {s : MipsBase T δ}
    (hstart : s.cop0.countStartTimestamp ≤ s.timestamp) :
    ∃ s', execute m opcode (getInstFuncPtr m.kIs64Bit opcode) s = .ok ((), s') ∧
      s'.gpr (rtField opcode) = movedValue opcode
        (((s.timestamp - s.cop0.countStartTimestamp).setWidth 32).setWidth 64) := by
  have hcount : (onCop0 fun ts cop0 => cop0.getCount ts : CpuM T δ (BitVec 32))
      (started opcode s) = .ok ((s.timestamp - s.cop0.countStartTimestamp).setWidth 32,
        started opcode s) := by
    change (let (a, cop0) := s.cop0.getCount s.timestamp
      (.ok (a, { started opcode s with cop0 := cop0 }) : Except Stop _)) = _
    rw [MipsCop0.getCount_of_le hstart]
    rfl
  have hread : cop0Read64 (9 : BitVec 5).toNat (started opcode s) =
      .ok (((s.timestamp - s.cop0.countStartTimestamp).setWidth 32).setWidth 64,
        started opcode s) := Prog.bind_of_ok hcount
  rw [execute_run, callInst_readsReg hm hr, Prog.bind_of_ok hread, writeGpr64, if_neg hrt]
  exact ⟨_, rfl, Function.update_self (β := fun _ : BitVec 5 => BitVec 64) _ _ _⟩

/-- `Count` that was written at one time is, at every later time, what was written and the time in
between, exactly when no more was written than the time shows: otherwise it has started at 0. -/
theorem countReads_iff (hm : m.IsN64) {store load : BitVec 32}
    (hstore : writesReg m 9 store = true) (hload : readsReg m 9 load = true)
    (hrt : rtField load ≠ 0) {s₀ s s' : MipsBase T δ}
    (hwrite : execute m store (getInstFuncPtr m.kIs64Bit store) s₀ = .ok ((), s))
    (hrun : CountRun m s s') :
    (∃ u, execute m load (getInstFuncPtr m.kIs64Bit load) s' = .ok ((), u) ∧
        u.gpr (rtField load) = movedValue load (((s₀.gpr (rtField store)).setWidth 32 +
          (s'.timestamp - s₀.timestamp).setWidth 32).setWidth 64)) ↔
      ((s₀.gpr (rtField store)).setWidth 32).toNat ≤ s₀.timestamp.toNat := by
  obtain ⟨hcop0, htime⟩ := writeCount_state hm hstore hwrite
  have hstart : s.cop0.countStartTimestamp ≤ s.timestamp := by
    rw [hcop0, htime]
    exact MipsCop0.writeCount_start_le _ _ _
  obtain ⟨hsame, hle⟩ := countRun_start hm hrun hstart
  obtain ⟨u, hu, hvalue⟩ := readCount_value hm hload hrt (s := s') (by rw [hsame]; exact hle)
  rw [← MipsCop0.count_after_write_iff s₀.cop0 s₀.timestamp s'.timestamp, ← hcop0, ← hsame]
  constructor
  · rintro ⟨u', hu', hvalue'⟩
    rw [hu'] at hu
    rw [Prog.state_eq hu] at hvalue'
    exact movedValue_inj (hvalue.symm.trans hvalue')
  · intro hcount
    exact ⟨u, hu, by rw [hvalue, hcount]⟩

/-- `MTC0 $1, Count` at a time of `cycle / 2`, with 3 in the register. -/
def countWriter (cycle : BitVec 64) : MipsBase MipsTlbNormal WordMemory :=
  { programState 0x80001000 0x1000 [0x40814800] with
    gpr := fun idx => if idx = 1 then 3 else 0
    cycleSpentTotal := cycle }

/-- The processor after the write. -/
def countWritten (cycle : BitVec 64) : MipsBase MipsTlbNormal WordMemory :=
  lastState (execute exceptionSetup 0x40814800 .kMtc) (countWriter cycle)

/-- Written at time 5, read at time 9 with `MFC0 $2, Count`. -/
theorem laterCount_read :
    ∃ u, execute exceptionSetup 0x40024800 (getInstFuncPtr true 0x40024800)
      (atCycle 18 (countWritten 10)) = .ok ((), u) ∧ u.gpr 2 = 7 := by
  have hstore : writesReg exceptionSetup 9 0x40814800 = true := by decide
  have hload : readsReg exceptionSetup 9 0x40024800 = true := by decide
  have hwrite : execute exceptionSetup 0x40814800 (getInstFuncPtr true 0x40814800)
      (countWriter 10) = .ok ((), countWritten 10) := run_of_returned (by decide +kernel)
  have hrun : CountRun exceptionSetup (countWritten 10) (atCycle 18 (countWritten 10)) :=
    .step .refl (.other rfl) (by decide +kernel)
  obtain ⟨u, hu, hvalue⟩ := (countReads_iff (n64Setup_isN64 _) hstore hload (by decide) hwrite
    hrun).mpr (by decide +kernel)
  exact ⟨u, hu, hvalue.trans (by decide +kernel)⟩

/-- Written at time 0 and read at once, `Count` is 0. -/
theorem earlyCount_lost :
    writesReg exceptionSetup 9 0x40814800 = true ∧ readsReg exceptionSetup 9 0x40024800 = true ∧
      execute exceptionSetup 0x40814800 .kMtc (countWriter 0) = .ok ((), countWritten 0) ∧
      CountRun exceptionSetup (countWritten 0) (countWritten 0) ∧
      ¬ ∃ u, execute exceptionSetup 0x40024800 .kMfc (countWritten 0) = .ok ((), u) ∧
        (u.gpr 2).setWidth 32 = (3#32 + 0#32) := by
  refine ⟨by decide, by decide, run_of_returned (by decide +kernel), .refl, ?_⟩
  rintro ⟨u, hrun, hvalue⟩
  have hu : u = lastState (execute exceptionSetup 0x40024800 .kMfc) (countWritten 0) := by
    rw [lastState, hrun]
  rw [hu] at hvalue
  exact absurd hvalue (by decide +kernel)

end MipsBase

end NgMips
