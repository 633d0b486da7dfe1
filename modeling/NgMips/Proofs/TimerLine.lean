import NgMips.Lib.Runs
import NgMips.Proofs.Cop0Regs
import NgMips.Proofs.Timer

/-!
# The timer line and its bit in `Cause`

`compareInterrupt` is the timer line; bit 15 of `Cause` is what `MFC0` shows of it.  An
exception rewrites the bit from the line, and so does `checkCompare`, but the latter before it
looks at the timer.  The two come apart in two ways: a check that raises the line and takes no
interrupt leaves the bit clear, and a write to `Compare` drops the line and leaves the bit set.
`lineShown_iff_kept` says that these are the only ways.
-/

namespace NgMips

namespace MipsBase

variable {T δ : Type} [MipsTlbBase T] (m : MipsSetup δ)

/-! ## The line and the bit -/

/-- What `MFC0` reads from `Cause` shows the timer line. -/
def LineShown (s : MipsBase T δ) : Prop :=
  ∃ cause, copRead32 m 0#2 13 s = .ok (cause, s) ∧ cause.getLsbD 15 = s.compareInterrupt

/-- The timer met `Compare` since it was last checked. -/
def TimerCrossed (s : MipsBase T δ) : Prop :=
  s.cop0.surpressCompareInterrupt = false ∧ s.cop0.lastCompareCheckTimestamp < s.timestamp ∧
    s.cop0.compare -
        (s.cop0.lastCompareCheckTimestamp - s.cop0.countStartTimestamp).setWidth 32 - 1 ≤
      (s.timestamp - s.cop0.countStartTimestamp).setWidth 32 -
        (s.cop0.lastCompareCheckTimestamp - s.cop0.countStartTimestamp).setWidth 32 - 1

/-! ## Steps -/

/-- What happens between two instruction boundaries. -/
inductive LineOp where
  /-- An instruction is executed, from memory or from a block. -/
  | inst (opcode : BitVec 32)
  | checkCompare
  | checkInterrupt
  | reset
  /-- Anything that is no business of the timer line: cycles are counted, a block is built, a
  register is set from outside. -/
  | other

/-- One step. -/
inductive LineStep : LineOp → MipsBase T δ → MipsBase T δ → Prop
  | inst {opcode : BitVec 32} {s s' : MipsBase T δ}
      (h : execute m opcode (getInstFuncPtr m.kIs64Bit opcode) s = .ok ((), s')) :
      LineStep (.inst opcode) s s'
  | checkCompare {s s' : MipsBase T δ} (h : checkCompare m s = .ok ((), s')) :
      LineStep .checkCompare s s'
  | checkInterrupt {s s' : MipsBase T δ} (h : checkInterrupt m s = .ok ((), s')) :
      LineStep .checkInterrupt s s'
  | reset (s : MipsBase T δ) : LineStep .reset s (reset m s)
  | other {s s' : MipsBase T δ} (hcause : s'.cop0.cause = s.cop0.cause)
      (hline : s'.compareInterrupt = s.compareInterrupt) : LineStep .other s s'

/-- The steps after which the bit follows the line: no write to `Compare` while the line is up,
and no check that raises the line unless it takes an interrupt at once. -/
def LineOp.Keeps (op : LineOp) (s : MipsBase T δ) : Prop :=
  match op with
  | .inst opcode => writesReg m 11 opcode = true → s.compareInterrupt = false
  | .checkCompare => m.config.hasIsolateCacheBit = false → TimerCrossed s →
      s.compareInterrupt = true ∨ (m.config.hasException = true ∧ InterruptReady m (withTimer s))
  | .checkInterrupt | .reset | .other => True

variable {m}

omit [MipsTlbBase T] in
lemma timerCrossed_iff (s : MipsBase T δ) :
    TimerCrossed s ↔ (s.cop0.checkCompareInterrupt s.timestamp).1 = true := by
  rw [TimerCrossed, MipsCop0.checkCompareInterrupt]
  cases hsurpress : s.cop0.surpressCompareInterrupt with
  | true => simp
  | false =>
      rw [if_neg (by simp)]
      by_cases hback : s.timestamp < s.cop0.lastCompareCheckTimestamp
      · rw [if_pos hback]
        have hle := BitVec.le_of_lt hback
        simp [BitVec.not_lt.mpr hle]
      · rw [if_neg hback]
        by_cases hsame : s.timestamp - s.cop0.lastCompareCheckTimestamp = 0
        · have heq : s.timestamp = s.cop0.lastCompareCheckTimestamp := by grind
          simp [heq]
        · have hlt : s.cop0.lastCompareCheckTimestamp < s.timestamp := by
            refine BitVec.lt_of_le_ne (BitVec.not_lt.mp hback) fun heq => hsame ?_
            rw [heq]
            exact BitVec.sub_self _
          rw [if_neg hsame]
          simp [hlt]

lemma lineShown_iff (hm : m.IsN64) (s : MipsBase T δ) :
    LineShown m s ↔ s.cop0.cause.getLsbD 15 = s.compareInterrupt := by
  have hread : copRead32 m 0#2 13 s = .ok ((s.cop0.cause.setWidth 64).setWidth 32, s) := by
    simp only [copRead32, hm.slot_zero]
    rfl
  have hbit : ((s.cop0.cause.setWidth 64).setWidth 32).getLsbD 15 = s.cop0.cause.getLsbD 15 := by
    simp
  rw [LineShown, hread]
  constructor
  · rintro ⟨cause, heq, hline⟩
    rw [← (Prog.ok_inj heq).1, hbit] at hline
    exact hline
  · intro hline
    exact ⟨_, rfl, hbit.trans hline⟩

/-! ## What the steps do to them -/

/-- Neither the line nor the bit changed. -/
structure LineSame (s s' : MipsBase T δ) : Prop where
  bit : s'.cop0.cause.getLsbD 15 = s.cop0.cause.getLsbD 15
  line : s'.compareInterrupt = s.compareInterrupt

namespace LineSame

omit [MipsTlbBase T]

lemma refl (s : MipsBase T δ) : LineSame s s := ⟨rfl, rfl⟩

lemma trans {s t u : MipsBase T δ} (h : LineSame s t) (h' : LineSame t u) : LineSame s u :=
  ⟨h'.bit.trans h.bit, h'.line.trans h.line⟩

end LineSame

omit [MipsTlbBase T] in
/-- The bit is not among those a write to `Cause` changes. -/
lemma bit_of_masked {a b : BitVec 32} (h : a &&& ~~~0x300#32 = b &&& ~~~0x300#32) :
    a.getLsbD 15 = b.getLsbD 15 := by
  have hbit := congrArg (BitVec.getLsbD · 15) h
  simpa using hbit

/-- No elementary operation changes the line or the bit, but for a write to `Compare`. -/
lemma lineSame_elem (hm : m.IsN64) {opcode : BitVec 32} {func : MipsInstId}
    (hcompare : copId opcode = 0#2 → isCopCommand m opcode func = false →
      func.copWriteIdx opcode ≠ some 11)
    (α : Type) (x : CpuM T δ α) (hx : Elem m opcode func α x) : Prog.Moves LineSame x := by
  intro s a s' h
  cases hx with
  | readStatus =>
      rw [copRead32Internal_status hm] at h
      rw [← Prog.state_eq h]
      exact .refl s
  | writeGpr idx value =>
      obtain ⟨gpr, rfl⟩ := writeGpr64_ok h
      exact ⟨rfl, rfl⟩
  | access f =>
      obtain ⟨device, halt, cache, rfl⟩ := access_ok h
      exact ⟨rfl, rfl⟩
  | fault cause hcause address =>
      obtain ⟨-, rfl⟩ := translationFault_ok hm hcause h
      exact ⟨rfl, rfl⟩
  | cop0 f hmask =>
      rw [← Prog.state_eq h]
      exact ⟨bit_of_masked (hmask _ _), rfl⟩
  | getCount =>
      rw [← Prog.state_eq h]
      refine ⟨?_, rfl⟩
      change (s.cop0.getCount s.timestamp).2.cause.getLsbD 15 = _
      rw [MipsCop0.getCount]
      split <;> rfl
  | random =>
      obtain ⟨state, rfl⟩ := readRandom_ok h
      exact ⟨rfl, rfl⟩
  | fpu f =>
      obtain ⟨fpu, rfl⟩ := setFpu_ok h
      exact ⟨rfl, rfl⟩
  | eret _ _ _ =>
      rw [eret_run] at h
      rw [← Prog.state_eq h]
      exact ⟨rfl, rfl⟩
  | clearCompare hcop hcommand hidx => exact absurd hidx (hcompare hcop hcommand)
  | panic α reason => exact absurd h (by simp)
  | _ =>
      rw [← Prog.state_eq h]
      exact ⟨rfl, rfl⟩

omit [MipsTlbBase T] in
/-- An exception copies the line to the bit. -/
lemma causeReg_bit (cause : ExceptionCause) (causeRegOld copCause : BitVec 32)
    (interrupt line bd : Bool) :
    (causeReg cause causeRegOld copCause interrupt line bd).getLsbD 15 = line := by
  have hcode : (cause.code <<< 2).getLsbD 15 = false := by cases cause <;> decide
  rw [causeReg_getLsbD, hcode]
  simp

/-- An exception shows the line, or nothing happened. -/
lemma ExceptionOutcome.line {cause : ExceptionCause} {s s' : MipsBase T δ}
    (h : ExceptionOutcome m cause s s') :
    s'.compareInterrupt = s.compareInterrupt ∧
      ((m.config.hasException = false ∧ s' = s) ∨
        s'.cop0.cause.getLsbD 15 = s'.compareInterrupt) := by
  cases h with
  | off hoff => exact ⟨rfl, .inl ⟨hoff, rfl⟩⟩
  | plain _ _ _ => exact ⟨rfl, .inr (causeReg_bit _ _ _ _ _ _)⟩
  | delayed _ _ _ _ _ => exact ⟨rfl, .inr (causeReg_bit _ _ _ _ _ _)⟩

/-! ## Instructions -/

/-- A write to `Compare` drops the line and leaves the bit. -/
lemma writeCompare_state (hm : m.IsN64) {opcode : BitVec 32} (hw : writesReg m 11 opcode = true)
    {s s' : MipsBase T δ}
    (h : callInst m opcode (getInstFuncPtr m.kIs64Bit opcode) s = .ok ((), s')) :
    ∃ v, s' = { s with cop0 := s.cop0.writeCompare v, compareInterrupt := false } := by
  obtain ⟨context, value, -, hrun⟩ := callInst_writesReg hm hw s
  rw [hrun] at h
  exact ⟨value.setWidth 32, (Prog.state_eq h).symm⟩

/-- No other instruction changes the line or the bit, unless it raises an exception. -/
lemma callInst_line (hm : m.IsN64) {opcode : BitVec 32} (hw : writesReg m 11 opcode = false)
    {s s' : MipsBase T δ}
    (h : callInst m opcode (getInstFuncPtr m.kIs64Bit opcode) s = .ok ((), s')) :
    LineSame s s' ∨ s'.cop0.cause.getLsbD 15 = s'.compareInterrupt := by
  rw [hm.is64Bit] at h
  rcases callInst_cases hm h with ⟨cause, t, -, hreport, htrigger⟩ | ⟨x, hx, hrun⟩
  · have hsame : LineSame s t := by cases hreport <;> exact ⟨rfl, rfl⟩
    rcases (triggerException_outcome hm htrigger).line.2 with ⟨-, rfl⟩ | hshown
    · exact .inl hsame
    · exact .inr hshown
  · exact .inl (act_moves .refl (fun _ _ _ => .trans)
      (lineSame_elem hm (copWriteIdx_ne hw)) hx hrun)

/-! ## Steps and runs -/

lemma reset_line (hm : m.IsN64) (s : MipsBase T δ) :
    (reset m s).cop0 = {} ∧ (reset m s).compareInterrupt = false := by
  have hslot : m.slot 0 = .cop0 := hm.slot_zero
  simp only [reset, resetCop_eq, if_pos hslot, ite_self, and_self]

omit [MipsTlbBase T] in
/-- The lines are copied to `Cause` before the timer is looked at. -/
lemma checked_bit (s : MipsBase T δ) :
    (checked m s).cop0.cause.getLsbD 15 = s.compareInterrupt := by
  rw [checked, latched, MipsCop0.checkCompareInterrupt_cause]
  cases m.bus.getInterrupt s.device <;> cases s.compareInterrupt <;> simp [interruptPending]

/-- An interrupt that is taken shows the line. -/
lemma interrupt_shown (hm : m.IsN64) (hexc : m.config.hasException = true)
    {s s' : MipsBase T δ} (h : triggerException m .kInt s = .ok ((), s')) :
    s'.cop0.cause.getLsbD 15 = s'.compareInterrupt := by
  rcases (triggerException_outcome hm h).line.2 with ⟨hoff, -⟩ | hshown
  · exact absurd (hoff.symm.trans hexc) (by simp)
  · exact hshown

/-- An instruction hides the line only when it drops one that is up. -/
lemma inst_shown (hm : m.IsN64) {opcode : BitVec 32} {s s' : MipsBase T δ}
    (h : execute m opcode (getInstFuncPtr m.kIs64Bit opcode) s = .ok ((), s'))
    (hs : s.cop0.cause.getLsbD 15 = s.compareInterrupt) :
    s'.cop0.cause.getLsbD 15 = s'.compareInterrupt ↔
      (writesReg m 11 opcode = true → s.compareInterrupt = false) := by
  rw [execute_run] at h
  have hstart : LineSame s (started opcode s) := ⟨rfl, rfl⟩
  cases hw : writesReg m 11 opcode with
  | true =>
      obtain ⟨v, rfl⟩ := writeCompare_state hm hw h
      change s.cop0.cause.getLsbD 15 = false ↔ _
      rw [hs]
      exact ⟨fun h _ => h, fun h => h rfl⟩
  | false =>
      refine iff_of_true ?_ fun hcon => absurd hcon (by simp)
      rcases callInst_line hm hw h with hsame | hshown
      · have hall := hstart.trans hsame
        rw [hall.bit, hall.line, hs]
      · exact hshown

/-- A look at the timer hides the line only when it raises it and no interrupt is taken. -/
lemma checkCompare_shown (hm : m.IsN64) {s s' : MipsBase T δ}
    (h : checkCompare m s = .ok ((), s')) (hs : s.cop0.cause.getLsbD 15 = s.compareInterrupt) :
    s'.cop0.cause.getLsbD 15 = s'.compareInterrupt ↔
      LineOp.checkCompare.Keeps m s := by
  cases checkCompare_cases hm h with
  | isolated hiso hstate =>
      rw [hstate]
      exact iff_of_true hs fun hcon => absurd (hiso.symm.trans hcon) (by simp)
  | before _ hcrossed hstate =>
      rw [hstate]
      refine iff_of_true (checked_bit s) fun _ hcon => ?_
      exact absurd (hcrossed.symm.trans ((timerCrossed_iff s).mp hcon)) (by simp)
  | idle hiso hcrossed hno hstate =>
      rw [hstate]
      change (checked m s).cop0.cause.getLsbD 15 = true ↔ _
      rw [checked_bit]
      refine ⟨fun hline _ _ => .inl hline, fun hkeep => ?_⟩
      exact (hkeep hiso ((timerCrossed_iff s).mpr hcrossed)).resolve_right
        fun htake => hno htake.1 htake.2
  | taken _ _ hexc hready htrigger =>
      exact iff_of_true (interrupt_shown hm hexc htrigger) fun _ _ => .inr ⟨hexc, hready⟩

/-- After one step the bit shows the line exactly when the step is one of `LineOp.Keeps`. -/
lemma lineStep_shown (hm : m.IsN64) {op : LineOp} {s s' : MipsBase T δ}
    (h : LineStep m op s s') (hs : LineShown m s) : LineShown m s' ↔ op.Keeps m s := by
  rw [lineShown_iff hm] at hs ⊢
  cases h with
  | inst hrun => exact inst_shown hm hrun hs
  | checkCompare hrun => exact checkCompare_shown hm hrun hs
  | checkInterrupt hrun =>
      refine iff_of_true ?_ trivial
      cases checkInterrupt_cases hm hrun with
      | idle _ hstate => rw [hstate, hs]
      | taken hexc _ htrigger => exact interrupt_shown hm hexc htrigger
  | reset s =>
      obtain ⟨hcop0, hline⟩ := reset_line hm s
      refine iff_of_true ?_ trivial
      rw [hcop0, hline]
      rfl
  | other hcause hline =>
      refine iff_of_true ?_ trivial
      rw [hcause, hline, hs]

/-- In a run from a reset, `MFC0` shows the timer line at every boundary exactly when every step
is one of `LineOp.Keeps`. -/
theorem lineShown_iff_kept (hm : m.IsN64) (s₀ : MipsBase T δ) (l : List (LineOp × MipsBase T δ))
    (hrun : RunOf (LineStep m) (reset m s₀) l) :
    (∀ e ∈ l, LineShown m e.2) ↔ RunOf (fun op s _ => op.Keeps m s) (reset m s₀) l := by
  have hstart : LineShown m (reset m s₀) := by
    obtain ⟨hcop0, hline⟩ := reset_line hm s₀
    rw [lineShown_iff hm, hcop0, hline]
    rfl
  have hstep : ∀ (op : LineOp) (s s' : MipsBase T δ), LineShown m s → LineStep m op s s' →
      (LineShown m s' ↔ op.Keeps m s) := fun _ _ _ hs h => lineStep_shown hm h hs
  exact RunOf.forall_iff hstep hstart hrun

/-! ## A check that takes an interrupt, and one that is not seen -/

/-- A processor that was reset, with 1 in register 1, and in register 2 a status in which
interrupts of the timer are enabled. -/
def resetWithOne : MipsBase MipsTlbNormal WordMemory :=
  { reset exceptionSetup (programState 0 0 []) with
    gpr := fun r => if r = 1 then 1 else if r = 2 then 0x8001 else 0 }

/-- `Compare` is written with register 1. -/
def compareWritten : MipsBase MipsTlbNormal WordMemory :=
  lastState (execute exceptionSetup 0x40815800 .kMtc) resetWithOne

/-- The first check, at time 0. -/
def firstChecked : MipsBase MipsTlbNormal WordMemory :=
  lastState (checkCompare exceptionSetup) compareWritten

/-- The status is written with register 2. -/
def statusWritten : MipsBase MipsTlbNormal WordMemory :=
  lastState (execute exceptionSetup 0x40826000 .kMtc) firstChecked

/-- The second check, at time 3: `Count` went past 1. -/
def secondChecked (s : MipsBase MipsTlbNormal WordMemory) : MipsBase MipsTlbNormal WordMemory :=
  lastState (checkCompare exceptionSetup) (atCycle 6 s)

/-- `Compare` is written and checked once. -/
def stepsToCheck : List (LineOp × MipsBase MipsTlbNormal WordMemory) :=
  [(.other, resetWithOne), (.inst 0x40815800, compareWritten), (.checkCompare, firstChecked)]

/-- Then interrupts are enabled, and the second check takes one. -/
def stepsToInterrupt : List (LineOp × MipsBase MipsTlbNormal WordMemory) :=
  stepsToCheck ++ [(.inst 0x40826000, statusWritten), (.other, atCycle 6 statusWritten),
    (.checkCompare, secondChecked statusWritten)]

lemma stepsToCheck_run (l : List (LineOp × MipsBase MipsTlbNormal WordMemory))
    (hl : RunOf (LineStep exceptionSetup) firstChecked l) :
    RunOf (LineStep exceptionSetup) (reset exceptionSetup (programState 0 0 []))
      (stepsToCheck ++ l) := by
  refine ⟨.other rfl rfl, .inst ?_, .checkCompare ?_, hl⟩
  · exact run_of_returned (by decide +kernel)
  · exact run_of_returned (by decide +kernel)

/-- The second check raises the line and takes the interrupt; the bit shows it all along. -/
theorem stepsToInterrupt_shown :
    RunOf (LineStep exceptionSetup) (reset exceptionSetup (programState 0 0 [])) stepsToInterrupt ∧
      (secondChecked statusWritten).compareInterrupt = true ∧
      ∀ e ∈ stepsToInterrupt, LineShown exceptionSetup e.2 := by
  have hrun : RunOf (LineStep exceptionSetup) (reset exceptionSetup (programState 0 0 []))
      stepsToInterrupt := by
    refine stepsToCheck_run _ ⟨.inst ?_, .other (by rfl) (by rfl), .checkCompare ?_, trivial⟩
    · exact run_of_returned (by decide +kernel)
    · exact run_of_returned (by decide +kernel)
  have hready : InterruptReady exceptionSetup (withTimer (atCycle 6 statusWritten)) := by
    constructor <;> decide +kernel
  refine ⟨hrun, by decide +kernel, (lineShown_iff_kept (n64Setup_isN64 _) _ _ hrun).mpr
    ⟨trivial, ?_, ?_, ?_, trivial, ?_, trivial⟩⟩
  · exact fun _ => by decide +kernel
  · exact fun _ hcrossed => absurd hcrossed.1 (by decide +kernel)
  · exact fun hwrites => absurd hwrites (by decide)
  · exact fun _ _ => .inr ⟨rfl, hready⟩

/-- The second check raises the line; interrupts are disabled, and the bit stays clear. -/
theorem secondCheck_not_shown :
    ∃ l, RunOf (LineStep exceptionSetup) (reset exceptionSetup (programState 0 0 [])) l ∧
      ¬ ∀ e ∈ l, LineShown exceptionSetup e.2 := by
  obtain ⟨s, hs⟩ : ∃ s, s = secondChecked firstChecked := ⟨_, rfl⟩
  have hchecked : checkCompare exceptionSetup (atCycle 6 firstChecked) = .ok ((), s) := by
    rw [hs]
    exact run_of_returned (by decide +kernel)
  refine ⟨stepsToCheck ++ [(.other, atCycle 6 firstChecked), (.checkCompare, s)],
    stepsToCheck_run _ ⟨.other (by rfl) (by rfl), .checkCompare hchecked, trivial⟩, fun h => ?_⟩
  have hshown := (lineShown_iff (n64Setup_isN64 _) s).mp (h (.checkCompare, s) (by simp))
  have hbit : s.cop0.cause.getLsbD 15 = false := by rw [hs]; decide +kernel
  have hline : s.compareInterrupt = true := by rw [hs]; decide +kernel
  exact absurd (hbit.symm.trans (hshown.trans hline)) (by simp)

end MipsBase

end NgMips
