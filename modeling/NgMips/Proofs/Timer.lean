import NgMips.Proofs.Poll
import NgMips.Source.Machine

/-!
# The timer interrupt

`Compare` is written at time `t₀`, and `checkCompare` is called at later times
`t₁ ≤ … ≤ tₙ`.  The first call only clears the flag the write has set, so what is reported at
`tₙ` is whether `Count` took the value of `Compare` in `(t₁, tₙ]`: a crossing in `(t₀, t₁]` is
lost unless it comes round again.
-/

namespace NgMips

/-! ## Count -/

namespace MipsCop0

variable {cop0 : MipsCop0}

/-- The value of `Count` at a time. -/
def countAt (cop0 : MipsCop0) (t : BitVec 64) : BitVec 32 := (cop0.getCount t).1

lemma countAt_eq {t : BitVec 64} (h : cop0.countStartTimestamp ≤ t) :
    cop0.countAt t = (t - cop0.countStartTimestamp).setWidth 32 := by
  have hlt : ¬ t < cop0.countStartTimestamp := by
    rw [BitVec.not_lt]
    exact h
  rw [countAt, getCount, if_neg hlt]

/-- `Count` takes the value `v` in `(a, b]`. -/
def Hits (cop0 : MipsCop0) (v : BitVec 32) (a b : BitVec 64) : Prop :=
  ∃ t, a < t ∧ t ≤ b ∧ cop0.countAt t = v

/-- The comparison of the source decides whether one of `d` steps from the count `c` leads to
`v`; in a whole round of `Count` the right-hand side is `2 ^ 32 - 1`. -/
lemma crossed_iff_steps {v c : BitVec 32} {d : ℕ} (hpos : 1 ≤ d) (hround : d ≤ 2 ^ 32) :
    v - c - 1 ≤ BitVec.ofNat 32 d - 1 ↔ ∃ i, 1 ≤ i ∧ i ≤ d ∧ c + BitVec.ofNat 32 i = v := by
  have hpred : ∀ {i : ℕ}, 1 ≤ i → i ≤ 2 ^ 32 → (BitVec.ofNat 32 i - 1).toNat = i - 1 := by
    intro i hi hle
    have hone : (1 : BitVec 32).toNat = 1 := rfl
    rw [BitVec.toNat_sub, BitVec.toNat_ofNat, hone]
    omega
  rw [BitVec.le_def, hpred hpos hround]
  constructor
  · intro h
    refine ⟨(v - c - 1).toNat + 1, by omega, by omega, ?_⟩
    rw [BitVec.ofNat_add, BitVec.ofNat_toNat, BitVec.setWidth_eq]
    grind
  · rintro ⟨i, hi, hid, rfl⟩
    rw [add_sub_cancel_left, hpred hi (hid.trans hround)]
    omega

/-- The low word of a time, counted from the last change of `Count`. -/
lemma setWidth_sub_eq (start a t : BitVec 64) :
    (t - start).setWidth 32 = (a - start).setWidth 32 + (t - a).setWidth 32 := by
  have h : t - start = (a - start) + (t - a) := by grind
  rw [h, BitVec.setWidth_add _ _ (by decide)]

lemma hits_congr {cop0' : MipsCop0} (h : cop0'.countStartTimestamp = cop0.countStartTimestamp)
    (v : BitVec 32) (a b : BitVec 64) : cop0'.Hits v a b ↔ cop0.Hits v a b := by
  have hcount : ∀ t, cop0'.countAt t = cop0.countAt t := by
    intro t
    simp only [countAt, getCount, h]
    split <;> rfl
  simp only [Hits, hcount]

/-- An interval is split at a time in between. -/
lemma hits_split {v : BitVec 32} {a b c : BitVec 64} (hab : a ≤ b) (hbc : b ≤ c) :
    cop0.Hits v a c ↔ cop0.Hits v a b ∨ cop0.Hits v b c := by
  constructor
  · rintro ⟨t, hat, htc, ht⟩
    by_cases htb : t ≤ b
    · exact .inl ⟨t, hat, htb, ht⟩
    · exact .inr ⟨t, BitVec.not_le.mp htb, htc, ht⟩
  · rintro (⟨t, hat, htb, ht⟩ | ⟨t, hbt, htc, ht⟩)
    · exact ⟨t, hat, BitVec.le_trans htb hbc, ht⟩
    · exact ⟨t, Nat.lt_of_le_of_lt hab hbt, htc, ht⟩

/-- The comparison of the source, on the counts at the ends of an interval shorter than a
round of `Count`, decides whether `Count` takes a value in between. -/
lemma crossed_iff {v : BitVec 32} {a b : BitVec 64} (hstart : cop0.countStartTimestamp ≤ a)
    (hab : a < b) (hgap : (b - a).toNat < 2 ^ 32) :
    v - (a - cop0.countStartTimestamp).setWidth 32 - 1 ≤
        (b - cop0.countStartTimestamp).setWidth 32 -
          (a - cop0.countStartTimestamp).setWidth 32 - 1 ↔
      cop0.Hits v a b := by
  have hab' : a.toNat < b.toNat := hab
  have hdiff : ∀ {t : BitVec 64}, a ≤ t → (t - a).toNat = t.toNat - a.toNat :=
    fun h => BitVec.toNat_sub_of_le h
  have hb := hdiff (BitVec.le_of_lt hab)
  rw [setWidth_sub_eq _ a b, add_sub_cancel_left, ← BitVec.ofNat_toNat (m := 32) (x := b - a),
    crossed_iff_steps (by omega) hgap.le]
  constructor
  · rintro ⟨i, hi, hid, hcount⟩
    -- The time after `i` steps.
    have hlt := b.isLt
    have ht : (a + BitVec.ofNat 64 i).toNat = a.toNat + i := by
      rw [BitVec.toNat_add, BitVec.toNat_ofNat]
      omega
    have hat : a < a + BitVec.ofNat 64 i := by
      rw [BitVec.lt_def, ht]
      omega
    refine ⟨a + BitVec.ofNat 64 i, hat, ?_, ?_⟩
    · rw [BitVec.le_def, ht]
      omega
    · rw [countAt_eq (BitVec.le_trans hstart (BitVec.le_of_lt hat)), setWidth_sub_eq _ a,
        add_sub_cancel_left, BitVec.setWidth_ofNat_of_le (by decide), hcount]
  · rintro ⟨t, hat, htb, hcount⟩
    have hat' : a.toNat < t.toNat := hat
    have htb' : t.toNat ≤ b.toNat := htb
    have ht := hdiff (BitVec.le_of_lt hat)
    refine ⟨(t - a).toNat, by omega, by omega, ?_⟩
    rw [← hcount, countAt_eq (BitVec.le_trans hstart (BitVec.le_of_lt hat)), setWidth_sub_eq _ a t,
      BitVec.ofNat_toNat]

/-- The states of coprocessor 0 and times that a run can reach while time does not go
backwards.  Only the operations of the timer matter. -/
inductive TimerReachable : MipsCop0 → BitVec 64 → Prop
  /-- After a reset. -/
  | reset : TimerReachable {} 0
  /-- Time passes. -/
  | elapse {cop0 : MipsCop0} {t t' : BitVec 64} (h : TimerReachable cop0 t) (hle : t ≤ t') :
      TimerReachable cop0 t'
  /-- `Count` is written. -/
  | writeCount {cop0 : MipsCop0} {t : BitVec 64} (h : TimerReachable cop0 t) (value : BitVec 32) :
      TimerReachable (cop0.writeCount t value) t
  /-- `Count` is read. -/
  | getCount {cop0 : MipsCop0} {t : BitVec 64} (h : TimerReachable cop0 t) :
      TimerReachable (cop0.getCount t).2 t
  /-- Any other access, a check or a write to `Compare` among them, leaves the time from
  which `Count` is derived alone. -/
  | other {cop0 cop0' : MipsCop0} {t : BitVec 64} (h : TimerReachable cop0 t)
      (hsame : cop0'.countStartTimestamp = cop0.countStartTimestamp) : TimerReachable cop0' t

/-- `Count` is never derived from a time in the future. -/
lemma TimerReachable.start_le {t : BitVec 64} (h : TimerReachable cop0 t) :
    cop0.countStartTimestamp ≤ t := by
  induction h with
  | reset => exact BitVec.le_refl _
  | elapse _ hle ih => exact BitVec.le_trans ih hle
  | @writeCount cop0 t _ value ih =>
      rw [MipsCop0.writeCount]
      split
      · exact BitVec.le_refl _
      · next hlt =>
          have hle : value.setWidth 64 ≤ t := BitVec.not_lt.mp hlt
          rw [BitVec.le_def, BitVec.toNat_sub_of_le hle]
          exact Nat.sub_le _ _
  | @getCount cop0 t _ ih =>
      rw [MipsCop0.getCount]
      split
      · exact BitVec.le_refl _
      · exact ih
  | other _ hsame ih =>
      rw [hsame]
      exact ih

/-! ## One check -/

/-- The registers of the timer. -/
structure Timer where
  compare : BitVec 32
  countStartTimestamp : BitVec 64
  lastCompareCheckTimestamp : BitVec 64
  surpressCompareInterrupt : Bool

def timer (cop0 : MipsCop0) : Timer where
  compare := cop0.compare
  countStartTimestamp := cop0.countStartTimestamp
  lastCompareCheckTimestamp := cop0.lastCompareCheckTimestamp
  surpressCompareInterrupt := cop0.surpressCompareInterrupt

/-- The first check after a write to `Compare` only takes note of the time. -/
lemma checkCompareInterrupt_surpressed (h : cop0.surpressCompareInterrupt = true)
    (t : BitVec 64) :
    cop0.checkCompareInterrupt t =
      (false, { cop0 with
        surpressCompareInterrupt := false
        lastCompareCheckTimestamp := t }) := by
  rw [checkCompareInterrupt, if_pos h]

/-- A later check reports whether `Count` met `Compare` since the check before. -/
lemma checkCompareInterrupt_armed (h : cop0.surpressCompareInterrupt = false) {t : BitVec 64}
    (hstart : cop0.countStartTimestamp ≤ cop0.lastCompareCheckTimestamp)
    (hle : cop0.lastCompareCheckTimestamp ≤ t)
    (hgap : (t - cop0.lastCompareCheckTimestamp).toNat < 2 ^ 32) :
    ((cop0.checkCompareInterrupt t).1 = true ↔
        cop0.Hits cop0.compare cop0.lastCompareCheckTimestamp t) ∧
      (cop0.checkCompareInterrupt t).2 = { cop0 with lastCompareCheckTimestamp := t } := by
  rw [checkCompareInterrupt, if_neg (by simp [h]), if_neg (BitVec.not_lt.mpr hle)]
  by_cases heq : t = cop0.lastCompareCheckTimestamp
  · have hdelta : t - cop0.lastCompareCheckTimestamp = 0 := by
      rw [heq]
      exact BitVec.sub_self _
    rw [if_pos hdelta]
    refine ⟨⟨fun h => absurd h (by simp), ?_⟩, by rw [heq]⟩
    rintro ⟨τ, hlo, hhi, -⟩
    rw [heq] at hhi
    exact absurd hlo (BitVec.not_lt.mpr hhi)
  · have hlt : cop0.lastCompareCheckTimestamp < t := by
      rw [BitVec.le_def] at hle
      rw [BitVec.lt_def]
      have hne : t.toNat ≠ cop0.lastCompareCheckTimestamp.toNat :=
        fun h => heq (BitVec.eq_of_toNat_eq h)
      omega
    have hdelta : t - cop0.lastCompareCheckTimestamp ≠ 0 := by
      intro h
      exact heq (by grind)
    rw [if_neg hdelta]
    exact ⟨by rw [decide_eq_true_iff, crossed_iff hstart hlt hgap], rfl⟩

end MipsCop0

namespace MipsBase

variable {T δ : Type} [MipsTlbBase T] {m : MipsSetup δ}

/-! ## Runs of checks -/

/-- The timer, its interrupt line and the time are the same. -/
structure SameTimer (s t : MipsBase T δ) : Prop where
  timer : t.cop0.timer = s.cop0.timer
  compareInterrupt : t.compareInterrupt = s.compareInterrupt
  timestamp : t.timestamp = s.timestamp

omit [MipsTlbBase T] in
lemma SameTimer.refl (s : MipsBase T δ) : SameTimer s s := ⟨rfl, rfl, rfl⟩

lemma ExceptionOutcome.sameTimer {cause : ExceptionCause} {s s' : MipsBase T δ}
    (h : ExceptionOutcome m cause s s') : SameTimer s s' := by
  cases h <;> exact ⟨rfl, rfl, rfl⟩

lemma checkInterrupt_sameTimer (hm : m.IsN64) {s s' : MipsBase T δ}
    (h : checkInterrupt m s = .ok ((), s')) : SameTimer s s' := by
  rw [checkInterrupt] at h
  split at h
  · rw [Prog.bind_of_ok (copRead32Internal_status hm s),
      Prog.bind_of_ok (copRead32Internal_cause hm s), Prog.bind_of_ok (read_run _ s)] at h
    split at h
    · exact (triggerException_outcome hm h).sameTimer
    · obtain rfl := Prog.state_eq h
      exact .refl s
  · obtain rfl := Prog.state_eq h
    exact .refl s

/-- One call of `checkCompare`. -/
lemma checkCompare_timer (hm : m.IsN64) (hiso : m.config.hasIsolateCacheBit = false)
    {s s' : MipsBase T δ} (h : checkCompare m s = .ok ((), s')) :
    s'.cop0.timer = (s.cop0.checkCompareInterrupt s.timestamp).2.timer ∧
      s'.compareInterrupt =
        (s.compareInterrupt || (s.cop0.checkCompareInterrupt s.timestamp).1) ∧
      s'.timestamp = s.timestamp := by
  have htimer : (checked m s).cop0.timer = (s.cop0.checkCompareInterrupt s.timestamp).2.timer := by
    rw [checked, latched, MipsCop0.checkCompareInterrupt_cause]
    rfl
  rw [checkCompare_run hm hiso] at h
  cases hfired : (s.cop0.checkCompareInterrupt s.timestamp).1 with
  | true =>
      rw [hfired, if_pos rfl] at h
      have hsame := checkInterrupt_sameTimer hm h
      refine ⟨hsame.timer.trans htimer, ?_, hsame.timestamp⟩
      rw [hsame.compareInterrupt, Bool.or_true]
  | false =>
      rw [hfired, if_neg (by simp)] at h
      obtain rfl := Prog.state_eq h
      exact ⟨htimer, by rw [Bool.or_false]; rfl, rfl⟩

/-- Between two checks: time passes, but nobody writes `Compare` or `Count`. -/
structure Idle (s t : MipsBase T δ) : Prop where
  timer : t.cop0.timer = s.cop0.timer
  compareInterrupt : t.compareInterrupt = s.compareInterrupt
  timestamp : s.timestamp ≤ t.timestamp

/-- Checks at the times `t₁ ≤ … ≤ tₙ`, with less than a round of `Count` between two of them. -/
inductive CheckRun (m : MipsSetup δ) (s : MipsBase T δ) :
    BitVec 64 → BitVec 64 → MipsBase T δ → Prop
  /-- The first check. -/
  | first {t u : MipsBase T δ} (hidle : Idle s t) (hcheck : checkCompare m t = .ok ((), u)) :
      CheckRun m s t.timestamp t.timestamp u
  /-- One more check. -/
  | next {t₁ tₙ : BitVec 64} {u t u' : MipsBase T δ} (hrun : CheckRun m s t₁ tₙ u)
      (hidle : Idle u t) (hgap : (t.timestamp - tₙ).toNat < 2 ^ 32)
      (hcheck : checkCompare m t = .ok ((), u')) : CheckRun m s t₁ t.timestamp u'

/-- `Compare` is written by `MTC0` or `DMTC0`. -/
def WritesCompare (m : MipsSetup δ) (v : BitVec 32) (s s' : MipsBase T δ) : Prop :=
  copWrite32 m 0#2 11 v s = .ok ((), s') ∨
    ∃ value : BitVec 64, value.setWidth 32 = v ∧ copWrite64 m 0#2 11 value s = .ok ((), s')

lemma WritesCompare.state (hm : m.IsN64) {v : BitVec 32} {s s' : MipsBase T δ}
    (h : WritesCompare m v s s') :
    s' = { s with cop0 := s.cop0.writeCompare v, compareInterrupt := false } := by
  have hwrite : ∀ (context value : BitVec 64), cop0Write context 11 value s =
      .ok ((), { s with
        cop0 := s.cop0.writeCompare (value.setWidth 32), compareInterrupt := false }) :=
    fun _ _ => rfl
  rcases h with h | ⟨value, hv, h⟩
  · simp only [copWrite32, hm.slot_zero, cop0Write32, hwrite] at h
    rw [← Prog.state_eq h, BitVec.setWidth_setWidth_of_le _ (by decide),
      BitVec.setWidth_eq]
  · simp only [copWrite64, hm.slot_zero, cop0Write64, hwrite] at h
    rw [← Prog.state_eq h, hv]

/-- Where the timer stands after some checks at times from `t₁` to `tₙ`. -/
structure CheckInv (s : MipsBase T δ) (t₁ tₙ : BitVec 64) (u : MipsBase T δ) : Prop where
  lower : s.timestamp ≤ t₁
  upper : t₁ ≤ tₙ
  timestamp : u.timestamp = tₙ
  timer : u.cop0.timer = ⟨s.cop0.compare, s.cop0.countStartTimestamp, tₙ, false⟩
  fired : u.compareInterrupt = true ↔ s.cop0.Hits s.cop0.compare t₁ tₙ

/-- The first check reports nothing. -/
lemma checkInv_first (hm : m.IsN64) (hiso : m.config.hasIsolateCacheBit = false)
    {s t u : MipsBase T δ} (hsurpress : s.cop0.surpressCompareInterrupt = true)
    (hclear : s.compareInterrupt = false) (hidle : Idle s t)
    (hcheck : checkCompare m t = .ok ((), u)) : CheckInv s t.timestamp t.timestamp u := by
  have hflag : t.cop0.surpressCompareInterrupt = true :=
    (congrArg MipsCop0.Timer.surpressCompareInterrupt hidle.timer).trans hsurpress
  obtain ⟨htimer, hfired, htime⟩ := checkCompare_timer hm hiso hcheck
  rw [MipsCop0.checkCompareInterrupt_surpressed hflag] at htimer hfired
  refine ⟨hidle.timestamp, BitVec.le_refl _, htime, ?_, ?_⟩
  · have hcompare := congrArg MipsCop0.Timer.compare hidle.timer
    have hstart := congrArg MipsCop0.Timer.countStartTimestamp hidle.timer
    rw [htimer, ← show t.cop0.compare = s.cop0.compare from hcompare,
      ← show t.cop0.countStartTimestamp = s.cop0.countStartTimestamp from hstart]
    rfl
  · rw [hfired, hidle.compareInterrupt, hclear]
    refine ⟨fun h => absurd h (by simp), ?_⟩
    rintro ⟨τ, hlo, hhi, -⟩
    exact absurd hlo (BitVec.not_lt.mpr hhi)

/-- A later check reports what happened since the one before. -/
lemma checkInv_next (hm : m.IsN64) (hiso : m.config.hasIsolateCacheBit = false)
    {s u t u' : MipsBase T δ} {t₁ tₙ : BitVec 64}
    (hstart : s.cop0.countStartTimestamp ≤ s.timestamp) (hinv : CheckInv s t₁ tₙ u)
    (hidle : Idle u t) (hgap : (t.timestamp - tₙ).toNat < 2 ^ 32)
    (hcheck : checkCompare m t = .ok ((), u')) : CheckInv s t₁ t.timestamp u' := by
  have htimer := hidle.timer.trans hinv.timer
  have hcompare : t.cop0.compare = s.cop0.compare := congrArg MipsCop0.Timer.compare htimer
  have hcount : t.cop0.countStartTimestamp = s.cop0.countStartTimestamp :=
    congrArg MipsCop0.Timer.countStartTimestamp htimer
  have hlast : t.cop0.lastCompareCheckTimestamp = tₙ :=
    congrArg MipsCop0.Timer.lastCompareCheckTimestamp htimer
  have hflag : t.cop0.surpressCompareInterrupt = false :=
    congrArg MipsCop0.Timer.surpressCompareInterrupt htimer
  have hle : tₙ ≤ t.timestamp := hinv.timestamp ▸ hidle.timestamp
  obtain ⟨hcrossed, hregs⟩ := MipsCop0.checkCompareInterrupt_armed hflag
    (by rw [hcount, hlast]; exact BitVec.le_trans hstart (BitVec.le_trans hinv.lower hinv.upper))
    (by rw [hlast]; exact hle) (by rw [hlast]; exact hgap)
  rw [hlast, hcompare, MipsCop0.hits_congr hcount] at hcrossed
  obtain ⟨hafter, hfired, htime⟩ := checkCompare_timer hm hiso hcheck
  refine ⟨hinv.lower, BitVec.le_trans hinv.upper hle, htime, ?_, ?_⟩
  · rw [hafter, hregs, ← hcompare, ← hcount, ← hflag]
    rfl
  · rw [hfired, hidle.compareInterrupt, Bool.or_eq_true, hinv.fired, hcrossed,
      MipsCop0.hits_split hinv.upper hle]

lemma CheckRun.checkInv (hm : m.IsN64) (hiso : m.config.hasIsolateCacheBit = false)
    {s u : MipsBase T δ} {t₁ tₙ : BitVec 64}
    (hsurpress : s.cop0.surpressCompareInterrupt = true) (hclear : s.compareInterrupt = false)
    (hstart : s.cop0.countStartTimestamp ≤ s.timestamp) (hrun : CheckRun m s t₁ tₙ u) :
    CheckInv s t₁ tₙ u := by
  induction hrun with
  | first hidle hcheck => exact checkInv_first hm hiso hsurpress hclear hidle hcheck
  | next _ hidle hgap hcheck ih => exact checkInv_next hm hiso hstart ih hidle hgap hcheck

/-- With the isolate-cache bit, the interrupt is never raised. -/
lemma CheckRun.isolated (hiso : m.config.hasIsolateCacheBit = true) {s u : MipsBase T δ}
    {t₁ tₙ : BitVec 64} (hclear : s.compareInterrupt = false) (hrun : CheckRun m s t₁ tₙ u) :
    u.compareInterrupt = false := by
  induction hrun with
  | first hidle hcheck =>
      rw [checkCompare_isolated hiso] at hcheck
      rw [← Prog.state_eq hcheck, hidle.compareInterrupt, hclear]
  | next _ hidle _ hcheck ih =>
      rw [checkCompare_isolated hiso] at hcheck
      rw [← Prog.state_eq hcheck, hidle.compareInterrupt, ih]

/-- The condition under which no timer interrupt is lost between a write to `Compare` at
`t₀` and the check at `tₙ`, when the first check is at `t₁`. -/
def NothingLost (m : MipsSetup δ) (cop0 : MipsCop0) (v : BitVec 32) (t₀ t₁ tₙ : BitVec 64) :
    Prop :=
  if m.config.hasIsolateCacheBit then ¬ cop0.Hits v t₀ tₙ
  else cop0.Hits v t₀ t₁ → cop0.Hits v t₁ tₙ

/-- After a write to `Compare`, the interrupt at `tₙ` tells whether `Count` took the value
written in `(t₀, tₙ]` exactly when nothing happened before the first check, or it happened
again after it. -/
theorem compareInterrupt_exact_iff (hm : m.IsN64) {v : BitVec 32} {s₀ s u : MipsBase T δ}
    {t₁ tₙ : BitVec 64} (hreach : s₀.cop0.TimerReachable s₀.timestamp)
    (hwrite : WritesCompare m v s₀ s) (hrun : CheckRun m s t₁ tₙ u) :
    (u.compareInterrupt = true ↔ s.cop0.Hits v s.timestamp tₙ) ↔
      NothingLost m s.cop0 v s.timestamp t₁ tₙ := by
  have hs := hwrite.state hm
  have hsurpress : s.cop0.surpressCompareInterrupt = true := by rw [hs]; rfl
  have hclear : s.compareInterrupt = false := by rw [hs]
  have hcompare : s.cop0.compare = v := by rw [hs]; rfl
  cases hiso : m.config.hasIsolateCacheBit with
  | true =>
      rw [NothingLost, if_pos hiso, hrun.isolated hiso hclear]
      simp
  | false =>
      have hinv := hrun.checkInv hm hiso hsurpress hclear (by
        rw [hs]
        exact hreach.start_le)
      have hfired := hinv.fired
      rw [hcompare] at hfired
      rw [NothingLost, if_neg (by simp [hiso]), hfired, MipsCop0.hits_split hinv.lower hinv.upper]
      exact ⟨fun h hlost => h.mpr (.inl hlost), fun h => ⟨.inr, fun h' => h'.elim h id⟩⟩

/-- `Compare` was written with 1 when `Count` was 0. -/
def armedAtZero : MipsBase MipsTlbNormal WordMemory :=
  { programState 0x80000000 0 [] with cop0 := ({} : MipsCop0).writeCompare 1 }

/-- The processor at a later time. -/
def atCycle (cycle : BitVec 64) (s : MipsBase T δ) : MipsBase T δ :=
  { s with cycleSpentTotal := cycle }

/-- The first check comes when `Count` is 2, the second when it is 3: the interrupt is lost. -/
theorem firstCheck_loses_interrupt :
    WritesCompare (n64Setup {}) 1 (programState 0x80000000 0 []) armedAtZero ∧
      ∃ u, CheckRun (n64Setup {}) armedAtZero 2 3 u ∧
        ¬ (u.compareInterrupt = true ↔ armedAtZero.cop0.Hits 1 armedAtZero.timestamp 3) := by
  refine ⟨.inl rfl, _, .next (t := atCycle 6 (checked (n64Setup {}) (atCycle 4 armedAtZero)))
    (.first (t := atCycle 4 armedAtZero) ⟨rfl, rfl, by decide⟩ rfl) ⟨rfl, rfl, by decide⟩
    (by decide) rfl, fun h => ?_⟩
  exact absurd (h.mpr ⟨1, by decide, by decide, by decide⟩) (by decide)

/-- The state after a check at time 0 and one at time 3, which fires. -/
def firedAtThree : MipsBase MipsTlbNormal WordMemory :=
  { checked (n64Setup {}) (atCycle 6 (checked (n64Setup {}) armedAtZero)) with
    compareInterrupt := true }

/-- A first check while `Count` is still 0 loses nothing. -/
theorem earlyCheck_keeps_interrupt :
    firedAtThree.compareInterrupt = true ↔ armedAtZero.cop0.Hits 1 armedAtZero.timestamp 3 := by
  have hrun : CheckRun (n64Setup {}) armedAtZero 0 3 firedAtThree :=
    .next (t := atCycle 6 (checked (n64Setup {}) armedAtZero))
      (.first (t := armedAtZero) ⟨rfl, rfl, by decide⟩ rfl) ⟨rfl, rfl, by decide⟩ (by decide) rfl
  have hwrite : WritesCompare (n64Setup {}) 1 (programState 0x80000000 0 []) armedAtZero :=
    .inl rfl
  refine (compareInterrupt_exact_iff (n64Setup_isN64 {}) .reset hwrite hrun).mpr ?_
  rintro ⟨τ, hlo, hhi, -⟩
  exact absurd hlo (BitVec.not_lt.mpr hhi)

end MipsBase

end NgMips
