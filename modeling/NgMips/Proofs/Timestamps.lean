import NgMips.Proofs.Count
import NgMips.Proofs.RunCycles
import NgMips.Proofs.TimerLine

/-!
# Time does not go backwards

Coprocessor 0 keeps two times: the one `Count` is counted from, and the one of the last check for
`Compare`.  Neither is ahead of the clock of the processor (`OnTime`): every part of a run lets
some cycles pass and keeps that (`Passes`), as long as the cycle counter does not wrap.  The
branches that would set a time in the future right are never taken (`clock_forward`).
-/

namespace NgMips

namespace MipsCop0

variable (cop0 : MipsCop0) (timestamp : BitVec 64)

/-- `CheckCompareInterrupt` without the branch for a time that went backwards. -/
def checkForward : Bool × MipsCop0 :=
  if cop0.surpressCompareInterrupt then
    (false, { cop0 with
      surpressCompareInterrupt := false
      lastCompareCheckTimestamp := timestamp })
  else if timestamp - cop0.lastCompareCheckTimestamp = 0 then (false, cop0)
  else
    let countStart := (cop0.lastCompareCheckTimestamp - cop0.countStartTimestamp).setWidth 32
    let countEnd := (timestamp - cop0.countStartTimestamp).setWidth 32
    let crossed := decide (cop0.compare - countStart - 1 ≤ countEnd - countStart - 1)
    (crossed, { cop0 with lastCompareCheckTimestamp := timestamp })

variable {cop0 timestamp}

lemma checkCompareInterrupt_of_le (h : cop0.lastCompareCheckTimestamp ≤ timestamp) :
    cop0.checkCompareInterrupt timestamp = cop0.checkForward timestamp := by
  rw [checkCompareInterrupt, checkForward, if_neg (BitVec.not_lt.mpr h)]

/-- A check takes note of the time. -/
lemma checkCompareInterrupt_last (h : cop0.lastCompareCheckTimestamp ≤ timestamp) :
    (cop0.checkCompareInterrupt timestamp).2.lastCompareCheckTimestamp ≤ timestamp := by
  rw [checkCompareInterrupt_of_le h, checkForward]
  split
  · exact BitVec.le_refl _
  · split
    · exact h
    · exact BitVec.le_refl _

end MipsCop0

namespace MipsBase

variable {T δ : Type} {m : MipsSetup δ} {opcode : BitVec 32} {func : MipsInstId}

/-! ## Time that passes -/

/-- Neither saved time is ahead of the clock. -/
structure OnTime (s : MipsBase T δ) : Prop where
  start_le : s.cop0.countStartTimestamp ≤ s.timestamp
  check_le : s.cop0.lastCompareCheckTimestamp ≤ s.timestamp

/-- The two saved times. -/
def savedTimes (s : MipsBase T δ) : BitVec 64 × BitVec 64 :=
  (s.cop0.countStartTimestamp, s.cop0.lastCompareCheckTimestamp)

/-- Some cycles pass; unless the counter of the cycles wraps, the saved times stay behind. -/
structure Passes (k : ℕ) (s u : MipsBase T δ) : Prop where
  total : u.cycleSpentTotal = s.cycleSpentTotal + BitVec.ofNat 64 k
  onTime : s.cycleSpentTotal.toNat + k < 2 ^ 64 → OnTime s → OnTime u

namespace Passes

lemma trans {k l : ℕ} {s t u : MipsBase T δ} (h : Passes k s t) (h' : Passes l t u) :
    Passes (k + l) s u where
  total := by rw [h'.total, h.total, BitVec.add_assoc, BitVec.ofNat_add]
  onTime hfits hs := by
    have htotal : t.cycleSpentTotal.toNat = s.cycleSpentTotal.toNat + k := by
      rw [h.total, BitVec.toNat_add, BitVec.toNat_ofNat]
      omega
    exact h'.onTime (by omega) (h.onTime (by omega) hs)

/-- The saved times stay as they are. -/
lemma of_saved {k : ℕ} {s u : MipsBase T δ}
    (htotal : u.cycleSpentTotal = s.cycleSpentTotal + BitVec.ofNat 64 k)
    (hsaved : u.savedTimes = s.savedTimes) : Passes k s u where
  total := htotal
  onTime hfits hs := by
    have hlater : s.timestamp ≤ u.timestamp := by
      rw [BitVec.le_def, timestamp, timestamp, htotal, BitVec.toNat_ushiftRight,
        BitVec.toNat_ushiftRight, BitVec.toNat_add, BitVec.toNat_ofNat, Nat.shiftRight_eq_div_pow,
        Nat.shiftRight_eq_div_pow]
      omega
    obtain ⟨hstart, hcheck⟩ := Prod.mk.inj hsaved
    exact ⟨hstart ▸ BitVec.le_trans hs.start_le hlater,
      hcheck ▸ BitVec.le_trans hs.check_le hlater⟩

end Passes

/-- Time passes in a running processor. -/
def Elapses (s u : MipsBase T δ) : Prop :=
  ∃ k : ℕ, u.cycleSpent = s.cycleSpent + k ∧ Passes k s u

namespace Elapses

/-- Nothing that has to do with time was changed. -/
lemma of_same {s u : MipsBase T δ} (hclock : SameClock s u)
    (hsaved : u.savedTimes = s.savedTimes) : Elapses s u := by
  simp only [SameClock, clock, Prod.mk.injEq] at hclock
  exact ⟨0, hclock.1, .of_saved (by simp [hclock.2.2]) hsaved⟩

/-- No time passes, and the saved times stay behind. -/
lemma of_onTime {s u : MipsBase T δ} (hclock : SameClock s u) (h : OnTime s → OnTime u) :
    Elapses s u := by
  simp only [SameClock, clock, Prod.mk.injEq] at hclock
  exact ⟨0, hclock.1, by simp [hclock.2.2], fun _ => h⟩

lemma refl (s : MipsBase T δ) : Elapses s s := of_same (.refl s) rfl

lemma trans {s t u : MipsBase T δ} (h : Elapses s t) (h' : Elapses t u) : Elapses s u := by
  obtain ⟨k, hspent, hpasses⟩ := h
  obtain ⟨l, hspent', hpasses'⟩ := h'
  exact ⟨k + l, by omega, hpasses.trans hpasses'⟩

end Elapses

/-! ## Checks and fetches -/

section Parts

variable [MipsTlbBase T]

omit [MipsTlbBase T] in
lemma SameTimer.savedTimes {s u : MipsBase T δ} (h : SameTimer s u) :
    u.savedTimes = s.savedTimes :=
  Prod.ext (congrArg MipsCop0.Timer.countStartTimestamp h.timer)
    (congrArg MipsCop0.Timer.lastCompareCheckTimestamp h.timer)

lemma elapses_checkInterrupt (hm : m.IsN64) : Prog.Moves Elapses (checkInterrupt (T := T) m) :=
  fun s _ u h => .of_same (sameClock_internals internal_checkInterrupt s _ u h)
    (checkInterrupt_sameTimer hm h).savedTimes

lemma elapses_checkCompare (hm : m.IsN64) : Prog.Moves Elapses (checkCompare (T := T) m) := by
  intro s _ u h
  cases hiso : m.config.hasIsolateCacheBit with
  | true =>
      rw [← Prog.state_eq ((checkCompare_isolated hiso s).symm.trans h)]
      exact .refl s
  | false =>
      obtain ⟨htimer, -, htime⟩ := checkCompare_timer hm hiso h
      obtain ⟨last, surpress, hstate⟩ := s.cop0.checkCompareInterrupt_state s.timestamp
      have hstart : u.cop0.countStartTimestamp = s.cop0.countStartTimestamp := by
        rw [hstate] at htimer
        exact congrArg MipsCop0.Timer.countStartTimestamp htimer
      have hlast : u.cop0.lastCompareCheckTimestamp =
          (s.cop0.checkCompareInterrupt s.timestamp).2.lastCompareCheckTimestamp :=
        congrArg MipsCop0.Timer.lastCompareCheckTimestamp htimer
      refine .of_onTime (sameClock_internals internal_checkCompare s _ u h) fun hs => ⟨?_, ?_⟩
      · rw [hstart, htime]
        exact hs.start_le
      · rw [htime, hlast]
        exact MipsCop0.checkCompareInterrupt_last hs.check_le

lemma elapses_beginRun (hm : m.IsN64) {s t : MipsBase T δ} (h : beginRun m s = .ok ((), t)) :
    Elapses { s with cycleSpent := 0 } t := by
  rw [beginRun] at h
  split at h
  · rw [← Prog.state_eq h]
    exact .refl _
  · exact Prog.Moves.bind (fun _ _ _ => .trans) (elapses_checkInterrupt hm)
      (fun _ => elapses_checkCompare hm) _ () t h

lemma elapses_poll (hm : m.IsN64) : Prog.Moves Elapses (poll (T := T) m) := by
  intro s _ u h
  cases poll_cases hm h with
  | counts _ hstate =>
      rw [hstate]
      exact .of_same rfl rfl
  | looks _ t hcheck hcompare =>
      have hfirst : Elapses s (polling s) := .of_same rfl rfl
      exact (hfirst.trans (elapses_checkInterrupt hm _ () t hcheck)).trans
        (elapses_checkCompare hm t () u hcompare)

lemma elapses_fetch (hm : m.IsN64) (address : BitVec 64) :
    Prog.Moves Elapses (fetch (T := T) m address) := by
  intro s word u h
  refine .of_same (sameClock_internals (internal_fetch address) s word u h) ?_
  cases hfound : (translateAddress s.tlb address).found with
  | true =>
      rw [fetch_found hfound] at h
      rw [← Prog.state_eq h]
      rfl
  | false =>
      rw [fetch, fetchWith_fault hm _ hfound] at h
      cases htrigger : triggerException m .kTlbMissLoad (faulted address s) with
      | error e => exact absurd h (by simp [htrigger, Except.map])
      | ok r =>
          rw [htrigger] at h
          rw [← (Prog.ok_inj h).2, (triggerException_outcome hm htrigger).sameTimer.savedTimes]
          rfl

/-- The fetches. -/
inductive FetchElem (m : MipsSetup δ) : (α : Type) → CpuM T δ α → Prop
  | fetch (address : BitVec 64) : FetchElem m _ (fetch m address)

lemma elapses_enterBlock (hm : m.IsN64) : Prog.Moves Elapses (enterBlock (T := T) m) := by
  refine moves_enterBlock_of_build .refl (fun _ _ _ => .trans) (fun address => ?_)
    fun s c => .of_same rfl rfl
  have hbuild : Prog.Built (FetchElem m) (buildBlock (T := T) m address) :=
    built_buildBlock (fun address => .op (.fetch address)) address
  refine hbuild.moves .refl (fun _ _ _ => .trans) fun α x hx => ?_
  cases hx with
  | fetch address => exact elapses_fetch hm address

/-! ## Handlers -/

/-- What an operation of a handler does: one that may skip an idle loop has nothing to do with
coprocessor 0, and in the others no time passes. -/
def TimesKept (func : MipsInstId) (s s' : MipsBase T δ) : Prop :=
  (func.skipsIdle = true → s'.savedTimes = s.savedTimes) ∧
    (func.skipsIdle = false → s'.timestamp = s.timestamp ∧ (OnTime s → OnTime s'))

omit [MipsTlbBase T] in
lemma TimesKept.refl (s : MipsBase T δ) : TimesKept func s s :=
  ⟨fun _ => rfl, fun _ => ⟨rfl, id⟩⟩

omit [MipsTlbBase T] in
lemma TimesKept.trans {s t u : MipsBase T δ} (h : TimesKept func s t) (h' : TimesKept func t u) :
    TimesKept func s u :=
  ⟨fun hidle => (h'.1 hidle).trans (h.1 hidle), fun hidle =>
    ⟨(h'.2 hidle).1.trans (h.2 hidle).1, fun hs => (h'.2 hidle).2 ((h.2 hidle).2 hs)⟩⟩

omit [MipsTlbBase T] in
lemma TimesKept.of_saved {s s' : MipsBase T δ} (hsaved : s'.savedTimes = s.savedTimes)
    (htime : func.skipsIdle = false → s'.timestamp = s.timestamp) : TimesKept func s s' := by
  refine ⟨fun _ => hsaved, fun hidle => ⟨htime hidle, fun hs => ?_⟩⟩
  obtain ⟨hstart, hcheck⟩ := Prod.mk.inj hsaved
  exact ⟨by rw [hstart, htime hidle]; exact hs.start_le,
    by rw [hcheck, htime hidle]; exact hs.check_le⟩

/-- A write to coprocessor 0 leaves `Count` behind the clock. -/
lemma cop0Write_onTime {context value : BitVec 64} {idx : ℕ} {s s' : MipsBase T δ}
    (h : cop0Write context idx value s = .ok ((), s')) :
    s'.clock = s.clock ∧ (OnTime s → OnTime s') := by
  rw [cop0Write.eq_def] at h
  split at h
  case h_8 =>
    rw [← Prog.state_eq h]
    refine ⟨rfl, fun hs => ⟨MipsCop0.writeCount_start_le _ _ _, ?_⟩⟩
    have hlast : (s.cop0.writeCount s.timestamp (value.setWidth 32)).lastCompareCheckTimestamp =
        s.cop0.lastCompareCheckTimestamp := by
      rw [MipsCop0.writeCount]
      split <;> rfl
    exact hlast ▸ hs.check_le
  all_goals
    rw [← Prog.state_eq h]
    exact ⟨rfl, fun hs => ⟨hs.start_le, hs.check_le⟩⟩

omit [MipsTlbBase T] in
lemma getCount_onTime {s : MipsBase T δ} (hs : OnTime s) :
    (s.cop0.getCount s.timestamp).2 = s.cop0 := by
  rw [MipsCop0.getCount_of_le hs.start_le]

lemma timesKept_step (s s' : MipsBase T δ) (h : RegStep m opcode func s s') :
    TimesKept func s s' := by
  cases h with
  | keeps hkept => exact .of_saved (by rw [savedTimes, hkept.cop0]; rfl) hkept.timestamp
  | reads hidx hcop0 _ htime =>
      have hidle : func.skipsIdle = false := by
        cases func <;> first | rfl | exact absurd hidx (by simp [MipsInstId.copReadIdx])
      refine ⟨fun h => absurd (hidle.symm.trans h) (by simp), fun _ => ⟨htime, fun hs => ?_⟩⟩
      rw [getCount_onTime hs] at hcop0
      exact ⟨by rw [hcop0, htime]; exact hs.start_le, by rw [hcop0, htime]; exact hs.check_le⟩
  | writes _ _ hidx hwrite =>
      have hidle : func.skipsIdle = false := by
        cases func <;> first | rfl | exact absurd hidx (by simp [MipsInstId.copWriteIdx])
      obtain ⟨hclock, honTime⟩ := cop0Write_onTime hwrite
      refine ⟨fun h => absurd (hidle.symm.trans h) (by simp), fun _ => ⟨?_, honTime⟩⟩
      rw [timestamp, timestamp, (Prod.mk.inj (Prod.mk.inj hclock).2).2]
  | returns _ _ _ hcop0 _ htime => exact .of_saved (by rw [savedTimes, hcop0]; rfl) fun _ => htime

/-- A handler keeps the saved times behind the clock. -/
lemma timesKept_callInst (hm : m.IsN64) {s t : MipsBase T δ}
    (h : callInst m opcode func s = .ok ((), t)) : TimesKept func s t := by
  rcases callInst_cases hm h with ⟨cause, u, -, hreport, htrigger⟩ | ⟨x, hx, hact⟩
  · have hsame := (triggerException_outcome hm htrigger).sameTimer
    have hreported : TimesKept func s u := by
      cases hreport <;> exact .of_saved rfl fun _ => rfl
    exact hreported.trans (.of_saved hsame.savedTimes fun _ => hsame.timestamp)
  · exact act_regs timesKept_step hm .refl (fun _ _ _ => .trans) hx hact

lemma elapses_callInst (hm : m.IsN64) {s t : MipsBase T δ}
    (h : callInst m opcode func s = .ok ((), t)) : Elapses s t := by
  have hskipped := callInst_skipped h
  obtain ⟨hsaved, hkept⟩ := timesKept_callInst hm h
  cases hidle : func.skipsIdle with
  | true => exact ⟨_, hskipped.cycleSpent, .of_saved hskipped.cycleSpentTotal (hsaved hidle)⟩
  | false =>
      have hno : ¬ SkipsIdle m opcode func s := by
        rintro ⟨⟨rfl, -⟩ | ⟨rfl, -⟩, -⟩ <;> exact absurd hidle (by decide)
      rw [if_neg hno] at hskipped
      exact ⟨_, hskipped.cycleSpent, hskipped.cycleSpentTotal, fun _ => (hkept hidle).2⟩

/-! ## Rounds -/

omit [MipsTlbBase T] in
lemma elapses_countCycles (executed : ℕ) :
    Prog.Moves Elapses (countCycles (T := T) m executed) :=
  .of_modify fun _ => ⟨_, rfl, .of_saved rfl rfl⟩

omit [MipsTlbBase T] in
/-- The handler is called in a state that differs in the reports and in the jump only. -/
lemma elapses_started (opcode : BitVec 32) (s : MipsBase T δ) : Elapses s (started opcode s) := by
  rw [started, advanced]
  split <;> exact .of_same rfl rfl

lemma elapses_runEntry (hm : m.IsN64) (entry : MipsCacheEntry) :
    Prog.Moves Elapses (runEntry (T := T) m entry) := by
  intro s _ u h
  obtain ⟨t, hcall, rfl⟩ := runEntry_ok.mp h
  exact ((elapses_started entry.opcode s).trans (elapses_callInst hm hcall)).trans
    (.of_same rfl rfl)

lemma elapses_runInst (hm : m.IsN64) : Prog.Moves Elapses (runInst (T := T) m) := by
  intro s _ u h
  obtain ⟨opcode, t₀, t, hfetch, hcall, rfl⟩ := runInst_ok.mp h
  have hhandler := ((elapses_fetch hm s.pc s opcode t₀ hfetch).trans
    (elapses_started opcode t₀)).trans (elapses_callInst hm hcall)
  have hstepped : Elapses t (stepped (BitVec.allOnes 64) t) := .of_same rfl rfl
  exact (hhandler.trans hstepped).trans ⟨_, rfl, .of_saved rfl rfl⟩

lemma elapses_runBlock (hm : m.IsN64) (entries : List MipsCacheEntry) :
    Prog.Moves Elapses (runBlock (T := T) m entries) :=
  moves_runBlock .refl (fun _ _ _ => .trans) fun entry _ => elapses_runEntry hm entry

lemma elapses_runCachedBlock (hm : m.IsN64) :
    Prog.Moves Elapses (runCachedBlock (T := T) m) := by
  rw [runCachedBlock_eq]
  exact .bind (fun _ _ _ => .trans) (elapses_enterBlock hm) fun block =>
    .bind (fun _ _ _ => .trans) (elapses_runBlock hm block.entries) fun executed =>
    elapses_countCycles executed

omit [MipsTlbBase T] in
/-- A halted processor lets the cycles pass that are left. -/
lemma passes_passCycles {cycle r : ℤ} {s u : MipsBase T δ}
    (h : passCycles cycle s = .ok (r, u)) :
    ∃ k : ℕ, r = s.cycleSpent + (k : ℤ) ∧ Passes k s u := by
  rw [passCycles, Prog.bind_of_ok (read_run _ _)] at h
  split at h
  · next hlt =>
    obtain ⟨rfl, rfl⟩ := Prog.ok_inj h
    obtain ⟨k, hk⟩ : ∃ k : ℕ, cycle - s.cycleSpent = k := ⟨(cycle - s.cycleSpent).toNat, by omega⟩
    refine ⟨k, by omega, .of_saved ?_ rfl⟩
    change s.cycleSpentTotal + BitVec.ofInt 64 (cycle - s.cycleSpent) = _
    rw [hk, BitVec.ofInt_natCast]
  · obtain ⟨rfl, rfl⟩ := Prog.ok_inj h
    exact ⟨0, by omega, .of_saved (by simp) rfl⟩

omit [MipsTlbBase T] in
/-- A loop returns the cycles that have passed since the run began. -/
lemma passes_runLoop {before step : CpuM T δ Unit} (hbefore : Prog.Moves Elapses before)
    (hstep : Prog.Moves Elapses step) {cycle r : ℤ} {n : ℕ} {s u : MipsBase T δ}
    (h : runLoop before step cycle n s = .ok (r, u)) :
    ∃ k : ℕ, r = s.cycleSpent + (k : ℤ) ∧ Passes k s u := by
  induction n generalizing s with
  | zero => exact absurd h (by simp [runLoop])
  | succ n ih =>
      rw [runLoop, Prog.bind_of_ok (read_run _ _)] at h
      split at h
      · obtain ⟨⟨⟩, t, hrun, hrest⟩ := Prog.bind_ok.mp h
        obtain ⟨k, hspent, hpasses⟩ := hbefore s () t hrun
        rw [Prog.bind_of_ok (read_run _ _)] at hrest
        split at hrest
        · obtain ⟨l, hr, hpasses'⟩ := passes_passCycles hrest
          exact ⟨k + l, by omega, hpasses.trans hpasses'⟩
        · obtain ⟨⟨⟩, t', hrun', hnext⟩ := Prog.bind_ok.mp hrest
          obtain ⟨k', hspent', hpasses'⟩ := hstep t () t' hrun'
          obtain ⟨l, hr, hlast⟩ := ih hnext
          exact ⟨k + k' + l, by omega, (hpasses.trans hpasses').trans hlast⟩
      · obtain ⟨rfl, rfl⟩ := Prog.ok_inj h
        exact ⟨0, by omega, .of_saved (by simp) rfl⟩

/-- `Run` returns the cycles that have passed. -/
lemma passes_run (hm : m.IsN64) {fuel : ℕ} {cycle r : ℤ} {s u : MipsBase T δ}
    (h : run m fuel cycle s = .ok (r, u)) : ∃ k : ℕ, r = (k : ℤ) ∧ Passes k s u := by
  obtain ⟨t₀, hbegin⟩ := run_begun h
  obtain ⟨k, hspent, hpasses⟩ : ∃ k : ℕ, t₀.cycleSpent = 0 + k ∧
      Passes k { s with cycleSpent := 0 } t₀ := elapses_beginRun hm hbegin
  have hzero : Passes 0 s { s with cycleSpent := 0 } := .of_saved (by simp) rfl
  rw [run_begin hbegin] at h
  split at h
  · obtain ⟨l, hr, hlast⟩ := passes_runLoop (elapses_poll hm) (elapses_runCachedBlock hm) h
    exact ⟨0 + k + l, by omega, (hzero.trans hpasses).trans hlast⟩
  · obtain ⟨l, hr, hlast⟩ := passes_runLoop (.of_pure .refl ()) (elapses_runInst hm) h
    exact ⟨0 + k + l, by omega, (hzero.trans hpasses).trans hlast⟩

/-! ## Inside a run -/

omit [MipsTlbBase T] in
lemma mem_callsAfter {α : Type} {x : CpuM T δ α} {next : α → MipsBase T δ → List (HandlerCall T δ)}
    {s : MipsBase T δ} {c : HandlerCall T δ} (h : c ∈ callsAfter x next s) :
    ∃ a t, x s = .ok (a, t) ∧ c ∈ next a t := by
  cases hx : x s with
  | ok r =>
      rw [callsAfter_ok hx] at h
      exact ⟨r.1, r.2, rfl, h⟩
  | error e =>
      rw [callsAfter_error hx] at h
      exact absurd h List.not_mem_nil

lemma elapses_entriesCalls (hm : m.IsN64) {entries : List MipsCacheEntry} {s : MipsBase T δ}
    {c : HandlerCall T δ} (h : c ∈ entriesCalls m entries s) : Elapses s c.state := by
  induction entries generalizing s with
  | nil => exact absurd h List.not_mem_nil
  | cons entry rest ih =>
      rw [entriesCalls] at h
      split at h
      · rcases List.mem_cons.mp h with rfl | hlater
        · exact elapses_started entry.opcode s
        · obtain ⟨⟨⟩, t, hrun, hmem⟩ := mem_callsAfter hlater
          exact (elapses_runEntry hm entry s () t hrun).trans (ih hmem)
      · exact absurd h List.not_mem_nil

lemma elapses_cachedCalls (hm : m.IsN64) {s : MipsBase T δ} {c : HandlerCall T δ}
    (h : c ∈ cachedCalls m s) : Elapses s c.state := by
  obtain ⟨block, t, henter, hmem⟩ := mem_callsAfter h
  refine (elapses_enterBlock hm s block t henter).trans ?_
  cases hentries : block.entries with
  | nil =>
      rw [hentries] at hmem
      exact absurd hmem List.not_mem_nil
  | cons entry rest =>
      rw [hentries, blockCalls] at hmem
      rcases List.mem_cons.mp hmem with rfl | hlater
      · exact elapses_started entry.opcode t
      · obtain ⟨⟨⟩, t', hrun, hrest⟩ := mem_callsAfter hlater
        exact (elapses_runEntry hm entry t () t' hrun).trans (elapses_entriesCalls hm hrest)

lemma elapses_instCalls (hm : m.IsN64) {s : MipsBase T δ} {c : HandlerCall T δ}
    (h : c ∈ instCalls m s) : Elapses s c.state := by
  obtain ⟨opcode, t, hfetch, hmem⟩ := mem_callsAfter h
  rw [List.mem_singleton.mp hmem]
  exact (elapses_fetch hm s.pc s opcode t hfetch).trans (elapses_started opcode t)

omit [MipsTlbBase T] in
lemma elapses_loopCalls {before step : CpuM T δ Unit}
    {calls : MipsBase T δ → List (HandlerCall T δ)} (hbefore : Prog.Moves Elapses before)
    (hstep : Prog.Moves Elapses step) (hcalls : ∀ t, ∀ c ∈ calls t, Elapses t c.state)
    {cycle : ℤ} {n : ℕ} {s : MipsBase T δ} {c : HandlerCall T δ}
    (h : c ∈ loopCalls before step calls cycle n s) : Elapses s c.state := by
  induction n generalizing s with
  | zero => exact absurd h List.not_mem_nil
  | succ n ih =>
      rw [loopCalls] at h
      split at h
      · obtain ⟨⟨⟩, t, hrun, hmem⟩ := mem_callsAfter h
        refine (hbefore s () t hrun).trans ?_
        split at hmem
        · exact absurd hmem List.not_mem_nil
        · rcases List.mem_append.mp hmem with hnow | hlater
          · exact hcalls t c hnow
          · obtain ⟨⟨⟩, t', hrun', hrest⟩ := mem_callsAfter hlater
            exact (hstep t () t' hrun').trans (ih hrest)
      · exact absurd h List.not_mem_nil

variable (m) in
/-- Where a run looks at the time: behind an instruction, where a handler is called, and where
`Count` is compared with `Compare`, before the loop or in a poll. -/
inductive During (fuel : ℕ) (cycle : ℤ) (s : MipsBase T δ) : MipsBase T δ → Prop
  | boundary {rest : List MipsCacheEntry} {k n : ℕ} {u : MipsBase T δ}
      (h : RunPoint m fuel cycle s rest k n u) : During fuel cycle s u
  | handler {c : HandlerCall T δ} (h : c ∈ runCalls m fuel cycle s) : During fuel cycle s c.state
  | beginCheck {u : MipsBase T δ} (hmode : m.config.useCachedInterpreter = false)
      (hcheck : checkInterrupt m { s with cycleSpent := 0 } = .ok ((), u)) : During fuel cycle s u
  | pollCheck {n : ℕ} {t₀ t u : MipsBase T δ} (hmode : m.config.useCachedInterpreter = true)
      (hbegin : beginRun m s = .ok ((), t₀))
      (hloop : LoopPoint (poll m) (runCachedBlock m) cycle fuel t₀ n t)
      (hcycle : (t.cycleSpent : ℤ) < cycle)
      (hdue : kInterruptCheckInterval ≤ t.interruptPollCounter + 1)
      (hcheck : checkInterrupt m (polling t) = .ok ((), u)) : During fuel cycle s u

lemma elapses_runCalls (hm : m.IsN64) {fuel : ℕ} {cycle : ℤ} {s : MipsBase T δ}
    {c : HandlerCall T δ} (h : c ∈ runCalls m fuel cycle s) :
    Elapses { s with cycleSpent := 0 } c.state := by
  rw [runCalls] at h
  cases hbegin : beginRun m s with
  | error e =>
      rw [hbegin] at h
      exact absurd h List.not_mem_nil
  | ok first =>
      rw [hbegin] at h
      refine (elapses_beginRun hm hbegin).trans ?_
      dsimp only at h
      split at h
      · exact elapses_loopCalls (elapses_poll hm) (elapses_runCachedBlock hm)
          (fun t c => elapses_cachedCalls hm) h
      · exact elapses_loopCalls (.of_pure .refl ()) (elapses_runInst hm)
          (fun t c => elapses_instCalls hm) h

/-- From the start of a run to any of these places time passes. -/
lemma elapses_during (hm : m.IsN64) {fuel : ℕ} {cycle : ℤ} {s u : MipsBase T δ}
    (h : During m fuel cycle s u) : Elapses { s with cycleSpent := 0 } u := by
  have hloop : ∀ {n : ℕ} {t₀ t : MipsBase T δ}, beginRun m s = .ok ((), t₀) →
      LoopPoint (poll m) (runCachedBlock m) cycle fuel t₀ n t →
      Elapses { s with cycleSpent := 0 } t := fun hbegin hpoint =>
    (elapses_beginRun hm hbegin).trans
      (hpoint.moves .refl (fun _ _ _ => .trans) (elapses_poll hm) (elapses_runCachedBlock hm))
  cases h with
  | boundary h =>
      cases h with
      | plain _ hbegin hpoint _ _ hrun =>
          have hrounds := hpoint.moves .refl (fun _ _ _ => .trans) (.of_pure .refl ())
            (elapses_runInst hm)
          exact ((elapses_beginRun hm hbegin).trans hrounds).trans
            (elapses_runInst hm _ () u hrun)
      | cached _ hbegin hpoint _ hpoll _ hblock hentries =>
          have hround := (elapses_poll hm _ () _ hpoll).trans
            (elapses_enterBlock hm _ _ _ hblock)
          exact ((hloop hbegin hpoint).trans hround).trans
            (hentries.moves (fun _ _ _ => .trans) fun entry _ => elapses_runEntry hm entry).1
  | handler h => exact elapses_runCalls hm h
  | beginCheck _ hcheck => exact elapses_checkInterrupt hm _ () u hcheck
  | pollCheck _ hbegin hpoint _ _ hcheck =>
      have hpolling : ∀ t : MipsBase T δ, Elapses t (polling t) := fun t => .of_same rfl rfl
      exact ((hloop hbegin hpoint).trans (hpolling _)).trans
        (elapses_checkInterrupt hm _ () u hcheck)

/-! ## Every reachable state -/

variable (m) in
/-- What follows from being on time: no check finds that time went backwards, `Count` is not set
right when it is read, and reading it changes nothing but the register it is read into. -/
structure Forward (s : MipsBase T δ) : Prop where
  onTime : OnTime s
  check : s.cop0.checkCompareInterrupt s.timestamp = s.cop0.checkForward s.timestamp
  count : s.cop0.getCount s.timestamp =
    ((s.timestamp - s.cop0.countStartTimestamp).setWidth 32, s.cop0)
  read32 : copRead32 m 0#2 9 s =
    .ok ((s.timestamp - s.cop0.countStartTimestamp).setWidth 32, s)
  read64 : copRead64 m 0#2 9 s =
    .ok (((s.timestamp - s.cop0.countStartTimestamp).setWidth 32).setWidth 64, s)
  readInternal : copRead32Internal m 9 s =
    .ok ((s.timestamp - s.cop0.countStartTimestamp).setWidth 32, s)
  inst : ∀ opcode, readsReg m 9 opcode = true →
    callInst m opcode (getInstFuncPtr m.kIs64Bit opcode) s =
      writeGpr64 (rtField opcode) (movedValue opcode
        (((s.timestamp - s.cop0.countStartTimestamp).setWidth 32).setWidth 64)) s

lemma OnTime.forward (hm : m.IsN64) {s : MipsBase T δ} (hs : OnTime s) : Forward m s := by
  have hcount := MipsCop0.getCount_of_le hs.start_le
  have hport : (onCop0 fun ts cop0 => cop0.getCount ts : CpuM T δ (BitVec 32)) s =
      .ok ((s.timestamp - s.cop0.countStartTimestamp).setWidth 32, s) := by
    rw [onCop0, hcount]
  have hread : cop0Read64 (T := T) (δ := δ) 9 s =
      .ok (((s.timestamp - s.cop0.countStartTimestamp).setWidth 32).setWidth 64, s) :=
    Prog.bind_of_ok hport
  refine ⟨hs, MipsCop0.checkCompareInterrupt_of_le hs.check_le, hcount, ?_, ?_, ?_, ?_⟩
  · rw [copRead32, hm.slot_zero]
    change cop0Read32 9 s = _
    rw [cop0Read32, Prog.bind_of_ok hread, Prog.pure_run,
      BitVec.setWidth_setWidth_of_le _ (by decide), BitVec.setWidth_eq]
  · rw [copRead64, hm.slot_zero]
    exact hread
  · rw [copRead32Internal, hm.slot_zero]
    exact hport
  · intro opcode hreads
    rw [callInst_readsReg hm hreads]
    exact Prog.bind_of_ok hread

variable (m) in
/-- What else is called from outside: the ports of coprocessor 0 and the checks. -/
inductive PortCall : (α : Type) → CpuM T δ α → Prop
  | read32 (idx : ℕ) : PortCall _ (copRead32 m 0#2 idx)
  | read64 (idx : ℕ) : PortCall _ (copRead64 m 0#2 idx)
  | write32 (idx : ℕ) (value : BitVec 32) : PortCall _ (copWrite32 m 0#2 idx value)
  | write64 (idx : ℕ) (value : BitVec 64) : PortCall _ (copWrite64 m 0#2 idx value)
  | checkCompare : PortCall _ (checkCompare m)
  | checkInterrupt : PortCall _ (checkInterrupt m)

/-- The cycles since the last `Reset`, after a call that returned `r`. -/
def cyclesAfter (n : ℕ) (r : Option ℤ) : MipsCall δ → ℕ
  | .reset => 0
  | _ => n + (r.getD 0).toNat

variable (m) in
/-- The states between calls, with the cycles that have passed since the last `Reset`: the sum of
what `Run` has returned. -/
inductive Elapsed : ℕ → MipsBase T δ → Prop
  /-- As constructed. -/
  | constructed {s : MipsBase T δ} (htotal : s.cycleSpentTotal = 0) (hcop0 : s.cop0 = {}) :
      Elapsed 0 s
  | call {n : ℕ} {s s' : MipsBase T δ} {call : MipsCall δ} {r : Option ℤ} (h : Elapsed n s)
      (hrun : perform m call s = .ok (r, s')) : Elapsed (cyclesAfter n r call) s'
  | port {n : ℕ} {s s' : MipsBase T δ} {α : Type} {x : CpuM T δ α} {a : α} (h : Elapsed n s)
      (hx : PortCall m α x) (hrun : x s = .ok (a, s')) : Elapsed n s'

/-- The counter shows the cycles that have passed, and until it wraps the saved times are
behind. -/
structure Shows (n : ℕ) (s : MipsBase T δ) : Prop where
  total : s.cycleSpentTotal = BitVec.ofNat 64 n
  onTime : n < 2 ^ 64 → OnTime s

omit [MipsTlbBase T] in
lemma Shows.passes {n k : ℕ} {s u : MipsBase T δ} (h : Shows n s) (hk : Passes k s u) :
    Shows (n + k) u where
  total := by rw [hk.total, h.total, BitVec.ofNat_add]
  onTime hfits := by
    have htotal : s.cycleSpentTotal.toNat = n := by
      rw [h.total, BitVec.toNat_ofNat, Nat.mod_eq_of_lt (by omega)]
    exact hk.onTime (by omega) (h.onTime (by omega))

omit [MipsTlbBase T] in
lemma passes_zero {s u : MipsBase T δ} (hclock : u.clock = s.clock) (h : OnTime s → OnTime u) :
    Passes 0 s u :=
  ⟨by simp [(Prod.mk.inj (Prod.mk.inj hclock).2).2], fun _ => h⟩

lemma passes_cop0Read64 (idx : ℕ) : Prog.Moves (Passes 0) (cop0Read64 (T := T) (δ := δ) idx) := by
  intro s a u h
  rw [cop0Read64.eq_def] at h
  split at h
  case h_2 =>
    obtain ⟨rn, t, hrandom, hrest⟩ := Prog.bind_ok.mp h
    obtain ⟨state, rfl⟩ := readRandom_ok hrandom
    rw [← Prog.state_eq hrest]
    exact .of_saved (by simp) rfl
  case h_9 =>
    rw [← Prog.state_eq h]
    refine passes_zero rfl fun hs => ?_
    change OnTime { s with cop0 := (s.cop0.getCount s.timestamp).2 }
    rw [getCount_onTime hs]
    exact ⟨hs.start_le, hs.check_le⟩
  all_goals
    rw [← Prog.state_eq h]
    exact .of_saved (by simp) rfl

lemma passes_cop0Write {context value : BitVec 64} {idx : ℕ} :
    Prog.Moves (Passes 0) (cop0Write (T := T) (δ := δ) context idx value) := fun _ _ _ h =>
  passes_zero (cop0Write_onTime h).1 (cop0Write_onTime h).2

omit [MipsTlbBase T] in
lemma Elapses.passes_of_clock {s u : MipsBase T δ} (h : Elapses s u) (hclock : SameClock s u) :
    Passes 0 s u := by
  obtain ⟨k, hspent, hpasses⟩ := h
  have hk : k = 0 := by
    have hsame : u.cycleSpent = s.cycleSpent := (Prod.mk.inj hclock).1
    omega
  exact hk ▸ hpasses

/-- No time passes in a call from outside but `Run`. -/
lemma passes_portCall (hm : m.IsN64) {α : Type} {x : CpuM T δ α} (hx : PortCall m α x) :
    Prog.Moves (Passes 0) x := by
  intro s a u h
  cases hx with
  | read32 idx =>
      rw [copRead32, hm.slot_zero] at h
      obtain ⟨value, t, hread, hrest⟩ := Prog.bind_ok.mp h
      rw [← Prog.state_eq hrest]
      exact passes_cop0Read64 idx s value t hread
  | read64 idx =>
      rw [copRead64, hm.slot_zero] at h
      exact passes_cop0Read64 idx s a u h
  | write32 idx value =>
      rw [copWrite32, hm.slot_zero] at h
      exact passes_cop0Write s a u h
  | write64 idx value =>
      rw [copWrite64, hm.slot_zero] at h
      exact passes_cop0Write s a u h
  | checkCompare =>
      exact (elapses_checkCompare hm s a u h).passes_of_clock
        (sameClock_internals internal_checkCompare s a u h)
  | checkInterrupt =>
      exact (elapses_checkInterrupt hm s a u h).passes_of_clock
        (sameClock_internals internal_checkInterrupt s a u h)

/-- `Reset` sets the clock and the saved times back. -/
lemma reset_shows (hm : m.IsN64) (s : MipsBase T δ) : Shows 0 (reset m s) := by
  have htotal : (reset m s).cycleSpentTotal = 0 := by simp only [reset, resetCop_eq]
  refine ⟨htotal, fun _ => ⟨?_, ?_⟩⟩
  · rw [(reset_line hm s).1]
    exact Nat.zero_le _
  · rw [(reset_line hm s).1]
    exact Nat.zero_le _

lemma Shows.perform (hm : m.IsN64) {n : ℕ} {s s' : MipsBase T δ} (h : Shows n s)
    {call : MipsCall δ} {r : Option ℤ} (hrun : perform m call s = .ok (r, s')) :
    Shows (cyclesAfter n r call) s' := by
  have hsame : ∀ {u : MipsBase T δ}, u.cycleSpentTotal = s.cycleSpentTotal →
      u.savedTimes = s.savedTimes → Shows (n + 0) u := fun htotal hsaved =>
    h.passes (.of_saved (by simp [htotal]) hsaved)
  cases call with
  | reset =>
      obtain ⟨rfl, rfl⟩ := Prog.ok_inj hrun
      exact reset_shows hm s
  | run fuel cycle =>
      obtain ⟨spent, t, hloop, hrest⟩ := Prog.bind_ok.mp hrun
      obtain ⟨rfl, rfl⟩ := Prog.ok_inj hrest
      obtain ⟨k, rfl, hpasses⟩ := passes_run hm hloop
      exact h.passes hpasses
  | setGpr idx value =>
      obtain ⟨rfl, gpr, -, rfl⟩ := perform_setGpr hrun
      exact hsame rfl rfl
  | _ =>
      obtain ⟨rfl, rfl⟩ := Prog.ok_inj hrun
      exact hsame rfl rfl

lemma Elapsed.shows (hm : m.IsN64) {n : ℕ} {s : MipsBase T δ} (h : Elapsed m n s) : Shows n s := by
  induction h with
  | constructed htotal hcop0 =>
      refine ⟨htotal, fun _ => ⟨?_, ?_⟩⟩
      · rw [hcop0]
        exact Nat.zero_le _
      · rw [hcop0]
        exact Nat.zero_le _
  | call _ hrun ih => exact ih.perform hm hrun
  | port _ hx hrun ih => exact ih.passes (passes_portCall hm hx _ _ _ hrun)

/-- **Time never goes backwards.**  In every state reached by calls from outside, and wherever a
run from there looks at the time, the counter shows the cycles since the last `Reset`; as long as
it has not wrapped, neither saved time is ahead. -/
theorem clock_forward (hm : m.IsN64) {n : ℕ} {s : MipsBase T δ} (h : Elapsed m n s) :
    s.cycleSpentTotal = BitVec.ofNat 64 n ∧ (n < 2 ^ 64 → Forward m s) ∧
      ∀ fuel cycle u, During m fuel cycle s u →
        u.cycleSpentTotal = BitVec.ofNat 64 (n + u.cycleSpent) ∧
          (n + u.cycleSpent < 2 ^ 64 → Forward m u) := by
  have hshows := h.shows hm
  refine ⟨hshows.total, fun hfits => (hshows.onTime hfits).forward hm, fun fuel cycle u hu => ?_⟩
  obtain ⟨k, hspent, hpasses⟩ : ∃ k : ℕ, u.cycleSpent = 0 + k ∧
      Passes k { s with cycleSpent := 0 } u := elapses_during hm hu
  have hbegin : Passes 0 s { s with cycleSpent := 0 } := .of_saved (by simp) rfl
  have hlater := (hshows.passes hbegin).passes hpasses
  rw [hspent, ← Nat.add_assoc]
  exact ⟨hlater.total, fun hfits => (hlater.onTime hfits).forward hm⟩

/-- The idle loop after a run of one cycle, which took a hundred and three. -/
def idleRun : MipsBase MipsTlbNormal WordMemory :=
  lastState (perform cachedSetup (.run 257 1)) idleLoop

lemma idleRun_ok : perform cachedSetup (.run 257 1) idleLoop = .ok (some 103, idleRun) :=
  run_of_returned (by decide +kernel)

theorem idleRun_forward : idleRun.cycleSpentTotal = BitVec.ofNat 64 103 ∧
    (103 < 2 ^ 64 → Forward cachedSetup idleRun) ∧
      ∀ fuel cycle u, During cachedSetup fuel cycle idleRun u →
        u.cycleSpentTotal = BitVec.ofNat 64 (103 + u.cycleSpent) ∧
          (103 + u.cycleSpent < 2 ^ 64 → Forward cachedSetup u) :=
  clock_forward (n64Setup_isN64 _) (.call (.constructed rfl rfl) idleRun_ok)

end Parts

end MipsBase

end NgMips
