import NgMips.Proofs.Cycles
import NgMips.Source.Machine

/-!
# The cycles of a run

The balance of a round (`Accounts`) adds up along the loop of either interpreter (`Round`).
Every round calls a handler and so counts at least one unit of 1/256 cycle, which bounds the
number of rounds: a run whose handlers all return ends, or the processor gives up
(`run_accounted`).
-/

namespace NgMips

namespace MipsBase

variable {T δ : Type} [MipsTlbBase T]

/-! ## Rounds -/

/-- What the loop over rounds rests on: `before` calls nothing, `step` calls what `calls` lists,
at least one handler and no more than a block has. -/
structure Round (m : MipsSetup δ) (before step : CpuM T δ Unit)
    (calls : MipsBase T δ → List (HandlerCall T δ)) : Prop where
  before_ok : Prog.Moves (Accounts m []) before
  before_stops : Prog.Stops (GivesUp m) before
  step_ok : Prog.Moves (fun s t => Accounts m (calls s) s t) step
  step_stops : ∀ s e, step s = .error e → GivesUp m e ∨ ∃ c ∈ calls s, ¬ c.Returns m
  length : ∀ s t, (m.config.useCachedInterpreter = true → SizedBlocks s.cache) →
    step s = .ok ((), t) → 0 < (calls s).length ∧ (calls s).length ≤ kCacheBlockMaxLength

variable {m : MipsSetup δ}

lemma round_plain : Round (T := T) m (pure ()) (runInst m) (instCalls m) where
  before_ok := .of_pure (fun s => .of_called (.refl s)) ()
  before_stops := .of_pure ()
  step_ok := fun _ _ _ h => (accounts_runInst h).1
  step_stops := fun _ _ => runInst_error
  length := by
    intro s t _ h
    rw [(accounts_runInst h).2]
    decide

lemma accounts_internals {α : Type} {x : CpuM T δ α} (hx : Internals m x) :
    Prog.Moves (Accounts m []) x := (called_internals hx).mono fun _ _ => .of_called

lemma round_cached (hmode : m.config.useCachedInterpreter = true) :
    Round (T := T) m (poll m) (runCachedBlock m) (cachedCalls m) where
  before_ok := moves_poll (fun s => .of_called (.refl s)) (fun _ _ _ h h' => h.trans h')
    accounts_internals fun _ _ => .of_called (.of_same rfl rfl id)
  before_stops := stops_poll
  step_ok := fun _ _ _ => accounts_runCachedBlock
  step_stops := fun _ _ => runCachedBlock_error hmode
  length := by
    intro s t hblocks h
    rw [runCachedBlock_eq] at h
    obtain ⟨block, u, henter, -⟩ := Prog.bind_ok.mp h
    obtain ⟨-, hpos, hmax⟩ := (sized_enterBlock s (hblocks hmode)).2 block u henter
    obtain ⟨hlo, hhi⟩ := length_blockCalls (m := m) block.entries u
    rw [cachedCalls, callsAfter_ok henter]
    omega

/-- **A round makes progress.**  It counts the handlers it calls, one at least, and stays within
what a single block can take. -/
lemma Round.counts {before step : CpuM T δ Unit} {calls : MipsBase T δ → List (HandlerCall T δ)}
    (hround : Round m before step calls) {cycle : ℤ} {s t u : MipsBase T δ}
    (hblocks : m.config.useCachedInterpreter = true → SizedBlocks s.cache)
    (hcounter : s.cpiCounter < 256) (hcycle : (s.cycleSpent : ℤ) < cycle)
    (hbefore : before s = .ok ((), t)) (hstep : step t = .ok ((), u)) :
    Accounts m (calls t) s u ∧ s.units + m.config.cpi.toNat ≤ u.units ∧
      (u.units : ℤ) < 256 * cycle + 2 ^ 24 := by
  have hfirst := hround.before_ok s () t hbefore
  have haccounts : Accounts m (calls t) s u := hfirst.trans (hround.step_ok t () u hstep)
  obtain ⟨hpos, hmax⟩ := hround.length t u (fun hmode => hfirst.blocks (hblocks hmode)) hstep
  have hunits := haccounts.units
  have hskips : (calls t).countP (HandlerCall.skips m) ≤ (calls t).length := List.countP_le_length
  have hcpi : m.config.cpi.toNat < 2 ^ 16 := m.config.cpi.isLt
  refine ⟨haccounts, ?_, ?_⟩
  · have hcost : 1 * m.config.cpi.toNat ≤ (calls t).length * m.config.cpi.toNat :=
      Nat.mul_le_mul_right _ hpos
    omega
  · have hcost : (calls t).length * m.config.cpi.toNat ≤ 64 * 2 ^ 16 :=
      Nat.mul_le_mul hmax hcpi.le
    have hstart : s.units = 256 * s.cycleSpent + s.cpiCounter := rfl
    have hlength : (calls t).length ≤ 64 := hmax
    omega

/-! ## The loop -/

section Loop

variable {before step : CpuM T δ Unit} {calls : MipsBase T δ → List (HandlerCall T δ)} {cycle : ℤ}

/-- The cycles a halted processor lets pass. -/
def padded (p : ℕ) (u : MipsBase T δ) : MipsBase T δ :=
  { u with cycleSpentTotal := u.cycleSpentTotal + BitVec.ofNat 64 p }

/-- The loop returns `r` from `u` after `p` cycles passed in a halted processor. -/
structure LoopEnd (cycle : ℤ) (u : MipsBase T δ) (p : ℕ) (r : ℤ) : Prop where
  result : r = u.cycleSpent + (p : ℤ)
  reached : cycle ≤ r
  halted : u.halt = false → p = 0
  passed : p = 0 ∨ r = cycle
  units : (u.units : ℤ) < 256 * cycle + 2 ^ 24

omit [MipsTlbBase T] in
/-- A halted processor lets the cycles pass up to the end. -/
lemma passCycles_ok {u s' : MipsBase T δ} {r : ℤ} (hhalt : u.halt = true)
    (hunits : (u.units : ℤ) < 256 * cycle + 2 ^ 24) (h : passCycles cycle u = .ok (r, s')) :
    ∃ p, s' = padded p u ∧ LoopEnd cycle u p r := by
  have hhalted : ∀ p : ℕ, u.halt = false → p = 0 := fun p hno =>
    absurd (hhalt.symm.trans hno) (by simp)
  rw [passCycles, Prog.bind_of_ok (read_run _ _)] at h
  split at h
  · next hcycle =>
      obtain ⟨rfl, rfl⟩ := Prog.ok_inj h
      obtain ⟨p, hp⟩ := Int.eq_ofNat_of_zero_le (Int.sub_nonneg.mpr hcycle.le)
      refine ⟨p, ?_, by omega, le_rfl, hhalted p, .inr rfl, hunits⟩
      rw [padded, hp, BitVec.ofInt_natCast]
  · next hcycle =>
      obtain ⟨rfl, rfl⟩ := Prog.ok_inj h
      exact ⟨0, by simp [padded], by simp, by omega, hhalted 0, .inl rfl, hunits⟩

/-- The loop ends when the cycles are used up, or lets them pass when the processor is halted. -/
lemma loop_accounts (hround : Round m before step calls) {n : ℕ} {s s' : MipsBase T δ} {r : ℤ}
    (hblocks : m.config.useCachedInterpreter = true → SizedBlocks s.cache)
    (hcounter : s.cpiCounter < 256) (hunits : (s.units : ℤ) < 256 * cycle + 2 ^ 24)
    (h : runLoop before step cycle n s = .ok (r, s')) :
    ∃ u p, Accounts m (loopCalls before step calls cycle n s) s u ∧ s' = padded p u ∧
      LoopEnd cycle u p r := by
  -- A fraction of less than a cycle, and an overshoot of less than one round, carry over from
  -- one round to the next.
  induction n generalizing s with
  | zero => exact absurd h Prog.ok_ne_error.symm
  | succ n ih =>
      rw [runLoop, Prog.bind_of_ok (read_run _ _)] at h
      rw [loopCalls]
      split at h
      · next hcycle =>
          obtain ⟨_, t, hbefore, hrest⟩ := Prog.bind_ok.mp h
          rw [Prog.bind_of_ok (read_run _ _)] at hrest
          rw [if_pos hcycle, callsAfter_ok hbefore]
          split at hrest
          · next hhalt =>
              have hfirst := hround.before_ok s () t hbefore
              have hsame : t.units = s.units := by simpa using hfirst.units
              obtain ⟨p, hs', hend⟩ := passCycles_ok hhalt (hsame ▸ hunits) hrest
              rw [if_pos hhalt]
              exact ⟨t, p, hfirst, hs', hend⟩
          · next hhalt =>
              obtain ⟨_, v, hstep, hloop⟩ := Prog.bind_ok.mp hrest
              obtain ⟨haccounts, -, hbound⟩ :=
                hround.counts hblocks hcounter hcycle hbefore hstep
              obtain ⟨u, p, hrest', hs', hend⟩ :=
                ih (fun hmode => haccounts.blocks (hblocks hmode)) (haccounts.counter hcounter)
                  hbound hloop
              rw [if_neg hhalt, callsAfter_ok hstep]
              exact ⟨u, p, haccounts.trans hrest', hs', hend⟩
      · next hcycle =>
          obtain ⟨rfl, rfl⟩ := Prog.ok_inj h
          rw [if_neg hcycle]
          exact ⟨s, 0, .of_called (.refl s), by simp [padded],
            by simp, by omega, fun _ => rfl, .inl rfl, hunits⟩

/-- **The loop ends.**  With more fuel than units are left, a loop that stops does so in a handler
that was called, or because the processor gives up. -/
lemma loop_error (hround : Round m before step calls) (hcpi : 1 ≤ m.config.cpi.toNat) {n : ℕ}
    {s : MipsBase T δ} {e : Stop}
    (hblocks : m.config.useCachedInterpreter = true → SizedBlocks s.cache)
    (hcounter : s.cpiCounter < 256) (hpos : 0 < n) (hfuel : 256 * cycle < s.units + n)
    (h : runLoop before step cycle n s = .error e) :
    GivesUp m e ∨ ∃ c ∈ loopCalls before step calls cycle n s, ¬ c.Returns m := by
  -- Every round uses up one unit of fuel and counts at least one, so that the bound on the fuel
  -- holds again after it.
  induction n generalizing s with
  | zero => exact absurd hpos (Nat.lt_irrefl 0)
  | succ n ih =>
      rw [runLoop, Prog.bind_of_ok (read_run _ _)] at h
      rw [loopCalls]
      split at h
      · next hcycle =>
          rw [if_pos hcycle]
          rcases Prog.bind_error.mp h with hbefore | ⟨⟨⟩, t, hbefore, hloop⟩
          · exact .inl (hround.before_stops s _ hbefore)
          · rw [Prog.bind_of_ok (read_run _ _)] at hloop
            rw [callsAfter_ok hbefore]
            split at hloop
            · -- A halted processor lets the cycles pass and returns.
              rw [passCycles, Prog.bind_of_ok (read_run _ _)] at hloop
              split at hloop <;> exact absurd hloop Prog.ok_ne_error
            · next hhalt =>
                rw [if_neg hhalt]
                rcases Prog.bind_error.mp hloop with hstep | ⟨⟨⟩, u, hstep, hrest⟩
                · rcases hround.step_stops t _ hstep with hgives | ⟨c, hc, hstuck⟩
                  · exact .inl hgives
                  · exact .inr ⟨c, List.mem_append_left _ hc, hstuck⟩
                · rw [callsAfter_ok hstep]
                  obtain ⟨haccounts, hprogress, -⟩ :=
                    hround.counts hblocks hcounter hcycle hbefore hstep
                  have hstart : s.units = 256 * s.cycleSpent + s.cpiCounter := rfl
                  rcases ih (fun hmode => haccounts.blocks (hblocks hmode))
                    (haccounts.counter hcounter) (by omega) (by omega) hrest with
                    hgives | ⟨c, hc, hstuck⟩
                  · exact .inl hgives
                  · exact .inr ⟨c, List.mem_append_right _ hc, hstuck⟩
      · exact absurd h Prog.ok_ne_error

end Loop

/-! ## Runs -/

/-- The balance of a run that returns `r`: `n` handlers were called, `k` of them skipped an idle
loop, and `p` cycles passed while the processor was halted. -/
structure Accounted (m : MipsSetup δ) (calls : List (HandlerCall T δ)) (cycle : ℤ)
    (s : MipsBase T δ) (r : ℤ) (s' : MipsBase T δ) : Prop where
  reached : cycle ≤ r
  /-- The counters of the source, of type `int`, do not overflow. -/
  fits : r < 2 ^ 31
  timestamp : s'.cycleSpentTotal = s.cycleSpentTotal + BitVec.ofInt 64 r
  counter : s'.cpiCounter < 256
  exact : ∃ p : ℕ, (s'.halt = false → p = 0) ∧ r = s'.cycleSpent + (p : ℤ) ∧
    256 * r + ((s'.cpiCounter : ℤ) - s.cpiCounter) =
      calls.length * m.config.cpi.toNat + 25600 * calls.countP (HandlerCall.skips m) + 256 * p
  observes : Observes calls.length s s'
  blocks : SizedBlocks s.cache → SizedBlocks s'.cache

/-- What comes before the loop calls nothing. -/
lemma accounts_beginRun {s t : MipsBase T δ} (h : beginRun m s = .ok ((), t)) :
    Accounts m [] { s with cycleSpent := 0 } t := by
  rw [beginRun] at h
  split at h
  · rw [← Prog.state_eq h]
    exact .of_called (.refl _)
  · exact accounts_internals internal_begin _ () t h

lemma givesUp_beginRun {s : MipsBase T δ} {e : Stop} (h : beginRun m s = .error e) :
    GivesUp m e := by
  rw [beginRun] at h
  split at h
  · exact absurd h Prog.ok_ne_error
  · exact stops_internals internal_begin _ e h

/-- A run is a loop of rounds. -/
lemma run_loop {s t : MipsBase T δ} (h : beginRun m s = .ok ((), t)) (fuel : ℕ) (cycle : ℤ) :
    ∃ before step calls, Round m before step calls ∧
      run m fuel cycle s = runLoop before step cycle fuel t ∧
      runCalls m fuel cycle s = loopCalls before step calls cycle fuel t := by
  rw [run_begin h, runCalls, h]
  dsimp only
  split
  · next hmode => exact ⟨_, _, _, round_cached hmode, rfl, rfl⟩
  · exact ⟨_, _, _, round_plain, rfl, rfl⟩

/-- The balance of a run, from that of its loop. -/
lemma accounted_of_loop {calls : List (HandlerCall T δ)} {cycle r : ℤ} {s u : MipsBase T δ} {p : ℕ}
    (hcounter : s.cpiCounter < 256) (hle : cycle ≤ 2 ^ 30)
    (haccounts : Accounts m calls { s with cycleSpent := 0 } u) (hend : LoopEnd cycle u p r) :
    Accounted m calls cycle s r (padded p u) := by
  have hdef : u.units = 256 * u.cycleSpent + u.cpiCounter := rfl
  have hstart : ({ s with cycleSpent := 0 } : MipsBase T δ).units = s.cpiCounter := by simp [units]
  have hbalance := haccounts.units
  rw [hstart, hdef] at hbalance
  refine ⟨hend.reached, ?_, ?_, haccounts.counter hcounter, ⟨p, hend.halted, hend.result, ?_⟩,
    haccounts.observes, haccounts.blocks⟩
  · have hunits := hend.units
    have hresult := hend.result
    -- Without passed cycles `r` is what the last round overshot to, otherwise the budget itself.
    rcases hend.passed with hp | hcycle
    · omega
    · omega
  · have htime : u.cycleSpentTotal + 0#64 = s.cycleSpentTotal + BitVec.ofNat 64 u.cycleSpent :=
      haccounts.timestamp
    have hofInt : BitVec.ofInt 64 r = BitVec.ofNat 64 u.cycleSpent + BitVec.ofNat 64 p := by
      rw [hend.result, ← Int.natCast_add, BitVec.ofInt_natCast, BitVec.ofNat_add]
    rw [hofInt, padded, ← BitVec.add_assoc, ← htime, BitVec.add_zero]
  · have hcounter' : (padded p u).cpiCounter = u.cpiCounter := rfl
    have hcast := congrArg (Nat.cast : ℕ → ℤ) hbalance
    push_cast at hcast
    rw [hcounter', hend.result]
    omega

/-- **Cycle accounting is exact and `Run` ends.**  From a state with a fraction of a cycle and,
for the cached interpreter, blocks of the size `OnNewBlock` gives them, a run of at most `2 ^ 30`
cycles whose handlers all return ends with its balance, however many rounds the model grants it
beyond one for each 1/256 cycle; or the processor gives up outside of a handler. -/
theorem run_accounted (hcpi : 1 ≤ m.config.cpi.toNat) {s : MipsBase T δ}
    (hblocks : m.config.useCachedInterpreter = true → SizedBlocks s.cache)
    (hcounter : s.cpiCounter < 256) {cycle : ℤ} (hpos : 0 < cycle) (hle : cycle ≤ 2 ^ 30) {fuel : ℕ}
    (hfuel : 256 * cycle < fuel) (hreturn : ∀ c ∈ runCalls m fuel cycle s, c.Returns m) :
    (∃ r s', run m fuel cycle s = .ok (r, s') ∧
      Accounted m (runCalls m fuel cycle s) cycle s r s') ∨
    ∃ e, run m fuel cycle s = .error e ∧ GivesUp m e := by
  cases hbegin : beginRun m s with
  | error e => exact .inr ⟨e, run_begin_error hbegin, givesUp_beginRun hbegin⟩
  | ok b =>
      obtain ⟨⟨⟩, t⟩ := b
      obtain ⟨before, step, calls, hround, hrun, hcalls⟩ := run_loop hbegin fuel cycle
      have hfirst := accounts_beginRun hbegin
      have hunits : t.units = s.cpiCounter := by simpa [units] using hfirst.units
      have hblocks' : m.config.useCachedInterpreter = true → SizedBlocks t.cache :=
        fun hmode => hfirst.blocks (hblocks hmode)
      rw [hcalls] at hreturn ⊢
      rw [hrun]
      cases hloop : runLoop before step cycle fuel t with
      | ok r =>
          obtain ⟨u, p, haccounts, hs', hend⟩ :=
            loop_accounts hround hblocks' (hfirst.counter hcounter) (by omega) hloop
          refine .inl ⟨r.1, r.2, rfl, ?_⟩
          rw [hs']
          exact accounted_of_loop hcounter hle (hfirst.trans haccounts) hend
      | error e =>
          rcases loop_error hround hcpi hblocks' (hfirst.counter hcounter) (by omega) (by omega)
            hloop with hgives | ⟨c, hc, hstuck⟩
          · exact .inr ⟨e, rfl, hgives⟩
          · exact absurd (hreturn c hc) hstuck

/-! ## An idle loop, and a program counter without memory -/

/-- A branch to itself with an empty delay slot. -/
def idleLoop : MipsBase MipsTlbNormal WordMemory :=
  programState 0xFFFFFFFF80000000 0 [0x1000FFFF, 0]

/-- It was executed once, and its block is there. -/
def idledLoop : MipsBase MipsTlbNormal WordMemory :=
  lastState (performAll cachedSetup [.setPc 0xFFFFFFFF80000000, .run 10 1])
    { tlb := {}, device := idleLoop.device }

/-- `run_accounted` on the idle loop in the cached interpreter: two instructions take three
cycles, and a hundred are skipped. -/
theorem idleLoop_accounted : ∃ s', run cachedSetup 257 1 idledLoop = .ok (103, s') ∧
    Accounted cachedSetup (runCalls cachedSetup 257 1 idledLoop) 1 idledLoop 103 s' := by
  have hused : performAll cachedSetup [.setPc 0xFFFFFFFF80000000, .run 10 1]
      { tlb := {}, device := idleLoop.device } = .ok ([none, some 103], idledLoop) :=
    run_of_returned (by decide +kernel)
  have hrun : run cachedSetup 257 1 idledLoop =
      .ok (103, lastState (run cachedSetup 257 1) idledLoop) := run_of_returned (by decide +kernel)
  have hreturn : ∀ c ∈ runCalls cachedSetup 257 1 idledLoop, c.Returns cachedSetup := by
    have hall : (runCalls cachedSetup 257 1 idledLoop).all (fun c =>
        returnedValue (callInst cachedSetup c.opcode c.func) c.state == some ()) = true := by
      decide +kernel
    intro c hc
    have hc' := List.all_eq_true.mp hall c hc
    exact ⟨_, run_of_returned (beq_iff_eq.mp hc')⟩
  have hblocks : SizedBlocks idledLoop.cache := sizedBlocks_of_calls hused
  have hcounter : idledLoop.cpiCounter < 256 := by decide +kernel
  rcases run_accounted (by decide) (fun _ => hblocks) hcounter (by decide) (by decide)
    (by decide) hreturn with ⟨r, s', hr, haccounted⟩ | ⟨e, he, -⟩
  · obtain ⟨hr', hs'⟩ := Prog.ok_inj (hrun.symm.trans hr)
    rw [← hr', ← hs'] at haccounted
    exact ⟨_, hrun, haccounted⟩
  · exact absurd (hrun.symm.trans he) (by simp)

/-- `Run` returns whenever the handlers it calls do. -/
def ReturnsWithHandlers (m : MipsSetup WordMemory) : Prop :=
  1 ≤ m.config.cpi.toNat → ∀ (s : MipsBase MipsTlbNormal WordMemory) (cycle : ℤ),
    SizedBlocks s.cache → s.cpiCounter < 256 → 0 < cycle → cycle ≤ 2 ^ 30 →
    (∀ fuel, ∀ c ∈ runCalls m fuel cycle s, c.Returns m) →
    ∃ fuel r s', run m fuel cycle s = .ok (r, s')

omit [MipsTlbBase T] in
/-- A loop whose first round stops before it calls a handler. -/
lemma loop_stops [MipsTlbBase T] {before step : CpuM T δ Unit}
    {calls : MipsBase T δ → List (HandlerCall T δ)} {cycle : ℤ} {s t : MipsBase T δ} {e : Stop}
    (hcycle : (s.cycleSpent : ℤ) < cycle) (hbefore : before s = .ok ((), t))
    (hhalt : t.halt = false) (hcalls : calls t = []) (hstep : step t = .error e) (fuel : ℕ) :
    loopCalls before step calls cycle fuel s = [] ∧
      ∀ r, runLoop before step cycle fuel s ≠ .ok r := by
  cases fuel with
  | zero => exact ⟨rfl, fun r h => absurd h Prog.ok_ne_error.symm⟩
  | succ n =>
      constructor
      · rw [loopCalls, if_pos hcycle, callsAfter_ok hbefore, if_neg (by simp [hhalt]), hcalls,
          callsAfter_error hstep]
        rfl
      · intro r h
        rw [runLoop, Prog.bind_of_ok (read_run _ _), if_pos hcycle, Prog.bind_of_ok hbefore,
          Prog.bind_of_ok (read_run _ _), if_neg (by simp [hhalt]), Prog.bind_run, hstep] at h
        exact absurd h Prog.ok_ne_error.symm

/-- A program counter that is not translated. -/
def unmappedState : MipsBase MipsTlbNormal WordMemory := programState 0x40000000 0 []

/-- Where nothing can be fetched both interpreters end in a `PANIC` before any handler is called:
the cached one finds no block, and with exceptions the plain one has no handler for the fault. -/
theorem unmapped_not_returns :
    ¬ ReturnsWithHandlers cachedSetup ∧ ¬ ReturnsWithHandlers exceptionSetup := by
  have hcached : ∀ fuel, runCalls cachedSetup fuel 1 unmappedState = [] ∧
      ∀ r, run cachedSetup fuel 1 unmappedState ≠ .ok r := by
    intro fuel
    have hpoll : poll cachedSetup unmappedState =
        .ok ((), lastState (poll cachedSetup) unmappedState) := run_of_returned (by decide +kernel)
    have henter : enterBlock cachedSetup (lastState (poll cachedSetup) unmappedState) =
        .error (.panic .blockCreationFailed) := run_of_stopped (by decide +kernel)
    have hblock : runCachedBlock cachedSetup (lastState (poll cachedSetup) unmappedState) =
        .error (.panic .blockCreationFailed) := run_of_stopped (by decide +kernel)
    exact loop_stops (by decide) hpoll (by decide +kernel) (callsAfter_error henter) hblock fuel
  have hplain : ∀ fuel, runCalls exceptionSetup fuel 1 unmappedState = [] ∧
      ∀ r, run exceptionSetup fuel 1 unmappedState ≠ .ok r := by
    intro fuel
    obtain ⟨t, ht⟩ : ∃ t, t = lastState (beginRun exceptionSetup) unmappedState := ⟨_, rfl⟩
    have hbegin : beginRun exceptionSetup unmappedState = .ok ((), t) :=
      ht ▸ run_of_returned (x := beginRun exceptionSetup) (by decide +kernel)
    have hfetch : fetch exceptionSetup t.pc t = .error (.panic .tlbException) :=
      ht ▸ run_of_stopped (by decide +kernel)
    have hinst : runInst exceptionSetup t = .error (.panic .tlbException) :=
      ht ▸ run_of_stopped (by decide +kernel)
    have hcycle : (t.cycleSpent : ℤ) < 1 := by rw [ht]; decide +kernel
    have hhalt : t.halt = false := by rw [ht]; decide +kernel
    have hcalls : instCalls exceptionSetup t = [] := callsAfter_error hfetch
    have hloop := loop_stops hcycle (Prog.pure_run () t) hhalt hcalls hinst fuel
    rw [run_begin hbegin, runCalls, hbegin]
    exact hloop
  constructor
  · intro h
    obtain ⟨fuel, r, s', hrun⟩ := h (by decide) unmappedState 1 EachBlock.reset (by decide)
      (by decide) (by decide) fun fuel c hc => by simp [(hcached fuel).1] at hc
    exact (hcached fuel).2 _ hrun
  · intro h
    obtain ⟨fuel, r, s', hrun⟩ := h (by decide) unmappedState 1 EachBlock.reset (by decide)
      (by decide) (by decide) fun fuel c hc => by simp [(hplain fuel).1] at hc
    exact (hplain fuel).2 _ hrun

end MipsBase

end NgMips
