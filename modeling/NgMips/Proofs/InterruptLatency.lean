import NgMips.Proofs.InterruptGap
import NgMips.Proofs.Reset
import NgMips.Proofs.WellFormed

/-!
# How long an interrupt waits

The cached interpreter looks for interrupts every fourth round only, when a poll is due, and a
round executes a whole block.  An interrupt that is ready whenever a poll is due is taken by the
fourth round, however the run is cut into calls: when more than three blocks' worth of instructions
were executed and no interrupt was taken, a poll was due and found none ready
(`interrupt_latency`).
-/

namespace NgMips

namespace MipsBase

variable {T δ : Type} [MipsTlbBase T] {m : MipsSetup δ}

lemma samePolls_runEntry (entry : MipsCacheEntry) :
    Prog.Moves SamePolls (runEntry (T := T) m entry) := by
  intro s a s' h
  obtain ⟨t, hcall, rfl⟩ := runEntry_ok.mp h
  have hsame : SamePolls (started entry.opcode s) t := samePolls_callInst _ _ _ () t hcall
  exact hsame

/-- A round does not count as a poll. -/
lemma samePolls_runCachedBlock : Prog.Moves SamePolls (runCachedBlock (T := T) m) := by
  rw [runCachedBlock_eq]
  refine .bind (fun _ _ _ => .trans) (moves_enterBlock .refl (fun _ _ _ => .trans)
    samePolls_internals fun _ _ => rfl) fun block => ?_
  refine .bind (fun _ _ _ => .trans) (moves_runBlock .refl (fun _ _ _ => .trans)
    fun entry _ => samePolls_runEntry entry) fun executed => .of_modify fun _ => rfl

/-! ## Rounds -/

/-- The processor stays within what is counted: an interrupt was taken, or every block of
instructions was preceded by a poll that counted it. -/
def Waited (s u : MipsBase T δ) : Prop :=
  ∃ new, u.trace = new ++ s.trace ∧ (Event.exception .kInt ∈ new ∨
    new.countP Event.isExecute + kCacheBlockMaxLength * s.interruptPollCounter ≤
      kCacheBlockMaxLength * u.interruptPollCounter)

namespace Waited

omit [MipsTlbBase T]

lemma of_same {s u : MipsBase T δ} (htrace : u.trace = s.trace)
    (hpolls : u.interruptPollCounter = s.interruptPollCounter) : Waited s u :=
  ⟨[], htrace, .inr (by simp [hpolls])⟩

lemma trans {s t u : MipsBase T δ} (h : Waited s t) (h' : Waited t u) : Waited s u := by
  obtain ⟨new, htrace, hnew⟩ := h
  obtain ⟨new', htrace', hnew'⟩ := h'
  refine ⟨new' ++ new, by rw [htrace', htrace, List.append_assoc], ?_⟩
  rcases hnew with htaken | hcount
  · exact .inl (List.mem_append_right _ htaken)
  · rcases hnew' with htaken' | hcount'
    · exact .inl (List.mem_append_left _ htaken')
    · rw [List.countP_append]
      exact .inr (by omega)

end Waited

/-- The next poll is one that looks for interrupts. -/
def PollDue (s : MipsBase T δ) : Prop := kInterruptCheckInterval ≤ s.interruptPollCounter + 1

/-- A poll that finds an interrupt ready when it is due takes it, or counts. -/
lemma poll_ready (hm : m.IsN64) (hexc : m.config.hasException = true) {s t : MipsBase T δ}
    (hready : PollDue s → InterruptReady m s) (h : poll m s = .ok ((), t)) :
    ∃ new, t.trace = new ++ s.trace ∧ (Event.exception .kInt ∈ new ∨
      new = [] ∧ t.interruptPollCounter = s.interruptPollCounter + 1) := by
  cases poll_cases hm h with
  | counts _ hstate => exact ⟨[], by rw [hstate]; rfl, .inr ⟨rfl, by rw [hstate]⟩⟩
  | looks hdue v hcheck hcompare =>
      have hpolling : InterruptReady m (polling s) := hready hdue
      rw [checkInterrupt_ready hm hexc hpolling] at hcheck
      have htaken := (exception_latches hm hexc hcheck).1
      obtain ⟨new, htrace, -⟩ := (background_internals internal_checkCompare v () t hcompare).trace
      refine ⟨new ++ [.exception .kInt], ?_, .inl (by simp)⟩
      rw [htrace, htaken, List.append_assoc]
      rfl

/-- A poll without a round counts for nothing. -/
lemma waited_poll (hm : m.IsN64) (hexc : m.config.hasException = true) {s t : MipsBase T δ}
    (hready : PollDue s → InterruptReady m s) (h : poll m s = .ok ((), t)) : Waited s t := by
  obtain ⟨new, htrace, htaken | ⟨rfl, hcount⟩⟩ := poll_ready hm hexc hready h
  · exact ⟨new, htrace, .inl htaken⟩
  · refine ⟨[], htrace, .inr ?_⟩
    rw [List.countP_nil, hcount, Nat.mul_succ]
    omega

/-- A round whose poll finds an interrupt ready when it is due. -/
lemma waited_round (hm : m.IsN64) (hexc : m.config.hasException = true)
    (hmode : m.config.useCachedInterpreter = true) {s t u : MipsBase T δ} (hs : SizedBlocks s.cache)
    (hready : PollDue s → InterruptReady m s) (hpoll : poll m s = .ok ((), t))
    (hround : runCachedBlock m t = .ok ((), u)) : Waited s u := by
  have hsized : SizedBlocks t.cache := (background_poll s () t hpoll).cache ▸ hs
  have hle := ((round_cached hmode).length t u (fun _ => hsized) hround).2
  obtain ⟨executed, htrace', hexecuted⟩ := (accounts_runCachedBlock hround).observes
  have hsame : SamePolls t u := samePolls_runCachedBlock t () u hround
  obtain ⟨new, htrace, htaken | ⟨rfl, hcount⟩⟩ := poll_ready hm hexc hready hpoll
  · refine ⟨executed ++ new, by rw [htrace', htrace, List.append_assoc], .inl ?_⟩
    exact List.mem_append_right _ htaken
  · refine ⟨executed, by rw [htrace', htrace]; rfl, .inr ?_⟩
    rw [hexecuted, hsame, hcount, Nat.mul_succ]
    omega

/-! ## Runs -/

omit [MipsTlbBase T] in
/-- A round before the first test. -/
lemma LoopPoint.earlier {before step : CpuM T δ Unit} {cycle : ℤ} {n k : ℕ}
    {s t t₁ v : MipsBase T δ} (hcycle : (s.cycleSpent : ℤ) < cycle) (hbefore : before s = .ok ((), t))
    (hhalt : t.halt = false) (hstep : step t = .ok ((), t₁))
    (h : LoopPoint before step cycle n t₁ k v) : LoopPoint before step cycle (n + 1) s k v := by
  induction h with
  | start => exact .next .start hcycle hbefore hhalt hstep
  | next _ hcycle' hbefore' hhalt' hstep' ih => exact .next ih hcycle' hbefore' hhalt' hstep'

/-- A run whose polls find an interrupt ready when they are due. -/
lemma waited_loop (hm : m.IsN64) (hexc : m.config.hasException = true)
    (hmode : m.config.useCachedInterpreter = true) {cycle r : ℤ} {n : ℕ} {s u : MipsBase T δ}
    (hs : SizedBlocks s.cache)
    (hready : ∀ k v, LoopPoint (poll m) (runCachedBlock m) cycle n s k v →
      (v.cycleSpent : ℤ) < cycle → PollDue v → InterruptReady m v)
    (h : runLoop (poll m) (runCachedBlock m) cycle n s = .ok (r, u)) : Waited s u := by
  induction n generalizing s with
  | zero => exact absurd h Prog.ok_ne_error.symm
  | succ n ih =>
      rw [runLoop, Prog.bind_of_ok (read_run _ _)] at h
      split at h
      · next hcycle =>
          have hfirst := hready _ s .start hcycle
          obtain ⟨⟨⟩, t, hpoll, hrest⟩ := Prog.bind_ok.mp h
          rw [Prog.bind_of_ok (read_run _ _)] at hrest
          split at hrest
          · have hpassed : Waited t u := by
              rw [passCycles, Prog.bind_of_ok (read_run _ _)] at hrest
              split at hrest
              · obtain ⟨-, rfl⟩ := Prog.ok_inj hrest
                exact .of_same rfl rfl
              · obtain ⟨-, rfl⟩ := Prog.ok_inj hrest
                exact .of_same rfl rfl
            exact (waited_poll hm hexc hfirst hpoll).trans hpassed
          · next hhalt =>
              obtain ⟨⟨⟩, t₁, hround, hloop⟩ := Prog.bind_ok.mp hrest
              have hsized : SizedBlocks t₁.cache := (accounts_runCachedBlock hround).blocks
                ((background_poll s () t hpoll).cache ▸ hs)
              have hlater := ih hsized (fun k v hpoint => hready k v
                (hpoint.earlier hcycle hpoll (by simpa using hhalt) hround)) hloop
              exact (waited_round hm hexc hmode hs hfirst hpoll hround).trans hlater
      · obtain ⟨-, rfl⟩ := Prog.ok_inj h
        exact .of_same rfl rfl

/-! ## Calls -/

variable (m) in
/-- The state before a poll of one of the calls. -/
def Polls (calls : List (MipsCall δ)) (s v : MipsBase T δ) : Prop :=
  ∃ earlier fuel cycle later spent t n, calls = earlier ++ .run fuel cycle :: later ∧
    performAll m earlier s = .ok (spent, t) ∧
    LoopPoint (poll m) (runCachedBlock m) cycle fuel { t with cycleSpent := 0 } n v ∧
    (v.cycleSpent : ℤ) < cycle

lemma Polls.cons {call : MipsCall δ} {calls : List (MipsCall δ)} {r : Option ℤ}
    {s t v : MipsBase T δ} (hcall : perform m call s = .ok (r, t)) (h : Polls m calls t v) :
    Polls m (call :: calls) s v := by
  obtain ⟨earlier, fuel, cycle, later, spent, t', n, rfl, hearlier, hpoint, hcycle⟩ := h
  refine ⟨call :: earlier, fuel, cycle, later, r :: spent, t', n, rfl, ?_, hpoint, hcycle⟩
  rw [performAll, Prog.bind_of_ok hcall, Prog.bind_of_ok hearlier]
  rfl

lemma waited_reset (s : MipsBase T δ) : Waited s (reset m s) := by
  refine .of_same ?_ ?_
  · simp only [reset, resetCop_eq]
  · simp only [reset, resetCop_eq]

/-- A call whose polls find an interrupt ready when they are due. -/
lemma waited_perform (hm : m.IsN64) (hexc : m.config.hasException = true)
    (hmode : m.config.useCachedInterpreter = true) {call : MipsCall δ} {r : Option ℤ}
    {s t : MipsBase T δ} (hs : SizedBlocks s.cache)
    (hready : ∀ v, Polls m [call] s v → PollDue v → InterruptReady m v)
    (h : perform m call s = .ok (r, t)) : Waited s t := by
  cases call with
  | run fuel cycle =>
      obtain ⟨spent, u, hrun, hpure⟩ := Prog.bind_ok.mp h
      obtain ⟨-, rfl⟩ := Prog.ok_inj hpure
      have hbegin : beginRun m s = .ok ((), { s with cycleSpent := 0 }) := by
        rw [beginRun, if_pos hmode]
      rw [run_begin hbegin, if_pos hmode] at hrun
      have hstart : Waited s { s with cycleSpent := 0 } := .of_same rfl rfl
      refine hstart.trans (waited_loop hm hexc hmode hs (fun k v hpoint hcycle => ?_) hrun)
      exact hready v ⟨[], fuel, cycle, [], [], s, k, rfl, rfl, hpoint, hcycle⟩
  | reset => exact Prog.state_eq h ▸ waited_reset s
  | setGpr idx value =>
      obtain ⟨-, gpr, -, rfl⟩ := perform_setGpr h
      exact .of_same rfl rfl
  | _ => exact Prog.state_eq h ▸ .of_same rfl rfl

/-- Calls whose polls find an interrupt ready when they are due. -/
lemma waited_performAll (hm : m.IsN64) (hexc : m.config.hasException = true)
    (hmode : m.config.useCachedInterpreter = true) {calls : List (MipsCall δ)}
    {spent : List (Option ℤ)} {s u : MipsBase T δ} (hs : WellFormed m s)
    (hready : ∀ v, Polls m calls s v → PollDue v → InterruptReady m v)
    (h : performAll m calls s = .ok (spent, u)) : Waited s u := by
  induction calls generalizing s spent with
  | nil => exact Prog.state_eq h ▸ .of_same rfl rfl
  | cons call calls ih =>
      obtain ⟨r, t, hcall, hmore⟩ := Prog.bind_ok.mp h
      obtain ⟨rest, u', hrest, hpure⟩ := Prog.bind_ok.mp hmore
      obtain ⟨-, rfl⟩ := Prog.ok_inj hpure
      have hsized : SizedBlocks s.cache := fun e he => (hs.blocks e he).sized
      have hfirst := waited_perform hm hexc hmode hsized (fun v hv => hready v ?_) hcall
      · exact hfirst.trans (ih (perform_wellFormed hs hcall)
          (fun v hv => hready v (hv.cons hcall)) hrest)
      · obtain ⟨earlier, fuel, cycle, later, spent, t', n, heq, hearlier, hpoint, hcycle⟩ := hv
        refine ⟨earlier, fuel, cycle, later ++ calls, spent, t', n, ?_, hearlier, hpoint, hcycle⟩
        rw [← List.singleton_append, heq, List.append_assoc]
        rfl

/-- **An interrupt that is ready does not wait long.**  When the processor executes more instructions
than fit in three blocks, in whatever calls, and takes no interrupt, then a poll was due and found
none ready. -/
theorem interrupt_latency (hm : m.IsN64) (hexc : m.config.hasException = true)
    (hmode : m.config.useCachedInterpreter = true) {tlb : T} {d : δ}
    {earlier calls : List (MipsCall δ)} {spent₀ spent : List (Option ℤ)} {s u : MipsBase T δ}
    (hstart : performAll m earlier { tlb := tlb, device := d } = .ok (spent₀, s))
    (hrun : performAll m calls s = .ok (spent, u)) {new : List Event}
    (htrace : u.trace = new ++ s.trace)
    (hlong : 3 * kCacheBlockMaxLength < new.countP Event.isExecute)
    (hnone : Event.exception .kInt ∉ new) :
    ∃ v, Polls m calls s v ∧ PollDue v ∧ ¬ InterruptReady m v := by
  have hkeeps : ∀ {calls spent} {t t' : MipsBase T δ}, WellFormed m t →
      performAll m calls t = .ok (spent, t') → WellFormed m t' :=
    fun ht h => performAll_keeps (fun _ _ _ _ _ => perform_wellFormed) ht h
  have hs := hkeeps (.new tlb d) hstart
  by_contra hall
  push Not at hall
  obtain ⟨new', htrace', hwaited⟩ := waited_performAll hm hexc hmode hs hall hrun
  obtain rfl := List.append_cancel_right (htrace'.symm.trans htrace)
  -- The counter of polls never gets past three.
  have hpolls := (hkeeps hs hrun).polls
  rcases hwaited with htaken | hcount
  · exact hnone htaken
  · have hle : kCacheBlockMaxLength * u.interruptPollCounter ≤ kCacheBlockMaxLength * 3 :=
      Nat.mul_le_mul_left _ (Nat.le_of_lt_succ hpolls)
    omega

/-- A new processor with the interrupt line up and interrupts disabled. -/
def maskedStart : MipsBase MipsTlbNormal WordMemory :=
  lastState (performAll interruptedSetup [.setPc 0xFFFFFFFF80000000]) { tlb := {}, device := [] }

/-- It executed four blocks without a branch. -/
def maskedEnd : MipsBase MipsTlbNormal WordMemory :=
  lastState (performAll interruptedSetup [.run 10 290]) maskedStart

/-- `interrupt_latency` on this run: the line is up all the time, and a poll that is due does not
find the interrupt ready. -/
theorem masked_latency : ∃ v, Polls interruptedSetup [.run 10 290] maskedStart v ∧ PollDue v ∧
    ¬ InterruptReady interruptedSetup v := by
  have hstart : performAll interruptedSetup [.setPc 0xFFFFFFFF80000000]
      { tlb := {}, device := [] } = .ok ([none], maskedStart) := run_of_returned (by decide +kernel)
  have hrun : performAll interruptedSetup [.run 10 290] maskedStart = .ok ([some 378], maskedEnd) :=
    run_of_returned (by decide +kernel)
  have htrace : maskedEnd.trace = maskedEnd.trace ++ maskedStart.trace :=
    (List.append_nil maskedEnd.trace).symm
  exact interrupt_latency ⟨rfl, rfl, rfl⟩ rfl rfl hstart hrun htrace (by decide +kernel)
    (by decide +kernel)

end MipsBase

end NgMips
