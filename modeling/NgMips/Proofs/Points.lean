import NgMips.Proofs.Effect

/-!
# Instruction boundaries of a run

A run is a loop of blocks or of single instructions, and a block a list of entries.  A
boundary in it is described by how it was reached: `BlockPoint` inside a block, `LoopPoint`
at the test of the loop, `RunPoint` in a whole run.  From a boundary the run goes on as
`restOfRun` says (`RunPoint.run_eq`).  Whatever a run does, its reports to the observer stay
(`Extends`).
-/

namespace NgMips

namespace MipsBase

variable {T δ : Type} [MipsTlbBase T]

/-! ## Boundaries -/

section Points

variable (m : MipsSetup δ)

/-- The block at the program counter: `runCachedBlock` up to its first instruction. -/
def enterBlock : CpuM T δ MipsCacheBlock := do
  executeCacheClear m
  let i ← getOrBuildBlock m
  derefBlock i

/-- Some entries of a block were executed: their number, those left, and the state. -/
inductive BlockPoint (entries : List MipsCacheEntry) (s : MipsBase T δ) :
    ℕ → List MipsCacheEntry → MipsBase T δ → Prop
  /-- The first entry is executed in any case. -/
  | first {entry : MipsCacheEntry} {rest : List MipsCacheEntry} {u : MipsBase T δ}
      (hentries : entries = entry :: rest) (hrun : runEntry m entry s = .ok ((), u)) :
      BlockPoint entries s 1 rest u
  | next {entry : MipsCacheEntry} {rest : List MipsCacheEntry} {k : ℕ} {u u' : MipsBase T δ}
      (h : BlockPoint entries s k (entry :: rest) u) (hpc : u.pc = entry.address.setWidth 64)
      (hrun : runEntry m entry u = .ok ((), u')) : BlockPoint entries s (k + 1) rest u'

/-- The test of the loop is reached, with some fuel left. -/
inductive LoopPoint (before step : CpuM T δ Unit) (cycle : ℤ) (fuel : ℕ) (s : MipsBase T δ) :
    ℕ → MipsBase T δ → Prop
  | start : LoopPoint before step cycle fuel s fuel s
  | next {n : ℕ} {t t₁ t₂ : MipsBase T δ} (h : LoopPoint before step cycle fuel s (n + 1) t)
      (hcycle : (t.cycleSpent : ℤ) < cycle) (hbefore : before t = .ok ((), t₁))
      (hhalt : t₁.halt = false) (hstep : step t₁ = .ok ((), t₂)) :
      LoopPoint before step cycle fuel s n t₂

/-- What `run` does before its loop. -/
def beginRun (s : MipsBase T δ) : Except Stop (Unit × MipsBase T δ) :=
  if m.config.useCachedInterpreter then .ok ((), { s with cycleSpent := 0 })
  else (do checkInterrupt m; checkCompare m : CpuM T δ Unit) { s with cycleSpent := 0 }

/-- An instruction was executed in a run: the entries left in its block and the number of
those executed, the fuel left, and the state behind the instruction. -/
inductive RunPoint (fuel : ℕ) (cycle : ℤ) (s : MipsBase T δ) :
    List MipsCacheEntry → ℕ → ℕ → MipsBase T δ → Prop
  | plain {n : ℕ} {t₀ t u : MipsBase T δ} (hmode : m.config.useCachedInterpreter = false)
      (hbegin : beginRun m s = .ok ((), t₀))
      (hloop : LoopPoint (pure ()) (runInst m) cycle fuel t₀ (n + 1) t)
      (hcycle : (t.cycleSpent : ℤ) < cycle) (hhalt : t.halt = false)
      (hrun : runInst m t = .ok ((), u)) : RunPoint fuel cycle s [] 0 n u
  | cached {n k : ℕ} {rest : List MipsCacheEntry} {t₀ t t₁ t₂ u : MipsBase T δ}
      {block : MipsCacheBlock} (hmode : m.config.useCachedInterpreter = true)
      (hbegin : beginRun m s = .ok ((), t₀))
      (hloop : LoopPoint (poll m) (runCachedBlock m) cycle fuel t₀ (n + 1) t)
      (hcycle : (t.cycleSpent : ℤ) < cycle) (hpoll : poll m t = .ok ((), t₁))
      (hhalt : t₁.halt = false) (hblock : enterBlock m t₁ = .ok (block, t₂))
      (hpoint : BlockPoint m block.entries t₂ k rest u) : RunPoint fuel cycle s rest k n u

/-- The rest of a run. -/
def restOfRun (cycle : ℤ) (rest : List MipsCacheEntry) (k n : ℕ) : CpuM T δ ℤ :=
  if m.config.useCachedInterpreter then do
    let executed ← runEntries m rest
    countCycles m (executed + k)
    runLoop (poll m) (runCachedBlock m) cycle n
  else runLoop (pure ()) (runInst m) cycle n

end Points

variable {m : MipsSetup δ}

/-! ## The rest of a run -/

lemma runCachedBlock_eq : runCachedBlock (T := T) m = (do
    let block ← enterBlock m
    let executed ← runBlock m block.entries
    countCycles m executed) := by
  simp only [runCachedBlock, enterBlock, bind_assoc]

omit [MipsTlbBase T] in
lemma runLoop_next {before step : CpuM T δ Unit} {cycle : ℤ} {n : ℕ} {t t₁ t₂ : MipsBase T δ}
    (hcycle : (t.cycleSpent : ℤ) < cycle) (hbefore : before t = .ok ((), t₁))
    (hhalt : t₁.halt = false) (hstep : step t₁ = .ok ((), t₂)) :
    runLoop before step cycle (n + 1) t = runLoop before step cycle n t₂ := by
  rw [runLoop, Prog.bind_of_ok (read_run _ _)]
  rw [if_pos hcycle, Prog.bind_of_ok hbefore, Prog.bind_of_ok (read_run _ _), hhalt,
    if_neg (by simp), Prog.bind_of_ok hstep]

omit [MipsTlbBase T] in
lemma LoopPoint.run_eq {before step : CpuM T δ Unit} {cycle : ℤ} {fuel n : ℕ}
    {s t : MipsBase T δ} (h : LoopPoint before step cycle fuel s n t) :
    runLoop before step cycle fuel s = runLoop before step cycle n t := by
  induction h with
  | start => rfl
  | next _ hcycle hbefore hhalt hstep ih =>
      rw [ih, runLoop_next hcycle hbefore hhalt hstep]

/-- From a boundary a block goes on with the entries left. -/
lemma BlockPoint.run_eq {entries rest : List MipsCacheEntry} {s u : MipsBase T δ} {k : ℕ}
    (h : BlockPoint m entries s k rest u) :
    runBlock m entries s = (do let executed ← runEntries m rest; pure (executed + k)) u := by
  induction h with
  | first hentries hrun => rw [hentries, runBlock, Prog.bind_of_ok hrun]
  | next _ hpc hrun ih =>
      rw [ih, runEntries]
      simp only [bind_assoc]
      rw [Prog.bind_of_ok (read_run _ _), if_pos hpc]
      simp only [bind_assoc, pure_bind]
      rw [Prog.bind_of_ok hrun]
      simp only [Nat.add_assoc, Nat.add_comm 1]

lemma run_begin {fuel : ℕ} {cycle : ℤ} {s t₀ : MipsBase T δ} (h : beginRun m s = .ok ((), t₀)) :
    run m fuel cycle s =
      if m.config.useCachedInterpreter then runLoop (poll m) (runCachedBlock m) cycle fuel t₀
      else runLoop (pure ()) (runInst m) cycle fuel t₀ := by
  rw [beginRun] at h
  rw [run]
  split
  · next hmode =>
      rw [if_pos hmode] at h
      obtain rfl := Prog.state_eq h
      rfl
  · next hmode =>
      rw [if_neg hmode] at h
      rw [runPlain, Prog.bind_of_ok (Prog.modify_run _ _), ← bind_assoc, Prog.bind_of_ok h]

/-- A run that stops before its loop. -/
lemma run_begin_error {fuel : ℕ} {cycle : ℤ} {s : MipsBase T δ} {e : Stop}
    (h : beginRun m s = .error e) : run m fuel cycle s = .error e := by
  rw [beginRun] at h
  split at h
  · exact absurd h Prog.ok_ne_error
  · next hmode =>
      rw [run, if_neg hmode, runPlain, Prog.bind_of_ok (Prog.modify_run _ _), ← bind_assoc,
        Prog.bind_run, h]
      rfl

/-- A run that returns came to its loop. -/
lemma run_begun {fuel : ℕ} {cycle : ℤ} {s : MipsBase T δ} {r : ℤ × MipsBase T δ}
    (h : run m fuel cycle s = .ok r) : ∃ t₀, beginRun m s = .ok ((), t₀) := by
  cases hbegin : beginRun m s with
  | error e => exact absurd (h.symm.trans (run_begin_error hbegin)) Prog.ok_ne_error
  | ok first => exact ⟨first.2, rfl⟩

/-- From a boundary a run goes on as `restOfRun`. -/
theorem RunPoint.run_eq {fuel n k : ℕ} {cycle : ℤ} {s u : MipsBase T δ}
    {rest : List MipsCacheEntry} (h : RunPoint m fuel cycle s rest k n u) :
    run m fuel cycle s = restOfRun m cycle rest k n u := by
  cases h with
  | plain hmode hbegin hloop hcycle hhalt hrun =>
      rw [run_begin hbegin, restOfRun, if_neg (by simp [hmode]), if_neg (by simp [hmode]),
        hloop.run_eq, runLoop_next hcycle (Prog.pure_run _ _) hhalt hrun]
  | cached hmode hbegin hloop hcycle hpoll hhalt hblock hpoint =>
      rw [run_begin hbegin, restOfRun, if_pos hmode, if_pos hmode, hloop.run_eq, runLoop,
        Prog.bind_of_ok (read_run _ _)]
      rw [if_pos hcycle, Prog.bind_of_ok hpoll, Prog.bind_of_ok (read_run _ _), hhalt,
        if_neg (by simp), runCachedBlock_eq]
      simp only [bind_assoc]
      rw [Prog.bind_of_ok hblock, Prog.bind_eq_of_run hpoint.run_eq]
      simp only [bind_assoc, pure_bind]

/-! ## Where blocks and loops end -/

/-- The rest of a block ends at one of its boundaries. -/
lemma runEntries_point {entries rest : List MipsCacheEntry} {s u s' : MipsBase T δ} {k n : ℕ}
    (h : BlockPoint m entries s k rest u) (hrun : runEntries m rest u = .ok (n, s')) :
    ∃ rest', BlockPoint m entries s (k + n) rest' s' := by
  induction rest generalizing k n u with
  | nil =>
      obtain ⟨rfl, rfl⟩ := Prog.ok_inj hrun
      exact ⟨[], h⟩
  | cons entry rest ih =>
      rw [runEntries, Prog.bind_of_ok (read_run _ _)] at hrun
      split at hrun
      · next hpc =>
          obtain ⟨⟨⟩, v, hentry, hmore⟩ := Prog.bind_ok.mp hrun
          obtain ⟨executed, w, hexecuted, hend⟩ := Prog.bind_ok.mp hmore
          obtain ⟨rfl, rfl⟩ := Prog.ok_inj hend
          obtain ⟨rest', hpoint⟩ := ih (h.next hpc hentry) hexecuted
          exact ⟨rest', by rwa [Nat.add_right_comm, Nat.add_assoc] at hpoint⟩
      · obtain ⟨rfl, rfl⟩ := Prog.ok_inj hrun
        exact ⟨_, h⟩

/-- A block with an entry ends at one of its boundaries. -/
lemma runBlock_point {entry : MipsCacheEntry} {rest : List MipsCacheEntry}
    {s s' : MipsBase T δ} {n : ℕ} (hrun : runBlock m (entry :: rest) s = .ok (n, s')) :
    ∃ rest', BlockPoint m (entry :: rest) s n rest' s' := by
  obtain ⟨⟨⟩, u, hentry, hmore⟩ := Prog.bind_ok.mp hrun
  obtain ⟨executed, w, hexecuted, hend⟩ := Prog.bind_ok.mp hmore
  obtain ⟨rfl, rfl⟩ := Prog.ok_inj hend
  obtain ⟨rest', hpoint⟩ := runEntries_point (.first rfl hentry) hexecuted
  exact ⟨rest', Nat.add_comm 1 executed ▸ hpoint⟩

/-- The rest of a block stops at one of its boundaries, in the entry that comes next. -/
lemma runEntries_stop {entries rest : List MipsCacheEntry} {s u : MipsBase T δ} {k : ℕ} {e : Stop}
    (h : BlockPoint m entries s k rest u) (hrun : runEntries m rest u = .error e) :
    ∃ k' entry rest' v, BlockPoint m entries s k' (entry :: rest') v ∧
      v.pc = entry.address.setWidth 64 ∧ runEntry m entry v = .error e := by
  induction rest generalizing k u with
  | nil => exact absurd hrun Prog.ok_ne_error
  | cons entry rest ih =>
      rw [runEntries, Prog.bind_of_ok (read_run _ _)] at hrun
      split at hrun
      · next hpc =>
          rcases Prog.bind_error.mp hrun with hentry | ⟨⟨⟩, v, hentry, hmore⟩
          · exact ⟨k, entry, rest, u, h, hpc, hentry⟩
          · rcases Prog.bind_error.mp hmore with hrest | ⟨executed, w, -, hend⟩
            · exact ih (h.next hpc hentry) hrest
            · exact absurd hend Prog.ok_ne_error
      · exact absurd hrun Prog.ok_ne_error

/-- A block stops in its first entry, or at one of its boundaries in the entry that comes next. -/
lemma runBlock_stop {entries : List MipsCacheEntry} {s : MipsBase T δ} {e : Stop}
    (hrun : runBlock m entries s = .error e) :
    (∃ entry rest, entries = entry :: rest ∧ runEntry m entry s = .error e) ∨
      ∃ k entry rest v, BlockPoint m entries s k (entry :: rest) v ∧
        v.pc = entry.address.setWidth 64 ∧ runEntry m entry v = .error e := by
  cases entries with
  | nil => exact absurd hrun Prog.ok_ne_error
  | cons entry rest =>
      rcases Prog.bind_error.mp hrun with hentry | ⟨⟨⟩, u, hentry, hmore⟩
      · exact Or.inl ⟨entry, rest, rfl, hentry⟩
      · rcases Prog.bind_error.mp hmore with hrest | ⟨executed, w, -, hend⟩
        · exact Or.inr (runEntries_stop (.first rfl hentry) hrest)
        · exact absurd hend Prog.ok_ne_error

section Loop

omit [MipsTlbBase T]

variable {before step : CpuM T δ Unit} {cycle : ℤ} {fuel n : ℕ} {s t s' : MipsBase T δ}

/-- A loop that returns does so at a test, or behind it when the processor is halted. -/
lemma LoopPoint.ends {r : ℤ} (h : LoopPoint before step cycle fuel s n t)
    (hrun : runLoop before step cycle n t = .ok (r, s')) :
    ∃ k u, LoopPoint before step cycle fuel s k u ∧ (s' = u ∨
      ∃ v cycles, (u.cycleSpent : ℤ) < cycle ∧ before u = .ok ((), v) ∧
        s' = { v with cycleSpentTotal := cycles }) := by
  induction n generalizing t with
  | zero => exact absurd hrun.symm Prog.ok_ne_error
  | succ n ih =>
      rw [runLoop, Prog.bind_of_ok (read_run _ _)] at hrun
      split at hrun
      · next hcycle =>
          obtain ⟨⟨⟩, v, hbefore, hmore⟩ := Prog.bind_ok.mp hrun
          rw [Prog.bind_of_ok (read_run _ _)] at hmore
          cases hhalt : v.halt with
          | true =>
              rw [hhalt, if_pos rfl, passCycles, Prog.bind_of_ok (read_run _ _)] at hmore
              refine ⟨n + 1, t, h, Or.inr ⟨v, ?_⟩⟩
              split at hmore
              · exact ⟨_, hcycle, hbefore, (Prog.state_eq hmore).symm⟩
              · exact ⟨v.cycleSpentTotal, hcycle, hbefore, (Prog.state_eq hmore).symm⟩
          | false =>
              rw [hhalt, if_neg (by simp)] at hmore
              obtain ⟨⟨⟩, w, hstep, hloop⟩ := Prog.bind_ok.mp hmore
              exact ih (h.next hcycle hbefore hhalt hstep) hloop
      · exact ⟨n + 1, t, h, Or.inl (Prog.state_eq hrun).symm⟩

/-- A loop stops before a round, in a round, or when there is no fuel left. -/
lemma LoopPoint.stops {e : Stop} (h : LoopPoint before step cycle fuel s n t)
    (hrun : runLoop before step cycle n t = .error e) :
    e = .outOfFuel ∨ ∃ k u, LoopPoint before step cycle fuel s (k + 1) u ∧
      (u.cycleSpent : ℤ) < cycle ∧ (before u = .error e ∨
        ∃ v, before u = .ok ((), v) ∧ v.halt = false ∧ step v = .error e) := by
  induction n generalizing t with
  | zero => exact Or.inl (Except.error.inj hrun).symm
  | succ n ih =>
      rw [runLoop, Prog.bind_of_ok (read_run _ _)] at hrun
      split at hrun
      · next hcycle =>
          rcases Prog.bind_error.mp hrun with hbefore | ⟨⟨⟩, v, hbefore, hmore⟩
          · exact Or.inr ⟨n, t, h, hcycle, Or.inl hbefore⟩
          · rw [Prog.bind_of_ok (read_run _ _)] at hmore
            cases hhalt : v.halt with
            | true =>
                rw [hhalt, if_pos rfl, passCycles, Prog.bind_of_ok (read_run _ _)] at hmore
                split at hmore <;> exact absurd hmore Prog.ok_ne_error
            | false =>
                rw [hhalt, if_neg (by simp)] at hmore
                rcases Prog.bind_error.mp hmore with hstep | ⟨⟨⟩, w, hstep, hloop⟩
                · exact Or.inr ⟨n, t, h, hcycle, Or.inr ⟨v, hbefore, hhalt, hstep⟩⟩
                · exact ih (h.next hcycle hbefore hhalt hstep) hloop
      · exact absurd hrun Prog.ok_ne_error

/-- A loop whose first round uses up the cycles. -/
lemma LoopPoint.single {t₁ u : MipsBase T δ} (hbefore : before s = .ok ((), t₁))
    (hstep : step t₁ = .ok ((), u)) (hspent : ¬ (u.cycleSpent : ℤ) < cycle)
    (h : LoopPoint before step cycle fuel s n t) : t = s ∨ t = u := by
  induction h with
  | start => exact .inl rfl
  | next hpoint hcycle hbefore' hhalt hround ih =>
      rcases ih with rfl | rfl
      · obtain rfl := Prog.state_eq (hbefore'.symm.trans hbefore)
        exact .inr (Prog.state_eq (hround.symm.trans hstep))
      · exact absurd hcycle hspent

end Loop

/-- The boundaries of a block with two entries. -/
lemma BlockPoint.pair {first second : MipsCacheEntry} {s u v w : MipsBase T δ} {k : ℕ}
    {rest : List MipsCacheEntry} (hfirst : runEntry m first s = .ok ((), u))
    (hsecond : runEntry m second u = .ok ((), v)) (h : BlockPoint m [first, second] s k rest w) :
    (rest = [second] ∧ w = u) ∨ (rest = [] ∧ w = v) := by
  induction h with
  | first hentries hrun =>
      obtain ⟨rfl, rfl⟩ := List.cons.inj hentries
      exact .inl ⟨rfl, Prog.state_eq (hrun.symm.trans hfirst)⟩
  | next hpoint hpc hrun ih =>
      rcases ih with ⟨hrest, rfl⟩ | ⟨hrest, -⟩
      · obtain ⟨rfl, rfl⟩ := List.cons.inj hrest
        exact .inr ⟨rfl, Prog.state_eq (hrun.symm.trans hsecond)⟩
      · exact absurd hrest (by simp)

/-! ## Relations along a run

A reflexive and transitive relation that every part of a run respects is respected by the
loops and holds between the first state and every boundary. -/

section Moves

variable {R : MipsBase T δ → MipsBase T δ → Prop} (hrefl : ∀ s, R s s)
  (htrans : ∀ s t u, R s t → R t u → R s u)

include htrans

lemma BlockPoint.moves {entries rest : List MipsCacheEntry} {s u : MipsBase T δ} {k : ℕ}
    (hentries : ∀ entry ∈ entries, Prog.Moves R (runEntry m entry))
    (h : BlockPoint m entries s k rest u) : R s u ∧ ∀ entry ∈ rest, entry ∈ entries := by
  induction h with
  | @first entry rest u hsplit hrun =>
      subst hsplit
      exact ⟨hentries entry List.mem_cons_self s () u hrun, fun e he => List.mem_cons_of_mem _ he⟩
  | @next entry rest k u u' _ _ hrun ih =>
      have hmem := ih.2 entry List.mem_cons_self
      exact ⟨htrans s u u' ih.1 (hentries entry hmem u () u' hrun),
        fun e he => ih.2 e (List.mem_cons_of_mem _ he)⟩

include hrefl

lemma moves_runEntries {entries : List MipsCacheEntry}
    (hentries : ∀ entry ∈ entries, Prog.Moves R (runEntry m entry)) :
    Prog.Moves R (runEntries m entries) := by
  induction entries with
  | nil => exact .of_pure hrefl 0
  | cons entry rest ih =>
      refine .bind htrans (.of_read hrefl _) fun pc => ?_
      split
      · exact .bind htrans (hentries entry List.mem_cons_self) fun _ =>
          .bind htrans (ih fun e he => hentries e (List.mem_cons_of_mem _ he)) fun executed =>
          .of_pure hrefl _
      · exact .of_pure hrefl 0

lemma moves_runBlock {entries : List MipsCacheEntry}
    (hentries : ∀ entry ∈ entries, Prog.Moves R (runEntry m entry)) :
    Prog.Moves R (runBlock m entries) := by
  cases entries with
  | nil => exact .of_pure hrefl 0
  | cons entry rest =>
      exact .bind htrans (hentries entry List.mem_cons_self) fun _ =>
        .bind htrans (moves_runEntries hrefl htrans fun e he =>
          hentries e (List.mem_cons_of_mem _ he)) fun executed => .of_pure hrefl _

omit [MipsTlbBase T] in
lemma LoopPoint.moves {before step : CpuM T δ Unit} {cycle : ℤ} {fuel n : ℕ}
    {s t : MipsBase T δ} (hbefore : Prog.Moves R before) (hstep : Prog.Moves R step)
    (h : LoopPoint before step cycle fuel s n t) : R s t := by
  induction h with
  | start => exact hrefl s
  | next _ _ hbefore' _ hstep' ih =>
      exact htrans _ _ _ ih (htrans _ _ _ (hbefore _ _ _ hbefore') (hstep _ _ _ hstep'))

omit [MipsTlbBase T] in
lemma moves_runLoop {before step : CpuM T δ Unit}
    (hpass : ∀ s cycles, R s { s with cycleSpentTotal := cycles })
    (hbefore : Prog.Moves R before) (hstep : Prog.Moves R step) (cycle : ℤ) (n : ℕ) :
    Prog.Moves R (runLoop before step cycle n) := by
  have hread : ∀ {α : Type} (f : MipsBase T δ → α), Prog.Moves R (read f) := .of_read hrefl
  induction n with
  | zero => exact .of_throw _
  | succ n ih =>
      refine .bind htrans (hread _) fun spent => ?_
      split
      · refine .bind htrans hbefore fun _ => .bind htrans (hread _) fun halt => ?_
        split
        · refine .bind htrans (hread _) fun spent' => ?_
          split
          · exact .bind htrans (.of_modify fun s => hpass s _) fun _ => .of_pure hrefl _
          · exact .of_pure hrefl _
        · exact .bind htrans hstep fun _ => ih
      · exact .of_pure hrefl _

/-- Entering a block changes nothing but the block cache, apart from what building one does. -/
lemma moves_enterBlock_of_build
    (hbuild : ∀ address, Prog.Moves R (buildBlock (T := T) m address))
    (hcache : ∀ s c, R s { s with cache := c }) : Prog.Moves R (enterBlock (T := T) m) := by
  have hget : Prog.Moves R (getBlock : CpuM T δ _) := by
    intro s a s' h
    rw [← Prog.state_eq h]
    exact hcache s _
  have hderef : ∀ i, Prog.Moves R (derefBlock i : CpuM T δ _) := by
    intro i s a s' h
    simp only [derefBlock] at h
    split at h
    · rw [← Prog.state_eq h]
      exact hrefl s
    · exact absurd h (by simp)
  have hclear : Prog.Moves R (executeCacheClear (T := T) m) := by
    refine .of_modify fun s => ?_
    split
    · exact hcache s _
    · exact hrefl s
  have hnew : ∀ address, Prog.Moves R (onNewBlock (T := T) m address) := fun address =>
    .bind htrans (hbuild _) fun _ => .of_modify fun s => hcache s _
  have hgetOrBuild : Prog.Moves R (getOrBuildBlock (T := T) m) := by
    refine .bind htrans hget fun block => ?_
    cases block with
    | some i => exact .of_pure hrefl i
    | none =>
        refine .bind htrans (.of_read hrefl _) fun pc => .bind htrans (hnew pc) fun _ =>
          .bind htrans hget fun block => ?_
        cases block with
        | some i => exact .of_pure hrefl i
        | none => exact .of_throw _
  exact .bind htrans hclear fun _ => .bind htrans hgetOrBuild hderef

/-- Entering a block changes nothing but the block cache, apart from what fetches do. -/
lemma moves_enterBlock
    (hinternal : ∀ {α : Type} {x : CpuM T δ α}, Internals m x → Prog.Moves R x)
    (hcache : ∀ s c, R s { s with cache := c }) : Prog.Moves R (enterBlock (T := T) m) :=
  moves_enterBlock_of_build hrefl htrans (fun _ => hinternal (internal_buildBlock _)) hcache

end Moves

/-! ## What was reported stays -/

/-- The reports of the first state are there in the second. -/
def Extends (s s' : MipsBase T δ) : Prop := ∃ new, s'.trace = new ++ s.trace

section Extends

omit [MipsTlbBase T]

lemma Extends.refl (s : MipsBase T δ) : Extends s s := ⟨[], rfl⟩

lemma Extends.trans {s t u : MipsBase T δ} (h : Extends s t) (h' : Extends t u) :
    Extends s u := by
  obtain ⟨new, hnew⟩ := h
  obtain ⟨new', hnew'⟩ := h'
  exact ⟨new' ++ new, by rw [hnew', hnew, List.append_assoc]⟩

lemma Extends.of_same {s s' : MipsBase T δ} (h : s'.trace = s.trace) : Extends s s' := ⟨[], h⟩

lemma extends_of_background {α : Type} {x : CpuM T δ α} (h : Prog.Moves Background x) :
    Prog.Moves Extends x := h.mono fun _ _ hb => hb.trace.imp fun _ hnew => hnew.1

end Extends

lemma extends_runEntry (entry : MipsCacheEntry) :
    Prog.Moves Extends (runEntry (T := T) m entry) := by
  intro s a s' h
  obtain ⟨t, hcall, rfl⟩ := runEntry_ok.mp h
  obtain ⟨new, htrace, -⟩ := (callInst_grown hcall).trace
  exact ⟨new ++ [.preExecute s.pc entry.opcode], by
    change t.trace = _
    rw [htrace, List.append_assoc]
    rfl⟩

lemma extends_runEntries (entries : List MipsCacheEntry) :
    Prog.Moves Extends (runEntries (T := T) m entries) :=
  moves_runEntries .refl (fun _ _ _ => .trans) fun entry _ => extends_runEntry entry

lemma extends_runBlock (entries : List MipsCacheEntry) :
    Prog.Moves Extends (runBlock (T := T) m entries) :=
  moves_runBlock .refl (fun _ _ _ => .trans) fun entry _ => extends_runEntry entry

lemma extends_enterBlock : Prog.Moves Extends (enterBlock (T := T) m) :=
  moves_enterBlock .refl (fun _ _ _ => .trans)
    (fun hx => extends_of_background (background_internals hx)) fun _ _ => .of_same rfl

omit [MipsTlbBase T] in
lemma extends_countCycles (executed : ℕ) :
    Prog.Moves Extends (countCycles (T := T) m executed) := .of_modify fun _ => .of_same rfl

lemma extends_runCachedBlock : Prog.Moves Extends (runCachedBlock (T := T) m) := by
  rw [runCachedBlock_eq]
  exact .bind (fun _ _ _ => .trans) extends_enterBlock fun block =>
    .bind (fun _ _ _ => .trans) (extends_runBlock block.entries) fun executed =>
    extends_countCycles executed

omit [MipsTlbBase T] in
lemma extends_runLoop {before step : CpuM T δ Unit} (hbefore : Prog.Moves Extends before)
    (hstep : Prog.Moves Extends step) (cycle : ℤ) (n : ℕ) :
    Prog.Moves Extends (runLoop before step cycle n) :=
  moves_runLoop .refl (fun _ _ _ => .trans) (fun _ _ => .of_same rfl) hbefore hstep cycle n

end MipsBase

end NgMips
