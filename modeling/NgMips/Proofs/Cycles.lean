import NgMips.Proofs.Clock
import NgMips.Proofs.EachBlock

/-!
# Cycle accounting

Every instruction costs `cpi_` units of 1/256 cycle.  The plain interpreter counts them one by
one, the cached one block by block; the fraction of a cycle that is left stays in `cpi_counter_`.
A skipped idle loop adds a hundred cycles.  `runCalls` lists the handlers a run calls, and
`Accounts` is the balance between two states of a run and what was called between them.  This
file draws it up for one round of either interpreter; a round that stops does so in a handler
that was called, or because the processor gives up (`GivesUp`).
-/

namespace NgMips

/-- The call of a handler, with the state in which it is called. -/
structure HandlerCall (T δ : Type) where
  opcode : BitVec 32
  func : MipsInstId
  state : MipsBase T δ

namespace HandlerCall

variable {T δ : Type} [MipsTlbBase T] (m : MipsSetup δ) (c : HandlerCall T δ)

/-- The handler ends without a `PANIC`. -/
def Returns : Prop := ∃ t, MipsBase.callInst m c.opcode c.func c.state = .ok ((), t)

/-- The handler skips an idle loop. -/
def skips : Bool := decide (MipsBase.SkipsIdle m c.opcode c.func c.state)

end HandlerCall

namespace MipsBase

variable {T δ : Type} [MipsTlbBase T]

/-! ## The handlers a run calls -/

section Calls

variable (m : MipsSetup δ)

omit [MipsTlbBase T] in
/-- What is called after a program, if it ends. -/
def callsAfter {α : Type} (x : CpuM T δ α) (next : α → MipsBase T δ → List (HandlerCall T δ))
    (s : MipsBase T δ) : List (HandlerCall T δ) :=
  match x s with
  | .ok (a, t) => next a t
  | .error _ => []

omit [MipsTlbBase T] in
/-- The call of `runEntry`. -/
def entryCall (entry : MipsCacheEntry) (s : MipsBase T δ) : HandlerCall T δ :=
  ⟨entry.opcode, entry.func, started entry.opcode s⟩

/-- The calls of `runEntries`. -/
def entriesCalls : List MipsCacheEntry → MipsBase T δ → List (HandlerCall T δ)
  | [], _ => []
  | entry :: rest, s =>
      if s.pc = entry.address.setWidth 64 then
        entryCall entry s :: callsAfter (runEntry m entry) (fun _ => entriesCalls rest) s
      else []

/-- The calls of `runBlock`. -/
def blockCalls : List MipsCacheEntry → MipsBase T δ → List (HandlerCall T δ)
  | [], _ => []
  | entry :: rest, s =>
      entryCall entry s :: callsAfter (runEntry m entry) (fun _ => entriesCalls m rest) s

/-- The calls of `runCachedBlock`. -/
def cachedCalls : MipsBase T δ → List (HandlerCall T δ) :=
  callsAfter (enterBlock m) fun block => blockCalls m block.entries

/-- The call of `runInst`. -/
def instCalls (s : MipsBase T δ) : List (HandlerCall T δ) :=
  callsAfter (fetch m s.pc)
    (fun opcode t => [⟨opcode, getInstFuncPtr m.kIs64Bit opcode, started opcode t⟩]) s

omit [MipsTlbBase T] in
/-- The calls of `runLoop`. -/
def loopCalls (before step : CpuM T δ Unit) (calls : MipsBase T δ → List (HandlerCall T δ))
    (cycle : ℤ) : ℕ → MipsBase T δ → List (HandlerCall T δ)
  | 0, _ => []
  | n + 1, s =>
      if (s.cycleSpent : ℤ) < cycle then
        callsAfter before (fun _ t =>
          if t.halt then []
          else calls t ++ callsAfter step (fun _ => loopCalls before step calls cycle n) t) s
      else []

/-- The calls of `run`. -/
def runCalls (fuel : ℕ) (cycle : ℤ) (s : MipsBase T δ) : List (HandlerCall T δ) :=
  match beginRun m s with
  | .ok (_, t) =>
      if m.config.useCachedInterpreter then
        loopCalls (poll m) (runCachedBlock m) (cachedCalls m) cycle fuel t
      else loopCalls (pure ()) (runInst m) (instCalls m) cycle fuel t
  | .error _ => []

end Calls

omit [MipsTlbBase T] in
lemma callsAfter_ok {α : Type} {x : CpuM T δ α} {next : α → MipsBase T δ → List (HandlerCall T δ)}
    {s t : MipsBase T δ} {a : α} (h : x s = .ok (a, t)) : callsAfter x next s = next a t := by
  rw [callsAfter, h]

omit [MipsTlbBase T] in
lemma callsAfter_error {α : Type} {x : CpuM T δ α}
    {next : α → MipsBase T δ → List (HandlerCall T δ)} {s : MipsBase T δ} {e : Stop}
    (h : x s = .error e) : callsAfter x next s = [] := by
  rw [callsAfter, h]

variable {m : MipsSetup δ}

/-! ## Before the cycles are counted -/

/-- The observer was told of `n` instructions. -/
def Observes (n : ℕ) (s u : MipsBase T δ) : Prop :=
  ∃ new, u.trace = new ++ s.trace ∧ new.countP Event.isExecute = n

namespace Observes

omit [MipsTlbBase T]

lemma refl (s : MipsBase T δ) : Observes 0 s s := ⟨[], rfl, rfl⟩

lemma trans {k l : ℕ} {s t u : MipsBase T δ} (h : Observes k s t) (h' : Observes l t u) :
    Observes (k + l) s u := by
  obtain ⟨new, htrace, hcount⟩ := h
  obtain ⟨new', htrace', hcount'⟩ := h'
  refine ⟨new' ++ new, by rw [htrace', htrace, List.append_assoc], ?_⟩
  rw [List.countP_append, hcount, hcount', Nat.add_comm]

end Observes

/-- The handlers in the list were called, and their cycles are not counted yet. -/
structure Called (m : MipsSetup δ) (calls : List (HandlerCall T δ)) (s u : MipsBase T δ) :
    Prop where
  skipped : Skipped (calls.countP (HandlerCall.skips m)) s u
  observes : Observes calls.length s u
  blocks : SizedBlocks s.cache → SizedBlocks u.cache

namespace Called

lemma trans {calls calls' : List (HandlerCall T δ)} {s t u : MipsBase T δ}
    (h : Called m calls s t) (h' : Called m calls' t u) : Called m (calls ++ calls') s u where
  skipped := by
    rw [List.countP_append]
    exact h.skipped.trans h'.skipped
  observes := by
    rw [List.length_append]
    exact h.observes.trans h'.observes
  blocks hs := h'.blocks (h.blocks hs)

/-- Nothing was called. -/
lemma of_same {s u : MipsBase T δ} (hclock : SameClock s u) (htrace : u.trace = s.trace)
    (hblocks : SizedBlocks s.cache → SizedBlocks u.cache) : Called m [] s u :=
  ⟨.of_sameClock hclock, ⟨[], htrace, rfl⟩, hblocks⟩

lemma refl (s : MipsBase T δ) : Called m [] s s := .of_same rfl rfl id

end Called

lemma called_internals {α : Type} {x : CpuM T δ α} (hx : Internals m x) :
    Prog.Moves (Called m []) x := by
  intro s a s' h
  have hback := background_internals hx s a s' h
  obtain ⟨new, htrace, hnew⟩ := hback.trace
  refine ⟨.of_sameClock (sameClock_internals hx s a s' h), ⟨new, htrace, ?_⟩,
    fun hs => hback.cache ▸ hs⟩
  exact List.countP_eq_zero.mpr fun e he => by simp [hnew e he]

/-- One instruction, from the report to the observer to the end of its handler. -/
lemma called_callInst {opcode : BitVec 32} {func : MipsInstId} {s t : MipsBase T δ}
    (h : callInst m opcode func (started opcode s) = .ok ((), t)) :
    Called m [⟨opcode, func, started opcode s⟩] s t := by
  have hstart : Skipped 0 s (started opcode s) := .of_sameClock rfl
  have hgrown := callInst_grown h
  obtain ⟨new, htrace, hnew⟩ := hgrown.trace
  refine ⟨?_, ⟨new ++ [.preExecute s.pc opcode], ?_, ?_⟩, fun hs => ?_⟩
  · have hskip := hstart.trans (callInst_skipped h)
    rw [Nat.zero_add] at hskip
    rw [List.countP_singleton, HandlerCall.skips]
    simpa using hskip
  · rw [htrace, List.append_assoc]
    rfl
  · have hquiet : new.countP Event.isExecute = 0 :=
      List.countP_eq_zero.mpr fun e he => by simp [hnew e he]
    rw [List.countP_append, hquiet]
    rfl
  · have hsame : t.cache.cache = s.cache.cache := hgrown.cache.same.cache
    exact hs.of_mem fun e he => hsame ▸ he

lemma called_runEntry {entry : MipsCacheEntry} {s t : MipsBase T δ}
    (h : runEntry m entry s = .ok ((), t)) : Called m [entryCall entry s] s t := by
  obtain ⟨u, hcall, rfl⟩ := runEntry_ok.mp h
  exact (called_callInst hcall).trans (.of_same rfl rfl id)

lemma called_runEntries {entries : List MipsCacheEntry} {n : ℕ} {s u : MipsBase T δ}
    (h : runEntries m entries s = .ok (n, u)) :
    n = (entriesCalls m entries s).length ∧ Called m (entriesCalls m entries s) s u := by
  induction entries generalizing n s with
  | nil =>
      obtain ⟨rfl, rfl⟩ := Prog.ok_inj h
      exact ⟨rfl, .refl _⟩
  | cons entry rest ih =>
      rw [runEntries, Prog.bind_of_ok (read_run _ _)] at h
      rw [entriesCalls]
      split at h
      -- The program counter is still that of the entry.
      · next hpc =>
          obtain ⟨_, t, hentry, hrest⟩ := Prog.bind_ok.mp h
          obtain ⟨k, u', hentries, hcount⟩ := Prog.bind_ok.mp hrest
          obtain ⟨rfl, rfl⟩ := Prog.ok_inj hcount
          obtain ⟨hlength, hcalled⟩ := ih hentries
          rw [if_pos hpc, callsAfter_ok hentry, List.length_cons, ← hlength]
          exact ⟨rfl, (called_runEntry hentry).trans hcalled⟩
      · next hpc =>
          obtain ⟨rfl, rfl⟩ := Prog.ok_inj h
          rw [if_neg hpc]
          exact ⟨rfl, .refl _⟩

lemma called_runBlock {entries : List MipsCacheEntry} {n : ℕ} {s u : MipsBase T δ}
    (h : runBlock m entries s = .ok (n, u)) :
    n = (blockCalls m entries s).length ∧ Called m (blockCalls m entries s) s u := by
  cases entries with
  | nil =>
      obtain ⟨rfl, rfl⟩ := Prog.ok_inj h
      exact ⟨rfl, .refl _⟩
  | cons entry rest =>
      obtain ⟨_, t, hentry, hrest⟩ := Prog.bind_ok.mp h
      obtain ⟨k, u', hentries, hcount⟩ := Prog.bind_ok.mp hrest
      obtain ⟨rfl, rfl⟩ := Prog.ok_inj hcount
      obtain ⟨hlength, hcalled⟩ := called_runEntries hentries
      rw [blockCalls, callsAfter_ok hentry, List.length_cons, ← hlength]
      exact ⟨rfl, (called_runEntry hentry).trans hcalled⟩

/-- Entering a block calls no handler. -/
lemma called_enterBlock {s t : MipsBase T δ} {block : MipsCacheBlock}
    (h : enterBlock m s = .ok (block, t)) : Called m [] s t := by
  have hclock : SameClock s t := moves_enterBlock .refl (fun _ _ _ => .trans) sameClock_internals
    (fun _ _ => rfl) s block t h
  have hobserves : Observes 0 s t := moves_enterBlock .refl (fun _ _ _ => .trans)
    (fun hx s a s' hrun => (called_internals hx s a s' hrun).observes) (fun _ _ => ⟨[], rfl, rfl⟩)
    s block t h
  exact ⟨.of_sameClock hclock, hobserves, fun hs => ((sized_enterBlock s hs).2 block t h).1⟩

/-! ## The balance -/

/-- The cycles of the running call, in units of 1/256 cycle. -/
def units (s : MipsBase T δ) : ℕ := 256 * s.cycleSpent + s.cpiCounter

/-- The handlers in the list were called, and their cycles are counted. -/
structure Accounts (m : MipsSetup δ) (calls : List (HandlerCall T δ)) (s u : MipsBase T δ) :
    Prop where
  units : u.units = s.units + calls.length * m.config.cpi.toNat +
    25600 * calls.countP (HandlerCall.skips m)
  counter : s.cpiCounter < 256 → u.cpiCounter < 256
  timestamp : u.cycleSpentTotal + BitVec.ofNat 64 s.cycleSpent =
    s.cycleSpentTotal + BitVec.ofNat 64 u.cycleSpent
  observes : Observes calls.length s u
  blocks : SizedBlocks s.cache → SizedBlocks u.cache

namespace Accounts

lemma trans {calls calls' : List (HandlerCall T δ)} {s t u : MipsBase T δ}
    (h : Accounts m calls s t) (h' : Accounts m calls' t u) : Accounts m (calls ++ calls') s u where
  units := by
    rw [h'.units, h.units, List.length_append, List.countP_append, Nat.add_mul]
    omega
  counter hs := h'.counter (h.counter hs)
  timestamp := by
    -- The timestamp and the cycles of the call grow by the same amount, modulo `2 ^ 64`.
    have hfirst := h.timestamp
    have hsecond := h'.timestamp
    grind
  observes := by
    rw [List.length_append]
    exact h.observes.trans h'.observes
  blocks hs := h'.blocks (h.blocks hs)

/-- The cycles are counted after the instructions. -/
lemma of_counted {calls : List (HandlerCall T δ)} {s t : MipsBase T δ} (h : Called m calls s t) :
    Accounts m calls s (counted m calls.length t) where
  units := by
    -- The quotient by 256 is carried into the cycles, the remainder stays in the counter.
    have hcarry := Nat.div_add_mod (t.cpiCounter + calls.length * m.config.cpi.toNat) 256
    have hspent := h.skipped.cycleSpent
    have hcpi := h.skipped.cpiCounter
    simp only [MipsBase.units, counted]
    omega
  counter _ := Nat.mod_lt _ (by decide)
  timestamp := by
    have hspent := h.skipped.cycleSpent
    have htotal := h.skipped.cycleSpentTotal
    simp only [counted, hspent, htotal, BitVec.ofNat_add]
    grind
  observes := h.observes
  blocks := h.blocks

/-- Nothing was called, so that nothing is to be counted. -/
lemma of_called {s t : MipsBase T δ} (h : Called m [] s t) : Accounts m [] s t where
  units := by
    have hspent := h.skipped.cycleSpent
    have hcpi := h.skipped.cpiCounter
    simp only [List.countP_nil] at hspent
    simp only [MipsBase.units, hspent, hcpi, List.length_nil, List.countP_nil]
    omega
  counter hs := by rw [h.skipped.cpiCounter]; exact hs
  timestamp := by
    have hspent := h.skipped.cycleSpent
    have htotal := h.skipped.cycleSpentTotal
    simp only [List.countP_nil] at hspent htotal
    simp [hspent, htotal]
  observes := h.observes
  blocks := h.blocks

end Accounts

lemma accounts_runInst {s u : MipsBase T δ} (h : runInst m s = .ok ((), u)) :
    Accounts m (instCalls m s) s u ∧ (instCalls m s).length = 1 := by
  obtain ⟨opcode, t₀, t, hfetch, hcall, rfl⟩ := runInst_ok.mp h
  have hcalled : Called m (instCalls m s) s (stepped (BitVec.allOnes 64) t) := by
    rw [instCalls, callsAfter_ok hfetch]
    exact ((called_internals (internal_fetch _) s opcode t₀ hfetch).trans
      (called_callInst hcall)).trans (.of_same rfl rfl id)
  have hone : (instCalls m s).length = 1 := by rw [instCalls, callsAfter_ok hfetch]; rfl
  refine ⟨?_, hone⟩
  rw [← hone]
  exact .of_counted hcalled

lemma accounts_runCachedBlock {s u : MipsBase T δ} (h : runCachedBlock m s = .ok ((), u)) :
    Accounts m (cachedCalls m s) s u := by
  rw [runCachedBlock_eq] at h
  obtain ⟨block, t, henter, hrest⟩ := Prog.bind_ok.mp h
  obtain ⟨n, u', hblock, hcount⟩ := Prog.bind_ok.mp hrest
  obtain ⟨rfl, hcalled⟩ := called_runBlock hblock
  rw [← Prog.state_eq hcount, cachedCalls, callsAfter_ok henter]
  exact .of_counted ((called_enterBlock henter).trans hcalled)

/-! ## How many handlers a block calls -/

lemma length_entriesCalls (entries : List MipsCacheEntry) (s : MipsBase T δ) :
    (entriesCalls m entries s).length ≤ entries.length := by
  induction entries generalizing s with
  | nil => exact le_rfl
  | cons entry rest ih =>
      rw [entriesCalls]
      split
      · cases hentry : runEntry m entry s with
        | ok r =>
            rw [callsAfter_ok hentry, List.length_cons, List.length_cons]
            exact Nat.succ_le_succ (ih r.2)
        | error e =>
            rw [callsAfter_error hentry]
            simp
      · simp

lemma length_blockCalls (entries : List MipsCacheEntry) (s : MipsBase T δ) :
    min 1 entries.length ≤ (blockCalls m entries s).length ∧
      (blockCalls m entries s).length ≤ entries.length := by
  cases entries with
  | nil => exact ⟨le_rfl, le_rfl⟩
  | cons entry rest =>
      rw [blockCalls]
      cases hentry : runEntry m entry s with
      | ok r =>
          rw [callsAfter_ok hentry, List.length_cons, List.length_cons]
          exact ⟨by omega, Nat.succ_le_succ (length_entriesCalls rest r.2)⟩
      | error e =>
          rw [callsAfter_error hentry]
          simp

/-! ## Why a run stops -/

/-- The processor gives up outside of a handler: with the `PANIC` of an exception, of the
translation unit or in the delay slot of no branch; or the cached interpreter with a block that is
not found behind `OnNewBlock`, or is no longer there. -/
def GivesUp (m : MipsSetup δ) (e : Stop) : Prop :=
  e ∈ [.panic .tlbException, .panic .nonBranchOnBd] ∨
    (m.config.useCachedInterpreter = true ∧
      e ∈ [.panic .blockCreationFailed, .danglingPointer])

omit [MipsTlbBase T] in
lemma stops_internals {α : Type} {x : CpuM T δ α} (hx : Internals m x) :
    Prog.Stops (GivesUp m) x := by
  refine hx.stops fun α x hx => ?_
  cases hx with
  | panic α reason hreason =>
      refine .of_throw (.inl ?_)
      rcases hreason with rfl | rfl <;> simp
  | _ => exact .of_ok fun _ => ⟨_, rfl⟩

lemma stops_enterBlock (hmode : m.config.useCachedInterpreter = true) :
    Prog.Stops (GivesUp m) (enterBlock (T := T) m) := by
  have hget : Prog.Stops (GivesUp m) (getBlock : CpuM T δ _) := .of_ok fun _ => ⟨_, rfl⟩
  have hderef : ∀ i, Prog.Stops (GivesUp m) (derefBlock i : CpuM T δ _) := by
    intro i s e h
    simp only [derefBlock] at h
    split at h
    · exact absurd h Prog.ok_ne_error
    · exact .inr ⟨hmode, by simp [← Except.error.inj h]⟩
  have hbuild : Prog.Stops (GivesUp m) (getOrBuildBlock (T := T) m) := by
    refine .bind hget fun block => ?_
    cases block with
    | some i => exact .of_pure i
    | none =>
        have hnew : ∀ address, Prog.Stops (GivesUp m) (onNewBlock (T := T) m address) :=
          fun address => .bind (stops_internals (internal_buildBlock _)) fun _ => .of_modify _
        refine .bind (stops_internals (.op (.read _ fun _ _ => rfl))) fun pc =>
          .bind (hnew pc) fun _ => .bind hget fun block => ?_
        cases block with
        | some i => exact .of_pure i
        | none => exact .of_throw (.inr ⟨hmode, by simp⟩)
  exact .bind (.of_modify _) fun _ => .bind hbuild hderef

lemma stops_poll : Prog.Stops (GivesUp m) (poll (T := T) m) := by
  rw [poll]
  split
  · refine .bind (.of_modify _) fun _ => .bind (.of_ok fun _ => ⟨_, rfl⟩) fun counter => ?_
    split
    · exact .bind (.of_modify _) fun _ => stops_internals internal_begin
    · exact .of_pure ()
  · exact .of_pure ()

/-- A handler that is called in an entry does not return when the entry stops. -/
lemma runEntry_error {entry : MipsCacheEntry} {s : MipsBase T δ} {e : Stop}
    (h : runEntry m entry s = .error e) : ¬ (entryCall entry s).Returns m := by
  rintro ⟨t, hcall⟩
  rw [runEntry_ok.mpr ⟨t, hcall, rfl⟩] at h
  exact absurd h Prog.ok_ne_error

lemma runEntries_error {entries : List MipsCacheEntry} {s : MipsBase T δ} {e : Stop}
    (h : runEntries m entries s = .error e) : ∃ c ∈ entriesCalls m entries s, ¬ c.Returns m := by
  induction entries generalizing s e with
  | nil => exact absurd h Prog.ok_ne_error
  | cons entry rest ih =>
      rw [runEntries, Prog.bind_of_ok (read_run _ _)] at h
      rw [entriesCalls]
      split at h
      · next hpc =>
          rw [if_pos hpc]
          rcases Prog.bind_error.mp h with hentry | ⟨⟨⟩, t, hentry, hcount⟩
          · exact ⟨_, List.mem_cons_self, runEntry_error hentry⟩
          · rw [callsAfter_ok hentry]
            rcases Prog.bind_error.mp hcount with hrest | ⟨n, u, -, hpure⟩
            · obtain ⟨c, hc, hstuck⟩ := ih hrest
              exact ⟨c, List.mem_cons_of_mem _ hc, hstuck⟩
            · exact absurd hpure Prog.ok_ne_error
      · exact absurd h Prog.ok_ne_error

lemma runBlock_error {entries : List MipsCacheEntry} {s : MipsBase T δ} {e : Stop}
    (h : runBlock m entries s = .error e) : ∃ c ∈ blockCalls m entries s, ¬ c.Returns m := by
  cases entries with
  | nil => exact absurd h Prog.ok_ne_error
  | cons entry rest =>
      rw [runBlock] at h
      rw [blockCalls]
      rcases Prog.bind_error.mp h with hentry | ⟨⟨⟩, t, hentry, hcount⟩
      · exact ⟨_, List.mem_cons_self, runEntry_error hentry⟩
      · rw [callsAfter_ok hentry]
        rcases Prog.bind_error.mp hcount with hrest | ⟨n, u, -, hpure⟩
        · obtain ⟨c, hc, hstuck⟩ := runEntries_error hrest
          exact ⟨c, List.mem_cons_of_mem _ hc, hstuck⟩
        · exact absurd hpure Prog.ok_ne_error

lemma runCachedBlock_error (hmode : m.config.useCachedInterpreter = true) {s : MipsBase T δ}
    {e : Stop} (h : runCachedBlock m s = .error e) :
    GivesUp m e ∨ ∃ c ∈ cachedCalls m s, ¬ c.Returns m := by
  rw [runCachedBlock_eq] at h
  rcases Prog.bind_error.mp h with henter | ⟨block, t, henter, hrest⟩
  · exact .inl (stops_enterBlock hmode s _ henter)
  · rw [cachedCalls, callsAfter_ok henter]
    rcases Prog.bind_error.mp hrest with hblock | ⟨n, u, -, hcount⟩
    · exact .inr (runBlock_error hblock)
    · exact absurd hcount Prog.ok_ne_error

lemma runInst_error {s : MipsBase T δ} {e : Stop} (h : runInst m s = .error e) :
    GivesUp m e ∨ ∃ c ∈ instCalls m s, ¬ c.Returns m := by
  rw [runInst, Prog.bind_of_ok (read_run _ _)] at h
  rcases Prog.bind_error.mp h with hfetch | ⟨opcode, t, hfetch, -⟩
  · exact .inl (stops_internals (internal_fetch _) s _ hfetch)
  · refine .inr ⟨_, by rw [instCalls, callsAfter_ok hfetch]; exact List.mem_singleton_self _, ?_⟩
    rintro ⟨u, hcall⟩
    have hrun := runInst_ok.mpr ⟨opcode, t, u, hfetch, hcall, rfl⟩
    rw [runInst, Prog.bind_of_ok (read_run _ _), h] at hrun
    exact absurd hrun Prog.ok_ne_error.symm

end MipsBase

end NgMips
