import NgMips.Proofs.Cycles
import NgMips.Proofs.Word32

/-!
# What a run keeps

Whether a run keeps an invariant often depends on the instructions it executes.  `KeptBy Q I` says
that instructions called in states with which they satisfy `Q` keep `I`, and that everything else a
run does keeps it in any case.  Then `I` holds throughout a run that makes such calls only
(`KeptBy.runCalls`); and when the states do not matter, in every state a run goes through up to which
only such instructions were executed, in both interpreters (`KeptBy.visits`).

What was executed is read from the reports to the observer.  The cached interpreter executes what
its blocks say, so these have to be predecoded by this processor.  Every run keeps that, and
whatever was done with a processor since it was built, its blocks are (`decodedBlocks_of_calls`).
-/

namespace NgMips

/-- The instruction the observer is told of. -/
def Event.executed : Event → Option (BitVec 32)
  | preExecute _ opcode => some opcode
  | _ => none

namespace MipsBase

variable {T δ : Type}

/-- Between the two states only instructions that satisfy `P` were executed. -/
def ExecutesOnly (P : BitVec 32 → Prop) (s u : MipsBase T δ) : Prop :=
  ∃ new, u.trace = new ++ s.trace ∧ ∀ opcode ∈ new.filterMap Event.executed, P opcode

/-- Predecoded blocks stay predecoded, and the invariant is kept when only instructions that satisfy
`P` were executed. -/
def Kept (m : MipsSetup δ) (P : BitVec 32 → Prop) (I : MipsBase T δ → Prop)
    (s s' : MipsBase T δ) : Prop :=
  DecodedBlocks m s.cache → DecodedBlocks m s'.cache ∧ ∃ new, s'.trace = new ++ s.trace ∧
    ((∀ opcode ∈ new.filterMap Event.executed, P opcode) → I s → I s')

namespace Kept

variable {m : MipsSetup δ} {P : BitVec 32 → Prop} {I : MipsBase T δ → Prop}

lemma refl (s : MipsBase T δ) : Kept m P I s s := fun hd => ⟨hd, [], rfl, fun _ h => h⟩

lemma trans {s t u : MipsBase T δ} (h : Kept m P I s t) (h' : Kept m P I t u) :
    Kept m P I s u := by
  intro hd
  obtain ⟨hdt, new, htrace, hkept⟩ := h hd
  obtain ⟨hdu, new', htrace', hkept'⟩ := h' hdt
  refine ⟨hdu, new' ++ new, by rw [htrace', htrace, List.append_assoc], fun hP hs => ?_⟩
  rw [List.filterMap_append] at hP
  exact hkept' (fun opcode he => hP opcode (List.mem_append_left _ he))
    (hkept (fun opcode he => hP opcode (List.mem_append_right _ he)) hs)

/-- Nothing was executed and no block was built. -/
lemma of_same {s s' : MipsBase T δ} (htrace : s'.trace = s.trace) (hcache : s'.cache = s.cache)
    (hkept : I s → I s') : Kept m P I s s' := fun hd => ⟨hcache ▸ hd, [], htrace, fun _ => hkept⟩

/-- Reports were made, and no block was built. -/
lemma of_background {s s' : MipsBase T δ} (h : Background s s') (hkept : I s → I s') :
    Kept m P I s s' := by
  intro hd
  obtain ⟨new, htrace, -⟩ := h.trace
  exact ⟨h.cache ▸ hd, new, htrace, fun _ => hkept⟩

/-- What was kept between two states. -/
lemma invariant {s u : MipsBase T δ} (h : Kept m P I s u) (hd : DecodedBlocks m s.cache)
    (hP : ExecutesOnly P s u) (hs : I s) : I u := by
  obtain ⟨-, new, htrace, hkept⟩ := h hd
  obtain ⟨new', htrace', hP'⟩ := hP
  obtain rfl := List.append_cancel_right (htrace.symm.trans htrace')
  exact hkept hP' hs

end Kept

variable [MipsTlbBase T] {m : MipsSetup δ} {P : BitVec 32 → Prop}
  {Q : BitVec 32 → MipsBase T δ → Prop} {I : MipsBase T δ → Prop}

/-- The state is at an instruction boundary of a run, or at its end. -/
def Visits (m : MipsSetup δ) (fuel : ℕ) (cycle : ℤ) (s u : MipsBase T δ) : Prop :=
  (∃ rest k n, RunPoint m fuel cycle s rest k n u) ∨ ∃ r, run m fuel cycle s = .ok (r, u)

/-- Every part of a run keeps the invariant; a handler does when its instruction and the state it is
called in satisfy `Q`. -/
structure KeptBy (m : MipsSetup δ) (Q : BitVec 32 → MipsBase T δ → Prop)
    (I : MipsBase T δ → Prop) : Prop where
  fetch : ∀ {address s opcode t}, fetch m address s = .ok (opcode, t) → I s → I t
  poll : ∀ {s t}, poll m s = .ok ((), t) → I s → I t
  begin : ∀ {s t}, beginRun m s = .ok ((), t) → I s → I t
  handler : ∀ {opcode s t}, Q opcode (started opcode s) →
    callInst m opcode (getInstFuncPtr m.kIs64Bit opcode) (started opcode s) = .ok ((), t) → I s → I t
  cache : ∀ {s} c, I s → I { s with cache := c }
  stepped : ∀ {s} mask, I s → I (stepped mask s)
  counted : ∀ {s} executed, I s → I (counted m executed s)
  passed : ∀ {s} cycles, I s → I { s with cycleSpentTotal := cycles }

variable (m Q I) in
/-- The listed handlers are those a program calls.  When these calls satisfy `Q`, the invariant holds
whenever one of them is made, and when the program ends. -/
def CallsKeep {α : Type} (calls : List (HandlerCall T δ)) (x : CpuM T δ α) (s : MipsBase T δ) :
    Prop :=
  DecodedBlocks m s.cache → I s → (∀ d ∈ calls, Q d.opcode d.state) → (∀ d ∈ calls, I d.state) ∧
    ∀ a u, x s = .ok (a, u) → DecodedBlocks m u.cache ∧ I u

namespace CallsKeep

omit [MipsTlbBase T]

variable {α β : Type} {calls : List (HandlerCall T δ)} {s : MipsBase T δ}

lemma of_eq {x : CpuM T δ α} {y : CpuM T δ α} (heq : x s = y s) (h : CallsKeep m Q I calls y s) :
    CallsKeep m Q I calls x s := by
  rw [CallsKeep, heq]
  exact h

/-- A program that calls no handler. -/
lemma of_moves {x : CpuM T δ α} (hx : Prog.Moves (fun s u => DecodedBlocks m s.cache → I s →
    DecodedBlocks m u.cache ∧ I u) x) : CallsKeep m Q I [] x s :=
  fun hd hs _ => ⟨fun _ hno => absurd hno List.not_mem_nil, fun a u hrun => hx s a u hrun hd hs⟩

lemma of_pure (a : α) : CallsKeep m Q I [] (pure a : CpuM T δ α) s :=
  .of_moves (.of_pure (fun _ hd hs => ⟨hd, hs⟩) a)

lemma bind {next : α → MipsBase T δ → List (HandlerCall T δ)} {x : CpuM T δ α}
    {f : α → CpuM T δ β} (hx : CallsKeep m Q I calls x s)
    (hf : ∀ a t, x s = .ok (a, t) → CallsKeep m Q I (next a t) (f a) t) :
    CallsKeep m Q I (calls ++ callsAfter x next s) (x >>= f) s := by
  intro hd hs hP
  rw [List.forall_mem_append] at hP ⊢
  obtain ⟨hcalls, hend⟩ := hx hd hs hP.1
  cases hrun : x s with
  | error e =>
      rw [callsAfter_error hrun]
      refine ⟨⟨hcalls, fun d hd => absurd hd List.not_mem_nil⟩, fun b u hall => ?_⟩
      obtain ⟨a, t, hfirst, -⟩ := Prog.bind_ok.mp hall
      exact absurd (hrun.symm.trans hfirst) (by simp)
  | ok r =>
      rw [callsAfter_ok hrun] at hP ⊢
      obtain ⟨hdt, ht⟩ := hend _ _ hrun
      obtain ⟨hnext, hlast⟩ := hf _ _ hrun hdt ht hP.2
      refine ⟨⟨hcalls, hnext⟩, fun b u hall => ?_⟩
      rw [Prog.bind_of_ok hrun] at hall
      exact hlast b u hall

/-- A program that calls no handler comes last. -/
lemma andThen {x : CpuM T δ α} {f : α → CpuM T δ β} (h : CallsKeep m Q I calls x s)
    (hf : ∀ a, Prog.Moves (fun s u => DecodedBlocks m s.cache → I s →
      DecodedBlocks m u.cache ∧ I u) (f a)) : CallsKeep m Q I calls (x >>= f) s := by
  intro hd hs hP
  obtain ⟨hcalls, hend⟩ := h hd hs hP
  refine ⟨hcalls, fun b u hall => ?_⟩
  obtain ⟨a, t, hrun, hlast⟩ := Prog.bind_ok.mp hall
  obtain ⟨hdt, ht⟩ := hend a t hrun
  exact hf a t b u hlast hdt ht

end CallsKeep

/-- It holds whenever a run calls a handler, and when the run ends. -/
def Throughout (m : MipsSetup δ) (fuel : ℕ) (cycle : ℤ) (s : MipsBase T δ)
    (I : MipsBase T δ → Prop) : Prop :=
  (∀ d ∈ runCalls m fuel cycle s, I d.state) ∧ ∀ r u, run m fuel cycle s = .ok (r, u) → I u

namespace KeptBy

/-! ## Instructions and blocks -/

section Executed

variable (h : KeptBy m (fun opcode _ => P opcode) I)

include h

lemma callInst {opcode : BitVec 32} {s t : MipsBase T δ}
    (hcall : callInst m opcode (getInstFuncPtr m.kIs64Bit opcode) (started opcode s) = .ok ((), t)) :
    Kept m P I s t := by
  intro hd
  have hgrown := callInst_grown hcall
  obtain ⟨new, htrace, -⟩ := hgrown.trace
  refine ⟨?_, new ++ [.preExecute s.pc opcode], ?_, fun hP hs => ?_⟩
  · have hsame : t.cache.cache = s.cache.cache := hgrown.cache.same.cache
    intro e he
    exact hd e (hsame ▸ he)
  · rw [htrace, List.append_assoc]
    rfl
  · rw [List.filterMap_append] at hP
    exact h.handler (hP opcode (List.mem_append_right _ List.mem_cons_self)) hcall hs

lemma runEntry {entry : MipsCacheEntry} (hentry : entry.Decoded m.kIs64Bit) :
    Prog.Moves (Kept m P I) (runEntry m entry) := by
  intro s a s' hrun
  obtain ⟨t, hcall, rfl⟩ := runEntry_ok.mp hrun
  rw [hentry] at hcall
  exact (h.callInst hcall).trans (.of_same rfl rfl (h.stepped _))

lemma runInst : Prog.Moves (Kept m P I) (runInst m) := by
  intro s a s' hrun
  obtain ⟨opcode, t₀, t, hfetch, hcall, rfl⟩ := runInst_ok.mp hrun
  have hfetched : Kept m P I s t₀ :=
    .of_background (background_internals (internal_fetch _) s opcode t₀ hfetch) (h.fetch hfetch)
  refine (hfetched.trans (h.callInst hcall)).trans (.of_same rfl rfl fun hs => ?_)
  exact h.counted 1 (h.stepped _ hs)

lemma enterBlock_keeps : Prog.Moves (fun s t => I s → I t) (MipsBase.enterBlock m) := by
  have hbuild : ∀ address, Prog.Moves (fun s s' => I s → I s') (buildBlock (T := T) m address) :=
    fun address => (built_buildBlock (P := fun _ x => Prog.Moves (fun s s' => I s → I s') x)
      (fun _ => .op fun _ _ _ hfetch => h.fetch hfetch) address).moves (fun _ hs => hs)
      (fun _ _ _ h h' hs => h' (h hs)) fun _ _ hx => hx
  exact moves_enterBlock_of_build (fun _ hs => hs) (fun _ _ _ h h' hs => h' (h hs)) hbuild
    fun _ c => h.cache c

/-- Entering a block keeps the invariant, and the block is predecoded. -/
lemma enterBlock {s t : MipsBase T δ} {block : MipsCacheBlock}
    (henter : enterBlock m s = .ok (block, t)) : Kept m P I s t ∧
      (DecodedBlocks m s.cache → ∀ entry ∈ block.entries, entry.Decoded m.kIs64Bit) := by
  obtain ⟨new, htrace⟩ := extends_enterBlock s block t henter
  refine ⟨fun hd => ?_, fun hd => ((decoded_enterBlock s hd).2 block t henter).2⟩
  exact ⟨((decoded_enterBlock s hd).2 block t henter).1, new, htrace,
    fun _ => h.enterBlock_keeps s block t henter⟩

lemma runCachedBlock : Prog.Moves (Kept m P I) (runCachedBlock m) := by
  intro s a s' hrun hd
  rw [runCachedBlock_eq] at hrun
  obtain ⟨block, t, henter, hrest⟩ := Prog.bind_ok.mp hrun
  obtain ⟨executed, u, hblock, hcount⟩ := Prog.bind_ok.mp hrest
  obtain ⟨hentered, hentries⟩ := h.enterBlock henter
  have hblock' : Kept m P I t u := moves_runBlock .refl (fun _ _ _ => .trans)
    (fun entry he => h.runEntry (hentries hd entry he)) t executed u hblock
  have hcount' : Kept m P I u s' := by
    rw [← Prog.state_eq hcount]
    exact .of_same rfl rfl (h.counted executed)
  exact (hentered.trans hblock').trans hcount' hd

/-! ## Runs -/

lemma poll_moves : Prog.Moves (Kept m P I) (MipsBase.poll m) :=
  fun s _ t hpoll => .of_background (background_poll s () t hpoll) (h.poll hpoll)

lemma beginRun {s t : MipsBase T δ} (hbegin : beginRun m s = .ok ((), t)) : Kept m P I s t := by
  have hkept := h.begin hbegin
  rw [MipsBase.beginRun] at hbegin
  split at hbegin
  · rw [← Prog.state_eq hbegin] at hkept ⊢
    exact .of_same rfl rfl hkept
  · have hchecks := background_internals internal_begin _ () t hbegin
    obtain ⟨new, htrace, -⟩ := hchecks.trace
    exact fun hd => ⟨hchecks.cache ▸ hd, new, htrace, fun _ => hkept⟩

lemma runLoop {before step : CpuM T δ Unit} (hbefore : Prog.Moves (Kept m P I) before)
    (hstep : Prog.Moves (Kept m P I) step) (cycle : ℤ) (n : ℕ) :
    Prog.Moves (Kept m P I) (runLoop before step cycle n) :=
  moves_runLoop .refl (fun _ _ _ => .trans) (fun _ cycles => .of_same rfl rfl (h.passed cycles))
    hbefore hstep cycle n

/-- A run keeps the invariant when it only executes instructions that satisfy `P`. -/
theorem run {fuel : ℕ} {cycle r : ℤ} {s s' : MipsBase T δ}
    (hrun : run m fuel cycle s = .ok (r, s')) : Kept m P I s s' := by
  obtain ⟨t, hbegin⟩ := run_begun hrun
  rw [run_begin hbegin] at hrun
  refine (h.beginRun hbegin).trans ?_
  split at hrun
  · exact h.runLoop h.poll_moves h.runCachedBlock cycle fuel t r s' hrun
  · exact h.runLoop (.of_pure .refl ()) h.runInst cycle fuel t r s' hrun

/-- So it does up to every instruction boundary. -/
theorem runPoint {fuel n k : ℕ} {cycle : ℤ} {s u : MipsBase T δ} {rest : List MipsCacheEntry}
    (hpoint : RunPoint m fuel cycle s rest k n u) : Kept m P I s u := by
  cases hpoint with
  | plain hmode hbegin hloop hcycle hhalt hrun =>
      have hstart := hloop.moves .refl (fun _ _ _ => .trans) (.of_pure .refl ()) h.runInst
      exact ((h.beginRun hbegin).trans hstart).trans (h.runInst _ () u hrun)
  | cached hmode hbegin hloop hcycle hpoll hhalt hblock hpoint =>
      have hstart := hloop.moves .refl (fun _ _ _ => .trans) h.poll_moves h.runCachedBlock
      obtain ⟨henter, hentries⟩ := h.enterBlock hblock
      have hbefore := ((h.beginRun hbegin).trans hstart).trans (h.poll_moves _ () _ hpoll)
      intro hd
      have hpoint' := (hpoint.moves (fun _ _ _ => .trans) fun entry he =>
        h.runEntry (hentries (hbefore hd).1 entry he)).1
      exact (hbefore.trans henter).trans hpoint' hd

/-- So it does in every state a run goes through. -/
theorem visits {fuel : ℕ} {cycle : ℤ} {s u : MipsBase T δ} (hu : Visits m fuel cycle s u) :
    Kept m P I s u := by
  rcases hu with ⟨rest, k, n, hpoint⟩ | ⟨r, hrun⟩
  · exact h.runPoint hpoint
  · exact h.run hrun

end Executed

/-! ## The handlers a run calls -/

section Calls

variable (h : KeptBy m Q I) (hstarted : ∀ {opcode s}, I s → I (started opcode s))

include h

/-- Whatever the instructions do, blocks stay predecoded. -/
lemma never : KeptBy m (fun _ _ => False) I := { h with handler := False.elim }

include hstarted

lemma entryCall {entry : MipsCacheEntry} (hentry : entry.Decoded m.kIs64Bit) (s : MipsBase T δ) :
    CallsKeep m Q I [entryCall entry s] (MipsBase.runEntry m entry) s := by
  intro hd hs hP
  have hfirst : I (MipsBase.entryCall entry s).state := hstarted hs
  refine ⟨by simpa using hfirst, fun a u hrun => ⟨(h.never.runEntry hentry s a u hrun hd).1, ?_⟩⟩
  obtain ⟨t, hcall, rfl⟩ := runEntry_ok.mp hrun
  rw [hentry] at hcall
  exact h.stepped _ (h.handler (hP _ List.mem_cons_self) hcall hs)

lemma entriesCalls {entries : List MipsCacheEntry}
    (hentries : ∀ entry ∈ entries, entry.Decoded m.kIs64Bit) (s : MipsBase T δ) :
    CallsKeep m Q I (entriesCalls m entries s) (runEntries m entries) s := by
  induction entries generalizing s with
  | nil => exact .of_pure 0
  | cons entry rest ih =>
      rw [MipsBase.entriesCalls, MipsBase.runEntries]
      refine CallsKeep.of_eq (Prog.bind_of_ok (read_run _ _)) ?_
      split
      · exact (h.entryCall hstarted (hentries entry List.mem_cons_self) s).bind fun _ t _ =>
          (ih (fun e he => hentries e (List.mem_cons_of_mem _ he)) t).andThen fun _ =>
            .of_pure (fun _ hd hs => ⟨hd, hs⟩) _
      · exact .of_pure 0

lemma blockCalls {entries : List MipsCacheEntry}
    (hentries : ∀ entry ∈ entries, entry.Decoded m.kIs64Bit) (s : MipsBase T δ) :
    CallsKeep m Q I (blockCalls m entries s) (runBlock m entries) s := by
  cases entries with
  | nil => exact .of_pure 0
  | cons entry rest =>
      exact (h.entryCall hstarted (hentries entry List.mem_cons_self) s).bind fun _ t _ =>
        (h.entriesCalls hstarted (fun e he => hentries e (List.mem_cons_of_mem _ he)) t).andThen
          fun _ => .of_pure (fun _ hd hs => ⟨hd, hs⟩) _

lemma cachedCalls (s : MipsBase T δ) :
    CallsKeep m Q I (cachedCalls m s) (MipsBase.runCachedBlock m) s := by
  rw [runCachedBlock_eq]
  intro hd hs
  have hentries := fun block t henter => ((decoded_enterBlock s hd).2 block t henter).2
  have henter : CallsKeep m Q I [] (MipsBase.enterBlock m) s := .of_moves
    fun s block t henter hd hs =>
    ⟨((decoded_enterBlock s hd).2 block t henter).1, h.never.enterBlock_keeps s block t henter hs⟩
  refine (henter.bind fun block t hrun => ?_) hd hs
  refine (h.blockCalls hstarted (hentries block t hrun) t).andThen
    fun executed u _ v hcount hd hs => ?_
  rw [← Prog.state_eq hcount]
  exact ⟨hd, h.counted executed hs⟩

lemma instCalls (s : MipsBase T δ) : CallsKeep m Q I (instCalls m s) (MipsBase.runInst m) s := by
  intro hd hs hP
  cases hfetch : MipsBase.fetch m s.pc s with
  | error e =>
      rw [MipsBase.instCalls, callsAfter_error hfetch]
      refine ⟨fun _ hno => absurd hno List.not_mem_nil, fun a u hrun => ?_⟩
      obtain ⟨opcode, t₀, t, hfetched, -⟩ := runInst_ok.mp hrun
      exact absurd (hfetch.symm.trans hfetched) (by simp)
  | ok r =>
      rw [MipsBase.instCalls, callsAfter_ok hfetch] at hP ⊢
      have hfetched := h.fetch hfetch hs
      have hfirst : I (MipsBase.started r.1 r.2) := hstarted hfetched
      refine ⟨by simpa using hfirst, fun a u hrun => ⟨(h.never.runInst s a u hrun hd).1, ?_⟩⟩
      obtain ⟨opcode, t₀, t, hfetch', hcall, rfl⟩ := runInst_ok.mp hrun
      obtain rfl := Except.ok.inj (hfetch.symm.trans hfetch')
      exact h.counted 1 (h.stepped _ (h.handler (hP _ List.mem_cons_self) hcall hfetched))

omit hstarted in
/-- The rounds of a loop. -/
lemma loopCalls {before step : CpuM T δ Unit} {calls : MipsBase T δ → List (HandlerCall T δ)}
    (hbefore : Prog.Moves (fun s u => DecodedBlocks m s.cache → I s →
      DecodedBlocks m u.cache ∧ I u) before)
    (hstep : ∀ s, CallsKeep m Q I (calls s) step s) (cycle : ℤ) (n : ℕ) (s : MipsBase T δ) :
    CallsKeep m Q I (loopCalls before step calls cycle n s)
      (MipsBase.runLoop before step cycle n) s := by
  induction n generalizing s with
  | zero => exact .of_moves (.of_throw _)
  | succ n ih =>
      rw [MipsBase.loopCalls, MipsBase.runLoop]
      refine CallsKeep.of_eq (Prog.bind_of_ok (read_run _ _)) ?_
      split
      · have hfirst : CallsKeep m Q I [] before s := .of_moves hbefore
        refine hfirst.bind fun _ t _ => CallsKeep.of_eq (Prog.bind_of_ok (read_run _ _)) ?_
        split
        · refine .of_moves fun s a u hpass hd hs => ?_
          rw [passCycles, Prog.bind_of_ok (read_run _ _)] at hpass
          split at hpass
          · rw [← Prog.state_eq hpass]
            exact ⟨hd, h.passed _ hs⟩
          · exact Prog.state_eq hpass ▸ ⟨hd, hs⟩
        · exact (hstep t).bind fun _ u _ => ih u
      · exact .of_pure _

/-- **When a run only makes calls that satisfy `Q`**, the invariant holds whenever one of them is made,
and when the run ends. -/
theorem runCalls (fuel : ℕ) (cycle : ℤ) (s : MipsBase T δ) :
    CallsKeep m Q I (runCalls m fuel cycle s) (MipsBase.run m fuel cycle) s := by
  intro hd hs hP
  rw [MipsBase.runCalls] at hP ⊢
  cases hbegin : MipsBase.beginRun m s with
  | error e =>
      refine ⟨fun _ hno => absurd hno List.not_mem_nil, fun r u hrun => ?_⟩
      exact absurd ((run_begin_error hbegin).symm.trans hrun) (by simp)
  | ok r =>
      obtain ⟨⟨⟩, t⟩ := r
      rw [hbegin] at hP
      rw [run_begin hbegin]
      have hdt := (h.never.beginRun hbegin hd).1
      have ht := h.begin hbegin hs
      dsimp only at hP ⊢
      split
      · next hmode =>
          rw [if_pos hmode] at hP
          refine h.loopCalls (fun s a u hpoll hd hs => ?_) (h.cachedCalls hstarted) cycle fuel t
            hdt ht hP
          exact ⟨(background_poll s a u hpoll).cache ▸ hd, h.poll hpoll hs⟩
      · next hmode =>
          rw [if_neg hmode] at hP
          exact h.loopCalls (.of_pure (fun _ hd hs => ⟨hd, hs⟩) ()) (h.instCalls hstarted) cycle fuel t
            hdt ht hP

/-- The invariant holds throughout a run that only makes calls satisfying `Q`. -/
lemma throughout {fuel : ℕ} {cycle : ℤ} {s : MipsBase T δ} (hd : DecodedBlocks m s.cache) (hs : I s)
    (hP : ∀ d ∈ MipsBase.runCalls m fuel cycle s, Q d.opcode d.state) :
    Throughout m fuel cycle s I := by
  obtain ⟨hcalls, hend⟩ := h.runCalls hstarted fuel cycle s hd hs hP
  exact ⟨hcalls, fun r u hrun => (hend r u hrun).2⟩

end Calls

/-- An invariant of the general registers, `hi_` and `lo_` only has to be kept by the handlers. -/
lemma of_sameRegs (hsame : ∀ {s s'}, SameRegs s s' → I s → I s')
    (hhandler : ∀ {opcode s t}, Q opcode (MipsBase.started opcode s) →
      MipsBase.callInst m opcode (getInstFuncPtr m.kIs64Bit opcode)
        (MipsBase.started opcode s) = .ok ((), t) → I s → I t) : KeptBy m Q I where
  fetch hrun := hsame (sameRegs_internals (internal_fetch _) _ _ _ hrun)
  poll hrun := hsame (moves_poll .refl (fun _ _ _ => .trans) sameRegs_internals
    (fun _ _ => rfl) _ _ _ hrun)
  begin hrun := by
    rw [MipsBase.beginRun] at hrun
    split at hrun
    · rw [← Prog.state_eq hrun]
      exact hsame rfl
    · have hchecks := sameRegs_internals (m := m) internal_begin _ () _ hrun
      exact hsame hchecks
  handler := hhandler
  cache _ := hsame rfl
  stepped _ := hsame rfl
  counted _ := hsame rfl
  passed _ := hsame rfl

/-- An invariant of coprocessor 0, the translation unit and the floating-point unit only has to be
kept by faults, exceptions, looks at the timer and the handlers. -/
lemma of_registers (hm : m.IsN64)
    (hsame : ∀ {s t}, I s → t.cop0 = s.cop0 → t.tlb = s.tlb → t.fpu = s.fpu → I t)
    (hfault : ∀ {address s}, I s → I (faulted address s))
    (htimer : m.config.hasIsolateCacheBit = false → ∀ {s}, I s → I (checked m s))
    (hexception : ∀ {cause s t}, MipsBase.triggerException m cause s = .ok ((), t) → I s → I t)
    (hhandler : ∀ {opcode s t}, Q opcode (MipsBase.started opcode s) →
      MipsBase.callInst m opcode (getInstFuncPtr m.kIs64Bit opcode)
        (MipsBase.started opcode s) = .ok ((), t) → I s → I t) : KeptBy m Q I := by
  have hinterrupt : ∀ {s t : MipsBase T δ},
      MipsBase.checkInterrupt m s = .ok ((), t) → I s → I t := by
    intro s t hcheck hs
    cases checkInterrupt_cases hm hcheck with
    | idle _ hstate => exact hstate ▸ hs
    | taken _ _ htrigger => exact hexception htrigger hs
  have hcompare : ∀ {s t : MipsBase T δ},
      MipsBase.checkCompare m s = .ok ((), t) → I s → I t := by
    intro s t hcheck hs
    cases checkCompare_cases hm hcheck with
    | isolated _ hstate => exact hstate ▸ hs
    | before hiso _ hstate => exact hstate ▸ htimer hiso hs
    | idle hiso _ _ hstate => exact hstate ▸ hsame (htimer hiso hs) rfl rfl rfl
    | taken hiso _ _ _ htrigger => exact hexception htrigger (hsame (htimer hiso hs) rfl rfl rfl)
  exact {
    fetch := fun {address s opcode t} hrun hs => by
      by_cases hfound : (translateAddress s.tlb address).found = true
      · rw [fetch_found hfound] at hrun
        exact Prog.state_eq hrun ▸ hsame hs rfl rfl rfl
      · rw [MipsBase.fetch, fetchWith, Prog.bind_of_ok (read_run _ _), if_neg hfound] at hrun
        obtain ⟨⟨⟩, u, hrest, hpure⟩ := Prog.bind_ok.mp hrun
        obtain ⟨-, rfl⟩ := translationFault_ok hm rfl hrest
        exact Prog.state_eq hpure ▸ hfault hs
    poll := fun {s t} hrun hs => by
      cases poll_cases hm hrun with
      | counts _ hstate => exact hstate ▸ hsame hs rfl rfl rfl
      | looks _ u hcheck hrest => exact hcompare hrest (hinterrupt hcheck (hsame hs rfl rfl rfl))
    begin := fun {s t} hrun hs => by
      rw [MipsBase.beginRun] at hrun
      split at hrun
      · exact Prog.state_eq hrun ▸ hsame hs rfl rfl rfl
      · obtain ⟨⟨⟩, u, hcheck, hrest⟩ := Prog.bind_ok.mp hrun
        exact hcompare hrest (hinterrupt hcheck (hsame hs rfl rfl rfl))
    handler := hhandler
    cache := fun _ hs => hsame hs rfl rfl rfl
    stepped := fun _ hs => hsame hs rfl rfl rfl
    counted := fun _ hs => hsame hs rfl rfl rfl
    passed := fun _ hs => hsame hs rfl rfl rfl }

end KeptBy

end MipsBase

end NgMips
