import NgMips.Proofs.Elementary
import NgMips.Proofs.Invalidate

/-!
# What a handler leaves alone

A handler that does not raise tells the observer of its accesses only, makes a jump pending
only when it belongs to an instruction with a delay slot, and queues work for the block cache
without touching its map (`ActEffect`).  All of this is shown for each operation handlers are
made of.
-/

namespace NgMips

namespace MipsCache

/-- Work was queued: the map and the pointers are the same. -/
structure Grows (c c' : MipsCache) : Prop where
  same : SameMap c c'
  pending : ∀ k ∈ c.pendingInvalidations, k ∈ c'.pendingInvalidations
  sorted : c.Sorted → c'.Sorted
  full : c.fullClearQueued = true → c'.fullClearQueued = true
  noted : c.Noted → c'.Noted

namespace Grows

lemma refl (c : MipsCache) : Grows c c := ⟨.refl c, fun _ h => h, id, id, id⟩

lemma trans {c c' c'' : MipsCache} (h : Grows c c') (h' : Grows c' c'') : Grows c c'' :=
  ⟨h.same.trans h'.same, fun k hk => h'.pending k (h.pending k hk),
    fun hs => h'.sorted (h.sorted hs), fun hf => h'.full (h.full hf),
    fun hn => h'.noted (h.noted hn)⟩

end Grows

lemma Queues.grows {c c' : MipsCache} (h : Queues c c') : Grows c c' :=
  ⟨h.same, h.pending, h.sorted, fun hf => h.full.trans hf, h.noted⟩

lemma grows_queueCacheClear (c : MipsCache) : Grows c c.queueCacheClear :=
  ⟨⟨rfl, rfl⟩, fun _ h => h, id, fun _ => rfl, fun _ _ => rfl⟩

end MipsCache

namespace MipsBase

variable {T δ : Type}

/-- The observer, the pending flag and the block cache are the same. -/
structure Apart (s s' : MipsBase T δ) : Prop where
  trace : s'.trace = s.trace
  flag : s'.hasBranchDelay = s.hasBranchDelay
  cache : s'.cache = s.cache

namespace Apart

lemma refl (s : MipsBase T δ) : Apart s s := ⟨rfl, rfl, rfl⟩

end Apart

/-- What a handler that acts leaves alone. -/
structure ActEffect (func : MipsInstId) (s s' : MipsBase T δ) : Prop where
  trace : ∃ new, s'.trace = new ++ s.trace ∧ ∀ e ∈ new, e.isAccess = true
  flag : func.hasDelaySlot = false → s'.hasBranchDelay = s.hasBranchDelay
  cache : s.cache.Grows s'.cache

namespace ActEffect

variable {func : MipsInstId}

lemma of_apart {s s' : MipsBase T δ} (h : Apart s s') : ActEffect func s s' :=
  ⟨⟨[], h.trace, by simp⟩, fun _ => h.flag, h.cache ▸ .refl _⟩

lemma refl (s : MipsBase T δ) : ActEffect func s s := .of_apart (.refl s)

lemma trans {s t u : MipsBase T δ} (h : ActEffect func s t) (h' : ActEffect func t u) :
    ActEffect func s u :=
  ⟨reports_trans h.trace h'.trace, fun hf => (h'.flag hf).trans (h.flag hf),
    h.cache.trans h'.cache⟩

/-- An instruction with a delay slot makes a jump pending. -/
lemma of_slot {s s' : MipsBase T δ} (hslot : func.hasDelaySlot = true)
    (htrace : s'.trace = s.trace) (hcache : s'.cache = s.cache) : ActEffect func s s' :=
  ⟨⟨[], htrace, by simp⟩, fun hf => absurd (hf.symm.trans hslot) (by simp),
    hcache ▸ .refl _⟩

end ActEffect

/-! ## Handlers that act -/

lemma serve_calls (calls : List CpuCall) (s : MipsBase T δ) :
    (calls.foldl serve s).trace = s.trace ∧
      (calls.foldl serve s).hasBranchDelay = s.hasBranchDelay ∧
      s.cache.Grows (calls.foldl serve s).cache := by
  induction calls generalizing s with
  | nil => exact ⟨rfl, rfl, .refl _⟩
  | cons call calls ih =>
      obtain ⟨htrace, hflag, hcache⟩ := ih (s.serve call)
      rw [List.foldl_cons]
      cases call with
      | setHalt halt => exact ⟨htrace, hflag, hcache⟩
      | queueCacheClear =>
          exact ⟨htrace, hflag, (MipsCache.grows_queueCacheClear s.cache).trans hcache⟩

variable [MipsTlbBase T] {m : MipsSetup δ} {func : MipsInstId} {opcode : BitVec 32}

omit [MipsTlbBase T] in
lemma apart_copRead32Internal (idx : ℕ) :
    Prog.Moves Apart (copRead32Internal (T := T) m idx) := by
  rw [copRead32Internal]
  split <;> intro s a s' h <;> rw [← Prog.state_eq h] <;> exact ⟨rfl, rfl, rfl⟩

/-- What every elementary operation respects: more than `ActEffect`, for the sake of the
exceptions that a fault raises. -/
lemma moves_elem {R : MipsBase T δ → MipsBase T δ → Prop}
    (heffect : ∀ s s', ActEffect func s s' → R s s')
    (hfault : ∀ cause : ExceptionCause, cause.isTlb = true → ∀ address,
      Prog.Moves R (translationFault (T := T) m (triggerException m) cause address))
    (α : Type) (x : CpuM T δ α) (hx : Elem m opcode func α x) : Prog.Moves R x := by
  intro s a s' h
  have hapart : ∀ u, Apart s u → R s u := fun u hsame => heffect s u (.of_apart hsame)
  cases hx with
  | fault cause hcause address => exact hfault cause hcause address s a s' h
  | readStatus => exact hapart _ (apart_copRead32Internal 12 s a s' h)
  | writeGpr idx value =>
      obtain ⟨gpr, rfl⟩ := writeGpr64_ok h
      exact hapart _ ⟨rfl, rfl, rfl⟩
  | emit e he =>
      rw [← Prog.state_eq h]
      refine heffect _ _ ⟨⟨[e], rfl, fun e' he' => ?_⟩, fun _ => rfl, .refl _⟩
      rwa [List.mem_singleton.mp he']
  | access f =>
      -- A device may call the processor, but only to halt it or to clear the cache.
      rw [← Prog.state_eq h]
      obtain ⟨htrace, hflag, hcache⟩ :=
        serve_calls (f s.device).calls { s with device := (f s.device).device }
      exact heffect _ _ ⟨⟨[], htrace, by simp⟩, fun _ => hflag, hcache⟩
  | random =>
      obtain ⟨state, rfl⟩ := readRandom_ok h
      exact hapart _ ⟨rfl, rfl, rfl⟩
  | fpu f =>
      obtain ⟨fpu, rfl⟩ := setFpu_ok h
      exact hapart _ ⟨rfl, rfl, rfl⟩
  | eret _ _ _ =>
      rw [eret_run] at h
      rw [← Prog.state_eq h]
      exact hapart _ ⟨rfl, rfl, rfl⟩
  | jump hslot dst =>
      rw [← Prog.state_eq h]
      exact heffect _ _ (.of_slot hslot rfl rfl)
  | invalidate _ start end_ =>
      rw [← Prog.state_eq h]
      exact heffect _ _ ⟨⟨[], rfl, by simp⟩, fun _ => rfl,
        (MipsCache.queues_invalidateBlockRange m.ord s.tlb s.cache _ _).grows⟩
  | panic α reason => exact absurd h (by simp)
  | _ =>
      rw [← Prog.state_eq h]
      exact hapart _ ⟨rfl, rfl, rfl⟩

lemma effect_elem (hm : m.IsN64) (α : Type) (x : CpuM T δ α) (hx : Elem m opcode func α x) :
    Prog.Moves (ActEffect func) x := by
  refine moves_elem (fun _ _ h => h) (fun cause hcause address s a s' h => ?_) α x hx
  rw [(translationFault_ok hm hcause h).2]
  exact .of_apart ⟨rfl, rfl, rfl⟩

lemma act_effect (hm : m.IsN64) {x : CpuM T δ Unit} (hx : Acts m opcode func x)
    {s s' : MipsBase T δ} (h : x s = .ok ((), s')) : ActEffect func s s' :=
  act_moves .refl (fun _ _ _ => .trans) (effect_elem hm) hx h

/-! ## Exceptions and interrupts

What follows holds of every processor, whatever sits in its coprocessor slots. -/

/-- Nothing was executed: registers, the halt flag and the block cache are the same. -/
structure Background (s s' : MipsBase T δ) : Prop where
  trace : ∃ new, s'.trace = new ++ s.trace ∧ ∀ e ∈ new, e.isExecute = false
  gpr : s'.gpr = s.gpr
  halt : s'.halt = s.halt
  cycleSpent : s'.cycleSpent = s.cycleSpent
  cache : s'.cache = s.cache

namespace Background

omit [MipsTlbBase T]

lemma refl (s : MipsBase T δ) : Background s s := ⟨⟨[], rfl, by simp⟩, rfl, rfl, rfl, rfl⟩

lemma trans {s t u : MipsBase T δ} (h : Background s t) (h' : Background t u) :
    Background s u :=
  ⟨reports_trans h.trace h'.trace, h'.gpr.trans h.gpr, h'.halt.trans h.halt,
    h'.cycleSpent.trans h.cycleSpent, h'.cache.trans h.cache⟩

/-- Other parts of the state were changed. -/
lemma of_same {s s' : MipsBase T δ} (htrace : s'.trace = s.trace) (hgpr : s'.gpr = s.gpr)
    (hhalt : s'.halt = s.halt) (hcycle : s'.cycleSpent = s.cycleSpent)
    (hcache : s'.cache = s.cache) : Background s s' :=
  ⟨⟨[], htrace, by simp⟩, hgpr, hhalt, hcycle, hcache⟩

end Background

section Exceptions

omit [MipsTlbBase T] in
lemma background_internals {α : Type} {x : CpuM T δ α} (hx : Internals m x) :
    Prog.Moves Background x := by
  intro s a s' h
  obtain ⟨new, _, _, _, _, _, _, _, _, hnew, rfl⟩ := changed_internals hx s a s' h
  exact ⟨⟨new, rfl, hnew⟩, rfl, rfl, rfl, rfl⟩

lemma background_poll : Prog.Moves Background (poll (T := T) m) :=
  moves_poll .refl (fun _ _ _ => .trans) background_internals
    fun _ _ => .of_same rfl rfl rfl rfl rfl

end Exceptions

/-! ## All handlers -/

/-- No instruction was reported, and work for the block cache was queued at most. -/
structure Grown (s s' : MipsBase T δ) : Prop where
  trace : ∃ new, s'.trace = new ++ s.trace ∧ ∀ e ∈ new, e.isExecute = false
  cache : s.cache.Grows s'.cache

namespace Grown

omit [MipsTlbBase T]

lemma refl (s : MipsBase T δ) : Grown s s := ⟨⟨[], rfl, by simp⟩, .refl _⟩

lemma trans {s t u : MipsBase T δ} (h : Grown s t) (h' : Grown t u) : Grown s u :=
  ⟨reports_trans h.trace h'.trace, h.cache.trans h'.cache⟩

lemma of_background {s s' : MipsBase T δ} (h : Background s s') : Grown s s' :=
  ⟨h.trace, h.cache ▸ .refl _⟩

lemma of_effect {s s' : MipsBase T δ} (h : ActEffect func s s') : Grown s s' := by
  obtain ⟨⟨new, htrace, hnew⟩, -, hcache⟩ := h
  refine ⟨⟨new, htrace, fun e he => ?_⟩, hcache⟩
  have haccess := hnew e he
  cases e <;> first | rfl | exact absurd haccess (by simp [Event.isAccess])

end Grown

/-- No handler reports the execution of an instruction, or touches the map of blocks. -/
lemma callInst_grown {s s' : MipsBase T δ} (h : callInst m opcode func s = .ok ((), s')) :
    Grown s s' := by
  have hinternal : ∀ {α : Type} {x : CpuM T δ α}, Internals m x → Prog.Moves Grown x :=
    fun hx => (background_internals hx).mono fun _ _ => .of_background
  refine (callInst_core m opcode func).moves .refl (fun _ _ _ => .trans) ?_ s () s' h
  intro α x hx
  rcases hx with hx | hx
  · exact hinternal (.op hx)
  · refine moves_elem (fun _ _ => .of_effect) (fun cause _ address => hinternal ?_) α x
      (elem_core α x hx)
    exact internal_translationFault internal_triggerException cause address

end MipsBase

end NgMips
