import NgMips.Proofs.Points

/-!
# Invariants of the block cache

The map of the block cache changes in one place of a run only, where a block is entered: queued work
is done, and a missing block is built and inserted.  What a handler does is to queue work.  So an
invariant of the cache that both keep, and an empty cache has (`CacheKept`), is kept by every part of
a run and by every call of the interface (`CacheKept.perform`).
-/

namespace NgMips

namespace MipsBase

variable {T δ : Type} [MipsTlbBase T] {m : MipsSetup δ} {I : MipsCache → Prop}

/-- The invariant stays. -/
def StaysIn (I : MipsCache → Prop) (s t : MipsBase T δ) : Prop := I s.cache → I t.cache

namespace StaysIn

omit [MipsTlbBase T]

lemma refl (s : MipsBase T δ) : StaysIn I s s := id

lemma trans {s t u : MipsBase T δ} (h : StaysIn I s t) (h' : StaysIn I t u) : StaysIn I s u :=
  fun hs => h' (h hs)

lemma of_same {s t : MipsBase T δ} (h : t.cache = s.cache) : StaysIn I s t := fun hs => h ▸ hs

lemma of_internals {α : Type} {x : CpuM T δ α} (hx : Internals m x) : Prog.Moves (StaysIn I) x :=
  (background_internals hx).mono fun _ _ hback => of_same hback.cache

end StaysIn

variable (T m I) in
/-- An empty cache has the invariant, and queueing work and entering a block keep it. -/
structure CacheKept : Prop where
  reset : I MipsCache.reset
  grows : ∀ {c c' : MipsCache}, c.Grows c' → I c → I c'
  enter : Prog.Moves (StaysIn I) (enterBlock (T := T) m)

lemma reset_cache (s : MipsBase T δ) : (reset m s).cache = MipsCache.reset := by
  simp only [reset, resetCop_eq]

namespace CacheKept

variable (h : CacheKept T m I)

include h

/-! ## Runs -/

lemma runEntry (entry : MipsCacheEntry) : Prog.Moves (StaysIn I) (runEntry (T := T) m entry) := by
  intro s a s' hrun hs
  obtain ⟨t, hcall, rfl⟩ := runEntry_ok.mp hrun
  exact h.grows (callInst_grown hcall).cache hs

lemma runInst : Prog.Moves (StaysIn I) (runInst (T := T) m) := by
  intro s a s' hrun hs
  obtain ⟨opcode, s₀, t, hfetch, hcall, rfl⟩ := runInst_ok.mp hrun
  have hs₀ := StaysIn.of_internals (internal_fetch s.pc) s opcode s₀ hfetch hs
  exact h.grows (callInst_grown hcall).cache hs₀

lemma runCachedBlock : Prog.Moves (StaysIn I) (runCachedBlock (T := T) m) := by
  rw [runCachedBlock_eq]
  exact .bind (fun _ _ _ => .trans) h.enter fun block =>
    .bind (fun _ _ _ => .trans)
      (moves_runBlock .refl (fun _ _ _ => .trans) fun entry _ => h.runEntry entry)
      fun _ => .of_modify fun _ => .of_same rfl

omit h in
lemma poll : Prog.Moves (StaysIn I) (poll (T := T) m) :=
  background_poll.mono fun _ _ hback => .of_same hback.cache

omit h in
lemma beginRun {s t : MipsBase T δ} (hbegin : beginRun m s = .ok ((), t)) : StaysIn I s t := by
  rw [MipsBase.beginRun] at hbegin
  split at hbegin
  · rw [← Prog.state_eq hbegin]
    exact .of_same rfl
  · exact StaysIn.of_internals internal_begin { s with cycleSpent := 0 } () t hbegin

lemma run (fuel : ℕ) (cycle : ℤ) : Prog.Moves (StaysIn I) (run (T := T) m fuel cycle) := by
  intro s r s' hrun
  obtain ⟨t, hbegin⟩ := run_begun hrun
  have hloop : ∀ {before step : CpuM T δ Unit}, Prog.Moves (StaysIn I) before →
      Prog.Moves (StaysIn I) step → Prog.Moves (StaysIn I) (runLoop before step cycle fuel) :=
    fun hbefore hstep => moves_runLoop .refl (fun _ _ _ => .trans) (fun _ _ => .of_same rfl)
      hbefore hstep cycle fuel
  rw [run_begin hbegin] at hrun
  refine (beginRun hbegin).trans ?_
  split at hrun
  · exact hloop poll h.runCachedBlock t r s' hrun
  · exact hloop (.of_pure .refl ()) h.runInst t r s' hrun

/-! ## Calls -/

/-- Every call keeps the invariant. -/
lemma perform (call : MipsCall δ) : Prog.Moves (StaysIn I) (perform (T := T) m call) := by
  intro s r s' hcall
  cases call with
  | reset =>
      rw [← Prog.state_eq hcall]
      intro _
      rw [reset_cache]
      exact h.reset
  | run fuel cycle =>
      obtain ⟨spent, t, hrun, hrest⟩ := Prog.bind_ok.mp hcall
      rw [← Prog.state_eq hrest]
      exact h.run fuel cycle s spent t hrun
  | queueCacheClear =>
      rw [← Prog.state_eq hcall]
      exact h.grows (MipsCache.grows_queueCacheClear s.cache)
  | setGpr idx value =>
      obtain ⟨-, gpr, -, rfl⟩ := perform_setGpr hcall
      exact .of_same rfl
  | _ =>
      rw [← Prog.state_eq hcall]
      exact .of_same rfl

/-- So every processor that was used since it was built has it. -/
theorem performAll {tlb : T} {d : δ} {calls : List (MipsCall δ)} {spent : List (Option ℤ)}
    {s : MipsBase T δ} (hcalls : performAll m calls { tlb := tlb, device := d } = .ok (spent, s)) :
    I s.cache :=
  performAll_keeps (fun call _ _ s t hs hcall => h.perform call s _ t hcall hs) h.reset hcalls

end CacheKept

end MipsBase

end NgMips
