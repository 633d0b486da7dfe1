import NgMips.Proofs.EachBlock
import NgMips.Proofs.Reset

/-!
# The block cache of every reachable processor

In every state a processor can be brought into, the block cache is in order (`Orderly`): blocks
are stored under their keys, queued work is noted, and no pointer denotes the block of another
key.  The last is weaker than that pointers are alive, but holds whatever is invalidated.
-/

namespace NgMips

namespace MipsCache

/-- The map is well formed, a pointer denotes the block of its key or nothing, and queued work is
noted. -/
structure Orderly (c : MipsCache) : Prop where
  wellFormed : c.WellFormed
  own : c.PointersOwn
  noted : c.Noted

namespace Orderly

variable {T : Type} [MipsTlbBase T] {c : MipsCache}

lemma reset : Orderly MipsCache.reset :=
  ⟨wellFormed_empty, (lookupLive_of_null fun _ => rfl).pointersOwn,
    by simp [Noted, MipsCache.reset]⟩

lemma grows {c' : MipsCache} (h : c.Orderly) (hgrows : c.Grows c') : c'.Orderly :=
  ⟨hgrows.same.wellFormed h.wellFormed, hgrows.same.pointersOwn h.own, hgrows.noted h.noted⟩

lemma getBlock (h : c.Orderly) (tlb : T) (address : BitVec 64) :
    (c.getBlock tlb address).2.Orderly :=
  ⟨wellFormed_getBlock tlb h.wellFormed address, pointersOwn_getBlock tlb h.own address,
    noted_getBlock tlb h.noted address⟩

lemma insertBlock (h : c.Orderly) (tlb : T) (block : MipsCacheBlock) :
    (c.insertBlock tlb block).Orderly :=
  ⟨wellFormed_insertBlock tlb h.wellFormed block, pointersOwn_insertBlock tlb h.own block,
    noted_insertBlock tlb h.noted block⟩

lemma executeCacheClear (h : c.Orderly) (ord : IterOrder) : (c.executeCacheClear ord).Orderly :=
  ⟨wellFormed_executeCacheClear h.wellFormed ord,
    pointersOwn_executeCacheClear h.wellFormed h.own ord, noted_executeCacheClear ord h.noted⟩

end Orderly

end MipsCache

namespace MipsBase

variable {T δ : Type} [MipsTlbBase T] {m : MipsSetup δ}

lemma orderly_enterBlock : Prog.Moves (StaysIn MipsCache.Orderly) (enterBlock (T := T) m) := by
  have hget : Prog.Moves (StaysIn MipsCache.Orderly) (getBlock : CpuM T δ _) := by
    intro s a s' h hs
    rw [← Prog.state_eq h]
    exact hs.getBlock s.tlb s.pc
  have hnew : ∀ address, Prog.Moves (StaysIn MipsCache.Orderly) (onNewBlock (T := T) m address) :=
    fun address => .bind (fun _ _ _ => .trans) (.of_internals (internal_buildBlock _)) fun block =>
      .of_modify fun s hs => hs.insertBlock s.tlb block
  have hbuild : Prog.Moves (StaysIn MipsCache.Orderly) (getOrBuildBlock (T := T) m) := by
    refine .bind (fun _ _ _ => .trans) hget fun block => ?_
    cases block with
    | some i => exact .of_pure .refl i
    | none =>
        refine .bind (fun _ _ _ => .trans) (.of_read .refl _) fun pc =>
          .bind (fun _ _ _ => .trans) (hnew pc) fun _ => .bind (fun _ _ _ => .trans) hget fun block => ?_
        cases block with
        | some i => exact .of_pure .refl i
        | none => exact .of_throw _
  have hclear : Prog.Moves (StaysIn MipsCache.Orderly) (executeCacheClear (T := T) m) := by
    refine .of_modify fun s hs => ?_
    split
    · exact hs.executeCacheClear m.ord
    · exact hs
  have hderef : ∀ i, Prog.Moves (StaysIn MipsCache.Orderly) (derefBlock i : CpuM T δ _) := by
    intro i s a s' h
    simp only [derefBlock] at h
    split at h
    · exact .of_same (congrArg MipsBase.cache (Prog.state_eq h).symm)
    · exact absurd h.symm Prog.ok_ne_error
  exact .bind (fun _ _ _ => .trans) hclear fun _ => .bind (fun _ _ _ => .trans) hbuild hderef

lemma orderly_cacheKept : CacheKept T m MipsCache.Orderly where
  reset := .reset
  grows hgrows h := h.grows hgrows
  enter := orderly_enterBlock

/-- The block cache of every processor that can be reached is in order. -/
theorem Reachable.orderly {δ : Type} {m : MipsSetup δ} {s : MipsBase MipsTlbNormal δ}
    (h : Reachable m s) : s.cache.Orderly := by
  obtain ⟨d, calls, spent, hcalls⟩ := h
  exact orderly_cacheKept.performAll hcalls

end MipsBase

end NgMips
