import NgMips.Source.Cache

/-!
# The array of pointers in front of the block cache

A run of the block cache is a list of operations, `CacheOp`, from the empty cache.  Every
run keeps two facts: a block is stored under its own key, and a pointer sits in the slot of
its key, which is a key of the map (`WellFormed`).

Whether a pointer denotes the element of its key (`LookupLive`) is another matter, because
an erasure moves the last element into the gap and only forgets the pointer to the erased
one.  An erasure keeps the pointers alive exactly when the element it moves is not held in
its slot; in a run whose erasures all do so, `getBlock` is the lookup in the map.
-/

namespace NgMips

/-! ## Operations -/

/-- The operations on the block cache; the translation unit may change between them. -/
inductive CacheOp (T : Type) where
  | insertBlock (tlb : T) (block : MipsCacheBlock)
  | getBlock (tlb : T) (address : BitVec 64)
  | invalidateBlock (ord : IterOrder) (tlb : T) (address : BitVec 64)
  | invalidateBlockRange (ord : IterOrder) (tlb : T) (start end_ : BitVec 64)
  | queueCacheClear
  | executeCacheClear (ord : IterOrder)
  | reset

variable {T : Type} [MipsTlbBase T]

def CacheOp.apply : CacheOp T → MipsCache → MipsCache
  | insertBlock tlb block, c => c.insertBlock tlb block
  | getBlock tlb address, c => (c.getBlock tlb address).2
  | invalidateBlock ord tlb address, c => c.invalidateBlock ord tlb address
  | invalidateBlockRange ord tlb start end_, c => c.invalidateBlockRange ord tlb start end_
  | queueCacheClear, c => c.queueCacheClear
  | executeCacheClear ord, c => c.executeCacheClear ord
  | reset, _ => MipsCache.reset

namespace MipsCache

/-- The cache after some operations. -/
def runOps (ops : List (CacheOp T)) (c : MipsCache) : MipsCache :=
  ops.foldl (fun c op => op.apply c) c

/-! ## Operations that only queue -/

/-- The map and the pointers are the same. -/
structure SameMap (c c' : MipsCache) : Prop where
  cache : c'.cache = c.cache
  lookupCache : c'.lookupCache = c.lookupCache

namespace SameMap

lemma refl (c : MipsCache) : SameMap c c := ⟨rfl, rfl⟩

lemma trans {c c' c'' : MipsCache} (h : SameMap c c') (h' : SameMap c' c'') : SameMap c c'' :=
  ⟨h'.cache.trans h.cache, h'.lookupCache.trans h.lookupCache⟩

end SameMap

variable (ord : IterOrder) (tlb : T) {c : MipsCache}

lemma sameMap_invalidateBlock (c : MipsCache) (address : BitVec 64) :
    SameMap c (c.invalidateBlock ord tlb address) := by
  simp only [invalidateBlock]
  split
  · exact .refl c
  · split
    · exact ⟨rfl, rfl⟩
    · split
      · exact .refl c
      · split <;> exact ⟨rfl, rfl⟩

lemma sameMap_queueRange (physStart physEnd : BitVec 64)
    (l : List (BitVec 64 × MipsCacheBlock)) (c : MipsCache) :
    SameMap c (l.foldl
      (fun c e => if e.2.meets physStart physEnd then c.queueStart e.2.key else c) c) := by
  induction l generalizing c with
  | nil => exact .refl c
  | cons e l ih =>
      rw [List.foldl_cons]
      split
      · have hqueue : SameMap c (c.queueStart e.2.key) := ⟨rfl, rfl⟩
        exact hqueue.trans (ih _)
      · exact ih c

lemma sameMap_invalidateBlockRange (c : MipsCache) (start end_ : BitVec 64) :
    SameMap c (c.invalidateBlockRange ord tlb start end_) := by
  simp only [invalidateBlockRange]
  split
  · exact .refl c
  · exact sameMap_queueRange _ _ _ c

/-! ## What every run keeps -/

/-- Blocks are stored under their keys, and pointers sit in the slots of keys of the map. -/
structure WellFormed (c : MipsCache) : Prop where
  key : ∀ k b, (k, b) ∈ c.cache.values → k = b.key
  slot : ∀ i k p, c.lookupCache i = ⟨k, some p⟩ → lookupIdx k = i
  mem : ∀ i k p, c.lookupCache i = ⟨k, some p⟩ → k ∈ c.cache.keys

/-- Every pointer denotes the element of its key. -/
def LookupLive (c : MipsCache) : Prop :=
  ∀ i k p, c.lookupCache i = ⟨k, some p⟩ → ∃ b, c.cache.values[p]? = some (k, b)

lemma SameMap.wellFormed {c' : MipsCache} (hsame : SameMap c c') (h : c.WellFormed) :
    c'.WellFormed := by
  obtain ⟨hcache, hlookup⟩ := hsame
  exact ⟨hcache ▸ h.key, hlookup ▸ h.slot, by rw [hcache, hlookup]; exact h.mem⟩

lemma SameMap.lookupLive {c' : MipsCache} (hsame : SameMap c c') (h : c.LookupLive) :
    c'.LookupLive := by
  rw [LookupLive, hsame.cache, hsame.lookupCache]
  exact h

/-- A map without pointers. -/
lemma lookupLive_of_null (h : ∀ i, (c.lookupCache i).block = none) : c.LookupLive := by
  intro i k p hi
  have hnull := h i
  rw [hi] at hnull
  exact absurd hnull (by simp)

lemma wellFormed_of_null (hkey : ∀ k b, (k, b) ∈ c.cache.values → k = b.key)
    (h : ∀ i, (c.lookupCache i).block = none) : c.WellFormed := by
  have hno : ∀ i k p, c.lookupCache i ≠ ⟨k, some p⟩ := by
    intro i k p hi
    have hnull := h i
    rw [hi] at hnull
    exact absurd hnull (by simp)
  exact ⟨hkey, fun i k p hi => absurd hi (hno i k p), fun i k p hi => absurd hi (hno i k p)⟩

lemma wellFormed_empty : ({} : MipsCache).WellFormed :=
  wellFormed_of_null (by simp) fun _ => rfl

lemma wellFormed_insertBlock (h : c.WellFormed) (block : MipsCacheBlock) :
    (c.insertBlock tlb block).WellFormed := by
  rw [insertBlock]
  split
  · exact h
  · next b _ =>
      refine wellFormed_of_null ?_ fun _ => rfl
      intro k b' hmem
      rcases c.cache.mem_insert hmem with hold | ⟨-, rfl, rfl⟩
      · exact h.key k b' hold
      · rfl

lemma lookupLive_insertBlock (h : c.LookupLive) (block : MipsCacheBlock) :
    (c.insertBlock tlb block).LookupLive := by
  rw [insertBlock]
  split
  · exact h
  · exact lookupLive_of_null fun _ => rfl

/-! ## Lookup -/

lemma LookupCacheEntry.eq_mk {e : LookupCacheEntry} {a : BitVec 64} {block : Option ℕ}
    (ha : e.address = a) (hblock : e.block = block) : e = ⟨a, block⟩ := by
  cases e
  cases ha
  cases hblock
  rfl

/-- The pointers after a lookup that found position `p`. -/
lemma lookupCache_update {i j : Fin 64} {a k : BitVec 64} {p q : ℕ}
    (h : Function.update c.lookupCache i ⟨a, some p⟩ j = ⟨k, some q⟩) :
    (j = i ∧ a = k ∧ p = q) ∨ c.lookupCache j = ⟨k, some q⟩ := by
  by_cases hj : j = i
  · rw [hj, Function.update_self] at h
    injection h with ha hp
    exact .inl ⟨hj, ha, Option.some.inj hp⟩
  · rw [Function.update_of_ne hj] at h
    exact .inr h

lemma wellFormed_lookupBlock (h : c.WellFormed) (address : BitVec 64) :
    (c.lookupBlock address).2.WellFormed := by
  simp only [lookupBlock]
  split
  · exact h
  · split
    · next p hfind =>
        obtain ⟨b, hb⟩ := c.cache.find_eq_some_iff.mp hfind
        refine ⟨h.key, ?_, ?_⟩
        · intro j k q hj
          rcases lookupCache_update hj with ⟨rfl, rfl, -⟩ | hold
          · rfl
          · exact h.slot j k q hold
        · intro j k q hj
          rcases lookupCache_update hj with ⟨-, rfl, -⟩ | hold
          · exact c.cache.mem_keys_of_mem (List.mem_of_getElem? hb)
          · exact h.mem j k q hold
    · exact h

lemma lookupLive_lookupBlock (h : c.LookupLive) (address : BitVec 64) :
    (c.lookupBlock address).2.LookupLive := by
  simp only [lookupBlock]
  split
  · exact h
  · split
    · next p hfind =>
        intro j k q hj
        rcases lookupCache_update hj with ⟨-, rfl, rfl⟩ | hold
        · exact c.cache.find_eq_some_iff.mp hfind
        · exact h j k q hold
    · exact h

/-- With live pointers the two-level lookup is the lookup in the map. -/
lemma lookupBlock_eq_find (h : c.LookupLive) (address : BitVec 64) :
    (c.lookupBlock address).1 = c.cache.find address := by
  simp only [lookupBlock]
  split
  · next hhit =>
      obtain ⟨p, hp⟩ := Option.ne_none_iff_exists'.mp hhit.2
      obtain ⟨b, hb⟩ := h _ _ _ (LookupCacheEntry.eq_mk hhit.1 hp)
      rw [hp, c.cache.find_eq_some_iff.mpr ⟨b, hb⟩]
  · cases c.cache.find address <;> rfl

lemma getBlock_eq_find (h : c.LookupLive) (address : BitVec 64) :
    (c.getBlock tlb address).1 = (physicalKey tlb address).bind c.cache.find := by
  rw [getBlock]
  cases physicalKey tlb address with
  | none => rfl
  | some key => exact lookupBlock_eq_find h key

lemma wellFormed_getBlock (h : c.WellFormed) (address : BitVec 64) :
    (c.getBlock tlb address).2.WellFormed := by
  rw [getBlock]
  split
  · exact h
  · exact wellFormed_lookupBlock h _

lemma lookupLive_getBlock (h : c.LookupLive) (address : BitVec 64) :
    (c.getBlock tlb address).2.LookupLive := by
  rw [getBlock]
  split
  · exact h
  · exact lookupLive_lookupBlock h _

/-! ## Erasure -/

variable {ord}

/-- What one round of `executeCacheClear` does to the map and the pointers, when it erases
the block of key `k`. -/
structure Erases (k : BitVec 64) (c c' : MipsCache) : Prop where
  cache : c'.cache = c.cache.erase k
  lookup : ∀ i k' p, c'.lookupCache i = ⟨k', some p⟩ ↔
    c.lookupCache i = ⟨k', some p⟩ ∧ k' ≠ k

lemma clearOne_cases (ord : IterOrder) (h : c.WellFormed) (address : BitVec 64) :
    (c.clearOne ord address = c ∧ ∀ e ∈ c.cache.values, e.2.covers address = false) ∨
      ∃ e ∈ c.cache.values, e.2.covers address = true ∧
        (ord.order c.cache.values).find? (fun e => e.2.covers address) = some e ∧
        Erases e.1 c (c.clearOne ord address) := by
  rw [clearOne]
  cases hfind : (ord.order c.cache.values).find? (fun e => e.2.covers address) with
  | none =>
      refine .inl ⟨rfl, fun e he => ?_⟩
      have hno := List.find?_eq_none.mp hfind e (ord.mem_iff.mpr he)
      simpa using hno
  | some e =>
      have hmem : e ∈ c.cache.values := ord.mem_iff.mp (List.mem_of_find?_eq_some hfind)
      have hkey : e.1 = e.2.key := h.key e.1 e.2 hmem
      have hcovers := List.find?_some hfind
      refine .inr ⟨e, hmem, hcovers, rfl, rfl, fun i k p => ?_⟩
      dsimp only
      rw [← hkey]
      split
      · next haddr =>
          by_cases hi : i = lookupIdx e.1
          · rw [hi, Function.update_self]
            constructor
            · intro hnull
              exact absurd (congrArg LookupCacheEntry.block hnull) (by simp)
            · rintro ⟨hslot, hne⟩
              rw [hslot] at haddr
              exact absurd haddr hne
          · rw [Function.update_of_ne hi]
            refine ⟨fun hslot => ⟨hslot, ?_⟩, And.left⟩
            rintro rfl
            exact hi (h.slot i _ p hslot).symm
      · next haddr =>
          refine ⟨fun hslot => ⟨hslot, ?_⟩, And.left⟩
          rintro rfl
          rw [h.slot i _ p hslot, hslot] at haddr
          exact haddr rfl

lemma Erases.wellFormed {k : BitVec 64} {c' : MipsCache} (he : Erases k c c')
    (h : c.WellFormed) : c'.WellFormed := by
  refine ⟨?_, fun i k' p hi => h.slot i k' p ((he.lookup i k' p).mp hi).1, ?_⟩
  · intro k' b hmem
    rw [he.cache] at hmem
    exact h.key k' b (c.cache.mem_erase.mp hmem).1
  · intro i k' p hi
    obtain ⟨hold, hne⟩ := (he.lookup i k' p).mp hi
    rw [he.cache, c.cache.mem_keys_erase]
    exact ⟨h.mem i k' p hold, hne⟩

lemma wellFormed_clearOne (ord : IterOrder) (h : c.WellFormed) (address : BitVec 64) :
    (c.clearOne ord address).WellFormed := by
  rcases clearOne_cases ord h address with ⟨hsame, -⟩ | ⟨e, -, -, -, he⟩
  · rwa [hsame]
  · exact he.wellFormed h

lemma wellFormed_clearAll (ord : IterOrder) (l : List (BitVec 64)) (h : c.WellFormed) :
    (l.foldl (clearOne ord) c).WellFormed := by
  induction l generalizing c with
  | nil => exact h
  | cons a l ih => exact ih (wellFormed_clearOne ord h a)

/-- The pointer to the block of key `k` is held in its slot: `getBlock` would use it. -/
def Held (c : MipsCache) (k : BitVec 64) : Prop :=
  (c.lookupCache (lookupIdx k)).address = k ∧ (c.lookupCache (lookupIdx k)).block ≠ none

/-- The erasure for `address` removes the last element of the map, or moves one that is not
held. -/
def SafeErase (ord : IterOrder) (c : MipsCache) (address : BitVec 64) : Prop :=
  ∀ e z, (ord.order c.cache.values).find? (fun e => e.2.covers address) = some e →
    c.cache.values.getLast? = some z → z.1 = e.1 ∨ ¬ c.Held z.1

/-- Pointers to blocks that stay are alive after an erasure as long as they do not denote
the last element. -/
lemma Erases.live_iff {k : BitVec 64} {b : MipsCacheBlock} {c' : MipsCache}
    (he : Erases k c c') (hmem : (k, b) ∈ c.cache.values) (hlive : c.LookupLive) :
    c'.LookupLive ↔ ∀ i k' p, c.lookupCache i = ⟨k', some p⟩ → k' ≠ k →
      p + 1 < c.cache.values.length := by
  obtain ⟨j, hj⟩ := c.cache.find_isSome_of_mem hmem
  obtain ⟨b', hb'⟩ := c.cache.find_eq_some_iff.mp hj
  obtain ⟨hjlt, -⟩ := List.getElem?_eq_some_iff.mp hb'
  have hvalues : c'.cache.values = swapErase c.cache.values j := by
    rw [he.cache, DenseMap.erase, hj]
    exact c.cache.values_eraseAt hjlt
  have hget : ∀ i k' p, c.lookupCache i = ⟨k', some p⟩ → k' ≠ k →
      c'.cache.values[p]? = if p + 1 < c.cache.values.length then c.cache.values[p]? else none := by
    intro i k' p hi hne
    obtain ⟨b₁, hb₁⟩ := hlive i k' p hi
    have hpj : p ≠ j := by
      rintro rfl
      rw [hb'] at hb₁
      exact hne (Prod.mk.inj (Option.some.inj hb₁)).1.symm
    rw [hvalues, swapErase.getElem? _ hjlt, if_neg hpj]
  constructor
  · intro h i k' p hi hne
    obtain ⟨b₁, hb₁⟩ := h i k' p ((he.lookup i k' p).mpr ⟨hi, hne⟩)
    rw [hget i k' p hi hne] at hb₁
    by_contra hlt
    rw [if_neg hlt] at hb₁
    exact absurd hb₁ (by simp)
  · intro h i k' p hi
    obtain ⟨hold, hne⟩ := (he.lookup i k' p).mp hi
    rw [hget i k' p hold hne, if_pos (h i k' p hold hne)]
    exact hlive i k' p hold

/-- An erasure keeps the pointers alive exactly when it is safe. -/
lemma clearOne_live_iff (h : c.WellFormed) (hlive : c.LookupLive) (address : BitVec 64) :
    (c.clearOne ord address).LookupLive ↔ SafeErase ord c address := by
  rcases clearOne_cases ord h address with ⟨hsame, hno⟩ | ⟨e, hmem, -, hfind, he⟩
  · rw [hsame]
    refine ⟨fun _ e z hfind => ?_, fun _ => hlive⟩
    have hcovers := List.find?_some hfind
    have hmem := ord.mem_iff.mp (List.mem_of_find?_eq_some hfind)
    exact absurd hcovers (by simp [hno e hmem])
  · rw [he.live_iff hmem hlive]
    obtain ⟨n, hn⟩ : ∃ n, c.cache.values.length = n + 1 :=
      Nat.exists_eq_succ_of_ne_zero (List.length_pos_of_mem hmem).ne'
    have hlast : c.cache.values.getLast? = c.cache.values[n]? := by
      rw [List.getLast?_eq_getElem?, hn, Nat.add_sub_cancel]
    constructor
    · intro hlt e' z hfind' hz
      obtain rfl : e = e' := Option.some.inj (hfind.symm.trans hfind')
      by_contra hcon
      obtain ⟨hne, hheld⟩ := not_or.mp hcon
      obtain ⟨haddr, hblock⟩ := not_not.mp hheld
      obtain ⟨p, hp⟩ := Option.ne_none_iff_exists'.mp hblock
      have hslot := LookupCacheEntry.eq_mk haddr hp
      obtain ⟨b, hb⟩ := hlive _ _ _ hslot
      -- The pointer denotes the last element, which is about to move.
      have hzlast : c.cache.values[n]? = some (z.1, z.2) := by rw [← hlast, hz]
      have hpn : p = n := c.cache.index_unique hb hzlast
      have := hlt _ _ _ hslot hne
      omega
    · intro hsafe i k p hi hne
      obtain ⟨b, hb⟩ := hlive i k p hi
      obtain ⟨hplt, -⟩ := List.getElem?_eq_some_iff.mp hb
      by_contra hlt
      have hpn : p = n := by omega
      have hz : c.cache.values.getLast? = some (k, b) := by rw [hlast, ← hpn, hb]
      have hidx := h.slot i k p hi
      rcases hsafe e (k, b) hfind hz with heq | hheld
      · exact hne heq
      · refine hheld ⟨?_, ?_⟩ <;> simp [hidx, hi]

/-! ## Runs -/

/-- The erasures for a list of queued addresses are all safe. -/
def SafeErases (ord : IterOrder) : MipsCache → List (BitVec 64) → Prop
  | _, [] => True
  | c, address :: l => SafeErase ord c address ∧ SafeErases ord (c.clearOne ord address) l

lemma lookupLive_clearAll (l : List (BitVec 64)) (h : c.WellFormed) (hlive : c.LookupLive)
    (hsafe : SafeErases ord c l) : (l.foldl (clearOne ord) c).LookupLive := by
  induction l generalizing c with
  | nil => exact hlive
  | cons a l ih =>
      exact ih (wellFormed_clearOne ord h a) ((clearOne_live_iff h hlive a).mpr hsafe.1) hsafe.2

lemma wellFormed_executeCacheClear (h : c.WellFormed) (ord : IterOrder) :
    (c.executeCacheClear ord).WellFormed := by
  rw [executeCacheClear]
  split
  · exact wellFormed_of_null (by simp) fun _ => rfl
  · split
    · have hclear := wellFormed_clearAll ord c.pendingInvalidations h
      exact ⟨hclear.key, hclear.slot, hclear.mem⟩
    · exact h

/-! ## Pointers that are not alive

An erasure moves the last element away, so a pointer that it leaves behind denotes nothing at all:
an insertion, which could put another element there, takes all pointers away. -/

/-- A pointer denotes the element of its key or nothing. -/
def PointersOwn (c : MipsCache) : Prop :=
  ∀ i k p e, c.lookupCache i = ⟨k, some p⟩ → c.cache.values[p]? = some e → e.1 = k

lemma LookupLive.pointersOwn (h : c.LookupLive) : c.PointersOwn := by
  intro i k p e hi he
  obtain ⟨b, hb⟩ := h i k p hi
  rw [← Option.some.inj (hb.symm.trans he)]

lemma SameMap.pointersOwn {c' : MipsCache} (hsame : SameMap c c') (h : c.PointersOwn) :
    c'.PointersOwn := by
  rw [PointersOwn, hsame.cache, hsame.lookupCache]
  exact h

lemma pointersOwn_insertBlock (h : c.PointersOwn) (block : MipsCacheBlock) :
    (c.insertBlock tlb block).PointersOwn := by
  rw [insertBlock]
  split
  · exact h
  · exact (lookupLive_of_null fun _ => rfl).pointersOwn

lemma pointersOwn_getBlock (h : c.PointersOwn) (address : BitVec 64) :
    (c.getBlock tlb address).2.PointersOwn := by
  rw [getBlock]
  split
  · exact h
  · next key _ =>
      simp only [lookupBlock]
      split
      · exact h
      · split
        · next p hfind =>
            intro j k q e hj he
            rcases lookupCache_update hj with ⟨-, rfl, rfl⟩ | hold
            · obtain ⟨b, hb⟩ := c.cache.find_eq_some_iff.mp hfind
              rw [← Option.some.inj (hb.symm.trans he)]
            · exact h j k q e hold he
        · exact h

lemma Erases.pointersOwn {k : BitVec 64} {b : MipsCacheBlock} {c' : MipsCache}
    (he : Erases k c c') (hmem : (k, b) ∈ c.cache.values) (h : c.PointersOwn) : c'.PointersOwn := by
  obtain ⟨j, hj⟩ := c.cache.find_isSome_of_mem hmem
  obtain ⟨b', hb'⟩ := c.cache.find_eq_some_iff.mp hj
  obtain ⟨hjlt, -⟩ := List.getElem?_eq_some_iff.mp hb'
  have hvalues : c'.cache.values = swapErase c.cache.values j := by
    rw [he.cache, DenseMap.erase, hj]
    exact c.cache.values_eraseAt hjlt
  intro i k' p e hi hget
  obtain ⟨hold, hne⟩ := (he.lookup i k' p).mp hi
  have hpj : p ≠ j := by
    rintro rfl
    exact hne (h i k' p _ hold hb').symm
  rw [hvalues, swapErase.getElem? _ hjlt, if_neg hpj] at hget
  split at hget
  · exact h i k' p e hold hget
  · exact absurd hget (by simp)

lemma pointersOwn_executeCacheClear (hwf : c.WellFormed) (h : c.PointersOwn) (ord : IterOrder) :
    (c.executeCacheClear ord).PointersOwn := by
  have hclear : ∀ (l : List (BitVec 64)) {c : MipsCache}, c.WellFormed → c.PointersOwn →
      (l.foldl (clearOne ord) c).PointersOwn := by
    intro l
    induction l with
    | nil => exact fun _ h => h
    | cons a l ih =>
        intro c hwf h
        refine ih (wellFormed_clearOne ord hwf a) ?_
        rcases clearOne_cases ord hwf a with ⟨hsame, -⟩ | ⟨e, hmem, -, -, he⟩
        · rwa [hsame]
        · exact he.pointersOwn hmem h
  rw [executeCacheClear]
  split
  · exact (lookupLive_of_null fun _ => rfl).pointersOwn
  · split
    · exact hclear c.pendingInvalidations hwf h
    · exact h

/-- The element a lookup returns, if it is there, is the one of the key. -/
lemma getBlock_key {tlb : T} {address key : BitVec 64} {p : ℕ}
    {e : BitVec 64 × MipsCacheBlock} (h : c.PointersOwn)
    (hkey : physicalKey tlb address = some key) (hp : (c.getBlock tlb address).1 = some p)
    (hget : c.cache.values[p]? = some e) : e.1 = key := by
  rw [getBlock, hkey] at hp
  simp only [lookupBlock] at hp
  split at hp
  · next hhit => exact h _ _ p e (LookupCacheEntry.eq_mk hhit.1 hp) hget
  · cases hfind : c.cache.find key with
    | some q =>
        rw [hfind] at hp
        obtain rfl := Option.some.inj hp
        obtain ⟨b, hb⟩ := c.cache.find_eq_some_iff.mp hfind
        rw [← Option.some.inj (hb.symm.trans hget)]
    | none =>
        rw [hfind] at hp
        exact absurd hp (by simp)

/-- A lookup that finds nothing changes nothing, and there is nothing to be found. -/
lemma getBlock_none {tlb : T} {address key : BitVec 64}
    (hkey : physicalKey tlb address = some key) (hnone : (c.getBlock tlb address).1 = none) :
    c.cache.find key = none ∧ (c.getBlock tlb address).2 = c := by
  rw [getBlock, hkey] at hnone ⊢
  simp only [lookupBlock] at hnone ⊢
  split at hnone
  · next hhit => exact absurd hnone hhit.2
  · next hmiss =>
      cases hfind : c.cache.find key with
      | some q =>
          rw [hfind] at hnone
          exact absurd hnone (by simp)
      | none => exact ⟨rfl, by rw [if_neg hmiss]⟩

end MipsCache

open MipsCache

/-- Every operation keeps the cache well-formed. -/
lemma CacheOp.wellFormed_apply (op : CacheOp T) {c : MipsCache} (h : c.WellFormed) :
    (op.apply c).WellFormed := by
  cases op with
  | insertBlock tlb block => exact wellFormed_insertBlock tlb h block
  | getBlock tlb address => exact wellFormed_getBlock tlb h address
  | invalidateBlock ord tlb address =>
      exact (sameMap_invalidateBlock ord tlb c address).wellFormed h
  | invalidateBlockRange ord tlb start end_ =>
      exact (sameMap_invalidateBlockRange ord tlb c start end_).wellFormed h
  | queueCacheClear =>
      have hsame : SameMap c c.queueCacheClear := ⟨rfl, rfl⟩
      exact hsame.wellFormed h
  | executeCacheClear ord => exact wellFormed_executeCacheClear h ord
  | reset => exact wellFormed_of_null (by simp [apply, MipsCache.reset]) fun _ => rfl

/-- The condition on an operation: `executeCacheClear` clears everything, or each of its
erasures removes the last element of the map or moves one that is not held. -/
def CacheOp.Safe : CacheOp T → MipsCache → Prop
  | executeCacheClear ord, c =>
      c.fullClearQueued = true ∨ SafeErases ord c c.pendingInvalidations
  | _, _ => True

/-- A safe operation keeps the pointers alive. -/
lemma CacheOp.lookupLive_apply (op : CacheOp T) {c : MipsCache} (h : c.WellFormed)
    (hlive : c.LookupLive) (hsafe : op.Safe c) : (op.apply c).LookupLive := by
  cases op with
  | insertBlock tlb block => exact lookupLive_insertBlock tlb hlive block
  | getBlock tlb address => exact lookupLive_getBlock tlb hlive address
  | invalidateBlock ord tlb address =>
      exact (sameMap_invalidateBlock ord tlb c address).lookupLive hlive
  | invalidateBlockRange ord tlb start end_ =>
      exact (sameMap_invalidateBlockRange ord tlb c start end_).lookupLive hlive
  | queueCacheClear =>
      have hsame : SameMap c c.queueCacheClear := ⟨rfl, rfl⟩
      exact hsame.lookupLive hlive
  | executeCacheClear ord =>
      rw [apply, MipsCache.executeCacheClear]
      split
      · exact lookupLive_of_null fun _ => rfl
      · next hfull =>
          have hsafe' : SafeErases ord c c.pendingInvalidations := hsafe.resolve_left hfull
          split
          · exact lookupLive_clearAll c.pendingInvalidations h hlive hsafe'
          · exact hlive
  | reset => exact lookupLive_of_null fun _ => rfl

/-- A run whose operations all meet the condition. -/
def SafeRun : List (CacheOp T) → MipsCache → Prop
  | [], _ => True
  | op :: ops, c => op.Safe c ∧ SafeRun ops (op.apply c)

lemma MipsCache.wellFormed_runOps (ops : List (CacheOp T)) {c : MipsCache} (h : c.WellFormed) :
    (runOps ops c).WellFormed := by
  induction ops generalizing c with
  | nil => exact h
  | cons op ops ih => exact ih (op.wellFormed_apply h)

lemma MipsCache.lookupLive_runOps (ops : List (CacheOp T)) {c : MipsCache} (h : c.WellFormed)
    (hlive : c.LookupLive) (hsafe : SafeRun ops c) : (runOps ops c).LookupLive := by
  induction ops generalizing c with
  | nil => exact hlive
  | cons op ops ih =>
      exact ih (op.wellFormed_apply h) (op.lookupLive_apply h hlive hsafe.1) hsafe.2

/-- The two-level lookup refines the map. -/
structure MipsCache.LookupRefines (T : Type) [MipsTlbBase T] (c : MipsCache) : Prop where
  live : c.LookupLive
  getBlock : ∀ (tlb : T) address,
    (c.getBlock tlb address).1 = (physicalKey tlb address).bind c.cache.find

/-- In a run whose erasures do not move a block that is held in its slot, the two-level
lookup is the lookup in the map. -/
theorem lookup_refines_of_safeRun (ops : List (CacheOp T)) (hsafe : SafeRun ops {}) :
    (runOps ops {}).LookupRefines T := by
  have hlive := lookupLive_runOps ops wellFormed_empty (lookupLive_of_null fun _ => rfl) hsafe
  exact ⟨hlive, fun tlb address => getBlock_eq_find tlb hlive address⟩

/-! ## A pointer that dangles -/

/-- A block of two instructions in an unmapped segment. -/
def twoWords (start : BitVec 32) : MipsCacheBlock where
  start := start
  end_ := start + 8
  entries := [⟨start, 0, .kNop⟩, ⟨start + 4, 0, .kNop⟩]

/-- Two blocks are built, the second is looked up, and the first is invalidated. -/
def danglingOps : List (CacheOp MipsTlbNormal) :=
  [.insertBlock {} (twoWords 0x80000100), .insertBlock {} (twoWords 0x80000200),
    .getBlock {} 0x80000200, .invalidateBlock .vector {} 0x80000100, .executeCacheClear .vector]

/-- The pointer to the second block is past the end of the vector. -/
theorem danglingOps_not_refined :
    ¬ (runOps danglingOps {}).LookupRefines MipsTlbNormal := by
  intro h
  have hget := h.getBlock {} 0x80000200
  exact absurd hget (by decide)

/-- The same operations, with the second block invalidated. -/
def liveOps : List (CacheOp MipsTlbNormal) :=
  [.insertBlock {} (twoWords 0x80000100), .insertBlock {} (twoWords 0x80000200),
    .getBlock {} 0x80000100, .invalidateBlock .vector {} 0x80000200, .executeCacheClear .vector]

theorem liveOps_refined : (runOps liveOps {}).LookupRefines MipsTlbNormal := by
  refine lookup_refines_of_safeRun liveOps ⟨trivial, trivial, trivial, trivial, .inr ?_, trivial⟩
  refine ⟨fun e z he hz => .inl ?_, trivial⟩
  cases he
  cases hz
  rfl

end NgMips
