import NgMips.Proofs.Invalidate
import NgMips.Proofs.ReadAhead

/-!
# Where a built block is stored

`onNewBlock` stores a block at the bus address of its first word, `getBlock` looks for it at
the key of the program counter.  The one asks the translation unit, the other tests the
unmapped segments itself.  A run of the cache is followed here together with the words each
block was made of, its origin; a block that is in the cache was built by a run of the builder
for a program counter at which the two addresses agree.

With 32 entries they agree always.  The unit of the second processor has no unmapped
segments, and there the block that was just built is not found.
-/

namespace NgMips

open MipsCache

variable {T δ : Type} [MipsTlbBase T] {m : MipsSetup δ}

/-! ## The two addresses -/

lemma low_setWidth (address : BitVec 64) :
    ((address &&& 0xFFFFFFFF).setWidth 32).setWidth 64 = address &&& 0xFFFFFFFF := by
  apply BitVec.eq_of_toNat_eq
  rw [BitVec.toNat_setWidth, BitVec.toNat_setWidth, mask_toNat]
  omega

lemma setWidth_of_lt {address : BitVec 64} (h : address.toNat < 2 ^ 32) :
    (address.setWidth 32).setWidth 64 = address := by
  apply BitVec.eq_of_toNat_eq
  rw [BitVec.toNat_setWidth, BitVec.toNat_setWidth]
  omega

lemma inKseg_low (address : BitVec 64) : inKseg (address &&& 0xFFFFFFFF) = inKseg address := by
  rw [Bool.eq_iff_iff, inKseg_iff, inKseg_iff, mask_toNat, Nat.mod_mod]

lemma ksegPhysical_low (address : BitVec 64) :
    ksegPhysical (address &&& 0xFFFFFFFF) = ksegPhysical address := by
  apply BitVec.eq_of_toNat_eq
  rw [ksegPhysical_toNat, ksegPhysical_toNat, mask_toNat]
  omega

/-- The key is the bus address, the unmapped segments apart. -/
lemma physicalKey_eq (tlb : T) (address : BitVec 64) : physicalKey tlb address =
    if inKseg address then some (ksegPhysical address)
    else busAddress tlb (address &&& 0xFFFFFFFF) := by
  have hphys : address &&& 0xFFFFFFFF &&& 0x1FFFFFFF = ksegPhysical address :=
    ksegPhysical_low address
  simp only [physicalKey, inKseg, hphys, busAddress]
  cases (translateAddress tlb (address &&& 0xFFFFFFFF)).found <;> rfl

/-- With 32 entries the two addresses agree. -/
lemma physicalKey_normal (tlb : MipsTlbNormal) (address : BitVec 64) :
    physicalKey tlb address = busAddress tlb (address &&& 0xFFFFFFFF) := by
  rw [physicalKey_eq]
  by_cases hseg : inKseg address = true
  · have htrans := tlb.translateAddress_of_inKseg ((inKseg_low address).trans hseg)
    rw [if_pos hseg, eq_comm, busAddress_eq_some, MipsTlbNormal.translateAddress_eq, htrans,
      ksegPhysical_low]
    exact ⟨rfl, rfl⟩
  · rw [if_neg hseg]

/-- The block with its range moved to a physical address. -/
def placedAt (phys : BitVec 64) (block : MipsCacheBlock) : MipsCacheBlock :=
  { block with
    start := phys.setWidth 32
    end_ := (phys + (block.end_ - block.start).setWidth 64).setWidth 32 }

lemma placeBlock_eq (tlb : T) (block : MipsCacheBlock) :
    placeBlock tlb block = (busAddress tlb (block.start.setWidth 64)).map fun phys =>
      placedAt phys block := by
  rw [placeBlock, busAddress]
  cases (translateAddress tlb (block.start.setWidth 64)).found <;> rfl

/-! ## A lookup that finds nothing -/

namespace MipsCache

variable {tlb : T} {c : MipsCache} {address : BitVec 64}

/-- A lookup that finds nothing changes nothing. -/
lemma getBlock_of_null (h : (c.getBlock tlb address).1 = none) :
    (c.getBlock tlb address).2 = c := by
  rw [MipsCache.getBlock] at h ⊢
  split at h
  · rfl
  · simp only [lookupBlock] at h ⊢
    split at h
    · next hhit => exact absurd h hhit.2
    · next hmiss =>
        rw [if_neg hmiss]
        split at h
        · exact absurd h (by simp)
        · rfl

/-- A lookup that finds nothing looked in the map. -/
lemma not_mem_keys_of_null (h : (c.getBlock tlb address).1 = none) {key : BitVec 64}
    (hkey : physicalKey tlb address = some key) : key ∉ c.cache.keys := by
  rw [MipsCache.getBlock, hkey] at h
  simp only [lookupBlock] at h
  split at h
  · next hhit => exact absurd h hhit.2
  · split at h
    · exact absurd h (by simp)
    · next hfind => exact c.cache.find_eq_none_iff.mp hfind

lemma getBlock_null_congr {tlb' : T} {address' : BitVec 64}
    (h : physicalKey tlb' address' = physicalKey tlb address) :
    (c.getBlock tlb' address').1 = (c.getBlock tlb address).1 := by
  rw [MipsCache.getBlock, MipsCache.getBlock, h]

end MipsCache

/-! ## One run of the builder -/

namespace MipsBase

lemma busAddress_foldl_note (hr : FetchesAhead m T) (l : List Prefetch) (s : MipsBase T δ)
    (address : BitVec 64) : busAddress (l.foldl note s).tlb address = busAddress s.tlb address :=
  foldl_note_keeps (f := fun s => busAddress s.tlb address) (fun s p => busAddress_note hr s p address)
    l s

lemma pc_foldl_note (l : List Prefetch) (s : MipsBase T δ) : (l.foldl note s).pc = s.pc := by
  refine foldl_note_keeps (fun s p => ?_) l s
  rw [note]
  split <;> rfl

lemma builds_or_stops (hr : FetchesAhead m T) (pc : BitVec 64) (s : MipsBase T δ) :
    (m.config.hasException = false ∨ ∀ p ∈ readForBlock m s pc, p.source ≠ none) ∨
      ∃ e, e ≠ .panic .blockCreationFailed ∧ onNewBlock m pc s = .error e := by
  by_cases hgoes : m.config.hasException = false ∨ ∀ p ∈ readForBlock m s pc, p.source ≠ none
  · exact .inl hgoes
  · rw [not_or] at hgoes
    have hmiss : ∃ p ∈ readForBlock m s pc, p.source = none := by
      by_contra hall
      exact hgoes.2 fun p hp hnone => hall ⟨p, hp, hnone⟩
    exact .inr (onNewBlock_stops hr (by simpa using hgoes.1) pc s hmiss)

/-- What a run of `onNewBlock` does: it translates as before, and the new block is stored at
the bus address of its first word. -/
structure NewBlock (m : MipsSetup δ) (s s' : MipsBase T δ) : Prop where
  pc : s'.pc = s.pc
  bus : ∀ address, busAddress s'.tlb address = busAddress s.tlb address
  cache : s'.cache = s.cache.insertBlock s'.tlb (blockOf m s.pc (readForBlock m s s.pc))
  missed : busAddress s.tlb (s.pc &&& 0xFFFFFFFF) = none → s'.cache = s.cache
  stored : ∀ phys, busAddress s.tlb (s.pc &&& 0xFFFFFFFF) = some phys →
    s'.cache.cache = s.cache.cache.insert phys
      (placedAt phys (blockOf m s.pc (readForBlock m s s.pc))) ∧
    ∀ i, (s'.cache.lookupCache i).block = none

/-- The builder does not end in the `PANIC` of the cached interpreter. -/
lemma onNewBlock_error (hr : FetchesAhead m T) {pc : BitVec 64} {s : MipsBase T δ} {e : Stop}
    (h : onNewBlock m pc s = .error e) : e ≠ .panic .blockCreationFailed := by
  rcases builds_or_stops hr pc s with hgoes | ⟨e', hne, he'⟩
  · exact absurd (h.symm.trans (onNewBlock_run hr pc s hgoes)) (by simp)
  · obtain rfl := Except.error.inj (h.symm.trans he')
    exact hne

lemma onNewBlock_newBlock (hr : FetchesAhead m T) {s s' : MipsBase T δ}
    (h : onNewBlock m s.pc s = .ok ((), s')) : NewBlock m s s' := by
  have hgoes : m.config.hasException = false ∨
      ∀ p ∈ readForBlock m s s.pc, p.source ≠ none := by
    rcases builds_or_stops hr s.pc s with hgoes | ⟨e, -, he⟩
    · exact hgoes
    · exact absurd (h.symm.trans he) (by simp)
  rw [onNewBlock_run hr s.pc s hgoes] at h
  obtain rfl := Prog.state_eq h
  have hbus := busAddress_foldl_note hr (readForBlock m s s.pc) s
  -- The block is placed by the bus address of the masked program counter.
  have hplace : placeBlock ((readForBlock m s s.pc).foldl note s).tlb
      (blockOf m s.pc (readForBlock m s s.pc)) =
        (busAddress s.tlb (s.pc &&& 0xFFFFFFFF)).map fun phys =>
          placedAt phys (blockOf m s.pc (readForBlock m s s.pc)) := by
    rw [placeBlock_eq]
    show (busAddress _ (((s.pc &&& 0xFFFFFFFF).setWidth 32).setWidth 64)).map _ = _
    rw [low_setWidth, hbus]
  refine ⟨pc_foldl_note _ s, hbus, rfl, ?_, ?_⟩
  · intro hnone
    show s.cache.insertBlock _ _ = _
    rw [insertBlock, hplace, hnone]
    rfl
  · intro phys hphys
    show (s.cache.insertBlock _ _).cache = _ ∧
      ∀ i, ((s.cache.insertBlock _ _).lookupCache i).block = _
    rw [insertBlock, hplace, hphys]
    refine ⟨?_, fun i => rfl⟩
    show s.cache.cache.insert ((phys.setWidth 32).setWidth 64) _ = _
    rw [setWidth_of_lt (hr.fits _ _ _ hphys)]

/-- The builder's block is looked for at the same key as before. -/
lemma NewBlock.physicalKey {s s' : MipsBase T δ} (h : NewBlock m s s') :
    physicalKey s'.tlb s'.pc = physicalKey s.tlb s.pc := by
  rw [physicalKey_eq, physicalKey_eq, h.pc, h.bus]

lemma getBlock_run_eq (s : MipsBase T δ) :
    getBlock s = .ok ((s.cache.getBlock s.tlb s.pc).1,
      { s with cache := (s.cache.getBlock s.tlb s.pc).2 }) := rfl

/-- When the block is missing, `getOrBuildBlock` runs the builder and looks again. -/
lemma getOrBuildBlock_run {s : MipsBase T δ} (hnull : (s.cache.getBlock s.tlb s.pc).1 = none) :
    getOrBuildBlock m s = (onNewBlock m s.pc s).bind fun r =>
      match (r.2.cache.getBlock r.2.tlb r.2.pc).1 with
      | some i => .ok (i, { r.2 with cache := (r.2.cache.getBlock r.2.tlb r.2.pc).2 })
      | none => .error (.panic .blockCreationFailed) := by
  have hsame : { s with cache := (s.cache.getBlock s.tlb s.pc).2 } = s := by
    have hcache : (s.cache.getBlock s.tlb s.pc).2 = s.cache := getBlock_of_null hnull
    rw [hcache]
  have hfirst : getBlock s = .ok (none, s) := by rw [getBlock_run_eq, hnull, hsame]
  rw [getOrBuildBlock, Prog.bind_of_ok hfirst]
  show (read MipsBase.pc >>= fun pc => onNewBlock m pc >>= _ : CpuM T δ ℕ) s = _
  rw [Prog.bind_of_ok (read_run _ _), Prog.bind_run]
  cases onNewBlock m s.pc s with
  | error e => rfl
  | ok r =>
      show (getBlock >>= _ : CpuM T δ ℕ) r.2 = _
      rw [Prog.bind_of_ok (getBlock_run_eq r.2)]
      cases hagain : (r.2.cache.getBlock r.2.tlb r.2.pc).1 <;> simp [Except.bind, hagain]

end MipsBase

/-! ## Runs of the cache -/

/-- The words each block was built from, by key. -/
abbrev Origin : Type := BitVec 64 → List Prefetch

/-- The words a build reads are recorded under the key of its block. -/
def recordBuild (m : MipsSetup δ) (s : MipsBase T δ) (origin : Origin) : Origin :=
  match busAddress s.tlb (s.pc &&& 0xFFFFFFFF) with
  | some phys => Function.update origin phys (readForBlock m s s.pc)
  | none => origin

def CacheOp.IsInsert : CacheOp T → Prop
  | insertBlock .. => True
  | _ => False

/-- The caches the processor comes by, with the words their blocks were built from.  A block
comes into the cache by a run of `getOrBuildBlock` that found none; `ok` is asked of the
states in which that happens. -/
inductive CacheReached (m : MipsSetup δ) (ok : MipsBase T δ → Prop) : MipsCache → Origin → Prop
  | init : CacheReached m ok {} fun _ => []
  | op {c : MipsCache} {origin : Origin} (h : CacheReached m ok c origin) (op : CacheOp T)
      (hop : ¬ op.IsInsert) : CacheReached m ok (op.apply c) origin
  | build {s s' : MipsBase T δ} {origin : Origin} {i : ℕ}
      (h : CacheReached m ok s.cache origin) (hok : ok s)
      (hnull : (s.cache.getBlock s.tlb s.pc).1 = none)
      (hrun : MipsBase.getOrBuildBlock m s = .ok (i, s')) :
      CacheReached m ok s'.cache (recordBuild m s origin)

/-- The block was built in some state in which `ok` holds, from the words recorded for its
key, and the two addresses of the program counter agreed. -/
def BuiltBlock (m : MipsSetup δ) (ok : MipsBase T δ → Prop) (origin : Origin) (key : BitVec 64)
    (block : MipsCacheBlock) : Prop :=
  ∃ s : MipsBase T δ, ok s ∧ physicalKey s.tlb s.pc = some key ∧
    busAddress s.tlb (s.pc &&& 0xFFFFFFFF) = some key ∧
    origin key = readForBlock m s s.pc ∧ block = placedAt key (MipsBase.blockOf m s.pc (origin key))

namespace MipsCache

/-- Only an insertion adds blocks. -/
lemma mem_values_of_not_insert {op : CacheOp T} (hop : ¬ op.IsInsert) {c : MipsCache}
    {e : BitVec 64 × MipsCacheBlock} (he : e ∈ (op.apply c).cache.values) :
    e ∈ c.cache.values := by
  cases op with
  | insertBlock tlb block => exact absurd trivial hop
  | getBlock tlb address => rwa [CacheOp.apply, (getBlock_cache tlb c address).1] at he
  | invalidateBlock ord tlb address =>
      rwa [CacheOp.apply, (queues_invalidateBlock ord tlb c address).same.cache] at he
  | invalidateBlockRange ord tlb start end_ =>
      rwa [CacheOp.apply, (queues_invalidateBlockRange ord tlb c start end_).same.cache] at he
  | queueCacheClear => exact he
  | executeCacheClear ord => exact mem_values_executeCacheClear he
  | reset => exact absurd he (by simp [CacheOp.apply, MipsCache.reset])

end MipsCache

/-- A run of `getOrBuildBlock` that found no block stores the new one at the key, and the key
is the bus address. -/
lemma getOrBuildBlock_stored (hr : FetchesAhead m T) {s s' : MipsBase T δ} {i : ℕ}
    (hnull : (s.cache.getBlock s.tlb s.pc).1 = none)
    (hrun : MipsBase.getOrBuildBlock m s = .ok (i, s')) :
    ∃ t, MipsBase.NewBlock m s t ∧ s'.cache = (t.cache.getBlock t.tlb t.pc).2 ∧
      ∃ key, physicalKey s.tlb s.pc = some key ∧
        busAddress s.tlb (s.pc &&& 0xFFFFFFFF) = some key ∧ key ∉ s.cache.cache.keys := by
  rw [MipsBase.getOrBuildBlock_run hnull] at hrun
  cases hbuild : MipsBase.onNewBlock m s.pc s with
  | error e =>
      rw [hbuild] at hrun
      exact absurd hrun (by simp [Except.bind])
  | ok r =>
      rw [hbuild] at hrun
      have hnew := MipsBase.onNewBlock_newBlock hr hbuild
      have hkeyed := hnew.physicalKey
      cases hagain : (r.2.cache.getBlock r.2.tlb r.2.pc).1 with
      | none => simp [Except.bind, hagain] at hrun
      | some j =>
          simp only [Except.bind, hagain] at hrun
          obtain rfl := Prog.state_eq hrun
          refine ⟨r.2, hnew, rfl, ?_⟩
          cases hbus : busAddress s.tlb (s.pc &&& 0xFFFFFFFF) with
          | none =>
              -- Nothing was stored, so that there is still no block.
              rw [hnew.missed hbus, getBlock_null_congr hkeyed, hnull] at hagain
              exact absurd hagain (by simp)
          | some phys =>
              obtain ⟨hinsert, hlookup⟩ := hnew.stored phys hbus
              have hfind := getBlock_eq_find r.2.tlb (lookupLive_of_null hlookup) r.2.pc
              rw [hagain, hkeyed, hinsert] at hfind
              cases hkey : physicalKey s.tlb s.pc with
              | none =>
                  rw [hkey] at hfind
                  exact absurd hfind (by simp)
              | some key =>
                  have hno := not_mem_keys_of_null hnull hkey
                  rw [hkey] at hfind
                  obtain ⟨b, hb⟩ := (DenseMap.find_eq_some_iff _).mp hfind.symm
                  have hmem := DenseMap.mem_keys_of_mem _ (List.mem_of_getElem? hb)
                  rcases DenseMap.mem_keys_insert _ hmem with hold | rfl
                  · exact absurd hold hno
                  · exact ⟨key, rfl, rfl, hno⟩

/-- Every cached block was built from the words recorded for its key. -/
theorem CacheReached.built (hr : FetchesAhead m T) {ok : MipsBase T δ → Prop} {c : MipsCache}
    {origin : Origin} (h : CacheReached m ok c origin) :
    c.WellFormed ∧ ∀ key block, (key, block) ∈ c.cache.values →
      BuiltBlock m ok origin key block := by
  induction h with
  | init => exact ⟨wellFormed_empty, by simp⟩
  | op _ op hop ih =>
      exact ⟨op.wellFormed_apply ih.1,
        fun key block hmem => ih.2 key block (mem_values_of_not_insert hop hmem)⟩
  | @build s s' origin i _ hok hnull hrun ih =>
      obtain ⟨t, hnew, hcache, key, hkey, hbus, hno⟩ := getOrBuildBlock_stored hr hnull hrun
      constructor
      · rw [hcache, hnew.cache]
        exact wellFormed_getBlock _ (wellFormed_insertBlock _ ih.1 _) _
      · intro k b hmem
        rw [hcache, (getBlock_cache _ _ _).1, (hnew.stored key hbus).1] at hmem
        rw [recordBuild, hbus]
        rcases DenseMap.mem_insert _ hmem with hold | ⟨-, rfl, rfl⟩
        · obtain ⟨u, hu, hkey', hbus', horigin, hblock⟩ := ih.2 k b hold
          have hne : k ≠ key := fun heq => hno (heq ▸ DenseMap.mem_keys_of_mem _ hold)
          refine ⟨u, hu, hkey', hbus', ?_, ?_⟩
          · show Function.update origin key _ k = _
            rw [Function.update_of_ne hne, horigin]
          · show b = placedAt k (MipsBase.blockOf m u.pc (Function.update origin key _ k))
            rw [Function.update_of_ne hne, ← hblock]
        · refine ⟨s, hok, hkey, hbus, Function.update_self .., ?_⟩
          show _ = placedAt k (MipsBase.blockOf m s.pc (Function.update origin k _ k))
          rw [Function.update_self]

/-! ## A built block is found -/

namespace MipsCache

/-- A pointer held for a key denotes the block of the key. -/
def SlotLive (c : MipsCache) (key : BitVec 64) : Prop :=
  ∀ i, c.lookupCache (lookupIdx key) = ⟨key, some i⟩ → ∃ b, c.cache.values[i]? = some (key, b)

lemma getBlock_of_slotLive {tlb : T} {c : MipsCache} {address key : BitVec 64} {i : ℕ}
    (hkey : physicalKey tlb address = some key) (hlive : c.SlotLive key)
    (h : (c.getBlock tlb address).1 = some i) : ∃ b, c.cache.values[i]? = some (key, b) := by
  rw [MipsCache.getBlock, hkey] at h
  simp only [lookupBlock] at h
  split at h
  · next hhit => exact hlive i (LookupCacheEntry.eq_mk hhit.1 h)
  · split at h
    · next j hfind =>
        rw [← Option.some.inj h]
        exact c.cache.find_eq_some_iff.mp hfind
    · exact absurd h (by simp)

lemma deref_eq_some {c : MipsCache} {i : ℕ} {b : MipsCacheBlock} :
    c.deref i = some b ↔ ∃ k, c.cache.values[i]? = some (k, b) := by
  rw [deref]
  cases c.cache.values[i]? with
  | none => simp
  | some e => simp [Prod.ext_iff]

end MipsCache

/-- What is expected of the block at the program counter. -/
structure NewBlockFound (m : MipsSetup δ) (origin : Origin) (s : MipsBase T δ) : Prop where
  /-- A block that was just built is found, and it is the one of the program counter. -/
  built : (s.cache.getBlock s.tlb s.pc).1 = none → ∀ s',
    MipsBase.onNewBlock m s.pc s = .ok ((), s') →
      ∃ i block entry, (s'.cache.getBlock s'.tlb s'.pc).1 = some i ∧
        s'.cache.deref i = some block ∧ block.entries.head? = some entry ∧
        entry.address = s.pc.setWidth 32
  /-- The first instruction of a block that is found was read where a fetch reads. -/
  hit : ∀ i, (s.cache.getBlock s.tlb s.pc).1 = some i →
    ∃ block p rest, s.cache.deref i = some block ∧ origin block.key = p :: rest ∧
      block.entries = (p :: rest).map (Prefetch.entry m) ∧
      p.source = busAddress s.tlb (s.pc &&& 0xFFFFFFFF)
  noPanic : MipsBase.getOrBuildBlock m s ≠ .error (.panic .blockCreationFailed)

/-- The first word read for a program counter. -/
lemma readForBlock_cons (m : MipsSetup δ) (s : MipsBase T δ) (pc : BitVec 64) :
    ∃ p rest, readForBlock m s pc = p :: rest ∧ p.address = pc &&& 0xFFFFFFFF ∧
      p.source = busAddress s.tlb (pc &&& 0xFFFFFFFF) := by
  have hhead := readAhead_head (m := m) s.tlb (kCacheBlockMaxLength - 2) (pc &&& 0xFFFFFFFF)
    s.device
  obtain ⟨rest, hrest⟩ := List.head?_eq_some_iff.mp hhead
  exact ⟨_, rest, hrest, prefetch_address .., prefetch_source ..⟩

/-- Where the two addresses agree, a block that is built is found under the program counter. -/
lemma newBlock_found (hr : FetchesAhead m T) {s s' : MipsBase T δ} {key : BitVec 64}
    (hkey : physicalKey s.tlb s.pc = some key)
    (hbus : busAddress s.tlb (s.pc &&& 0xFFFFFFFF) = some key)
    (hnull : (s.cache.getBlock s.tlb s.pc).1 = none)
    (hrun : MipsBase.onNewBlock m s.pc s = .ok ((), s')) :
    ∃ i, (s'.cache.getBlock s'.tlb s'.pc).1 = some i ∧ s'.cache.deref i =
      some (placedAt key (MipsBase.blockOf m s.pc (readForBlock m s s.pc))) := by
  have hnew := MipsBase.onNewBlock_newBlock hr hrun
  obtain ⟨hinsert, hlookup⟩ := hnew.stored key hbus
  have hno := not_mem_keys_of_null hnull hkey
  have hmem := s.cache.cache.mem_insert_self
    (a := placedAt key (MipsBase.blockOf m s.pc (readForBlock m s s.pc))) hno
  rw [← hinsert] at hmem
  obtain ⟨i, hi⟩ := s'.cache.cache.find_isSome_of_mem hmem
  have hfind := getBlock_eq_find s'.tlb (lookupLive_of_null hlookup) s'.pc
  rw [hnew.physicalKey, hkey] at hfind
  exact ⟨i, hfind.trans hi, deref_eq_some.mpr ⟨key, s'.cache.cache.getElem?_of_find hi hmem⟩⟩

/-- Where the two addresses agree and no stale pointer is held, the block is found. -/
lemma newBlockFound_of_agree (hr : FetchesAhead m T) {ok : MipsBase T δ → Prop} {origin : Origin}
    {s : MipsBase T δ} (h : CacheReached m ok s.cache origin) {key : BitVec 64}
    (hkey : physicalKey s.tlb s.pc = some key)
    (hbus : busAddress s.tlb (s.pc &&& 0xFFFFFFFF) = some key) (hlive : s.cache.SlotLive key) :
    NewBlockFound m origin s := by
  obtain ⟨hwf, hblocks⟩ := h.built hr
  refine ⟨?_, ?_, ?_⟩
  · intro hnull s' hrun
    obtain ⟨i, hget, hderef⟩ := newBlock_found hr hkey hbus hnull hrun
    obtain ⟨p, rest, hread, haddress, -⟩ := readForBlock_cons m s s.pc
    refine ⟨i, _, p.entry m, hget, hderef, ?_, ?_⟩
    · show ((readForBlock m s s.pc).map (Prefetch.entry m)).head? = _
      rw [hread]
      rfl
    · show p.address.setWidth 32 = _
      rw [haddress]
      apply BitVec.eq_of_toNat_eq
      rw [BitVec.toNat_setWidth, BitVec.toNat_setWidth, mask_toNat, Nat.mod_mod]
  · intro i hget
    obtain ⟨b, hb⟩ := getBlock_of_slotLive hkey hlive hget
    have hmem := List.mem_of_getElem? hb
    obtain ⟨u, -, -, hbus', horigin, hblock⟩ := hblocks _ _ hmem
    obtain ⟨p, rest, hread, -, hsource⟩ := readForBlock_cons m u u.pc
    have hbkey : b.key = key := (hwf.key key b hmem).symm
    refine ⟨b, p, rest, deref_eq_some.mpr ⟨key, hb⟩, ?_, ?_, ?_⟩
    · rw [hbkey, horigin, hread]
    · rw [hblock, ← hread, ← horigin]
      rfl
    · rw [hsource, hbus', hbus]
  · intro hpanic
    cases hget : (s.cache.getBlock s.tlb s.pc).1 with
    | some i =>
        rw [MipsBase.getOrBuildBlock, Prog.bind_of_ok (MipsBase.getBlock_run_eq s), hget] at hpanic
        exact absurd hpanic (by simp)
    | none =>
        rw [MipsBase.getOrBuildBlock_run hget] at hpanic
        cases hrun : MipsBase.onNewBlock m s.pc s with
        | error e =>
            rw [hrun] at hpanic
            exact MipsBase.onNewBlock_error hr hrun (Except.error.inj hpanic)
        | ok r =>
            obtain ⟨i, hagain, -⟩ := newBlock_found hr hkey hbus hget hrun
            rw [hrun] at hpanic
            simp [Except.bind, hagain] at hpanic

/-- Where the block is found, no stale pointer is held for its key. -/
lemma slotLive_of_found (hr : FetchesAhead m T) {ok : MipsBase T δ → Prop} {origin : Origin}
    {s : MipsBase T δ} (h : CacheReached m ok s.cache origin) {key : BitVec 64}
    (hkey : physicalKey s.tlb s.pc = some key)
    (hbus : busAddress s.tlb (s.pc &&& 0xFFFFFFFF) = some key) (hfound : NewBlockFound m origin s) :
    s.cache.SlotLive key := by
  obtain ⟨hwf, hblocks⟩ := h.built hr
  intro i hslot
  have hget : (s.cache.getBlock s.tlb s.pc).1 = some i := by
    rw [MipsCache.getBlock, hkey]
    simp only [lookupBlock, hslot]
    rw [if_pos ⟨trivial, by simp⟩]
  obtain ⟨block, p, rest, hderef, horigin, -, hsource⟩ := hfound.hit i hget
  obtain ⟨k, hk⟩ := deref_eq_some.mp hderef
  have hmem := List.mem_of_getElem? hk
  obtain ⟨u, -, -, hbus', horigin', -⟩ := hblocks _ _ hmem
  obtain ⟨q, rest', hread, -, hsource'⟩ := readForBlock_cons m u u.pc
  -- The block was built at its key, and it was read at the key asked for.
  rw [← hwf.key k block hmem, horigin', hread] at horigin
  rw [← (List.cons.inj horigin).1, hsource', hbus', hbus] at hsource
  obtain rfl := Option.some.inj hsource
  exact ⟨block, hk⟩

/-! ## The two units -/

/-- The bus address of an address in an unmapped segment is not the address itself. -/
lemma ksegPhysical_ne {address : BitVec 64} (h : inKseg address) :
    ksegPhysical address ≠ address &&& 0xFFFFFFFF := by
  have hrange := (inKseg_iff address).mp h
  intro heq
  have hnat := congrArg BitVec.toNat heq
  rw [ksegPhysical_toNat, mask_toNat] at hnat
  omega

lemma inKseg_congr {a b : BitVec 64} (h : a &&& 0xFFFFFFFF = b &&& 0xFFFFFFFF) :
    inKseg a = inKseg b := by
  rw [← inKseg_low a, h, inKseg_low]

/-- Without unmapped segments in the translation unit, a block built in one of them is not
found. -/
lemma not_found_of_kseg {origin : Origin} {s : MipsBase MipsTlbDummy δ}
    {ok : MipsBase MipsTlbDummy δ → Prop}
    (h : CacheReached m ok s.cache origin) (hkseg : inKseg s.pc) : ¬ NewBlockFound m origin s := by
  intro hfound
  have hr := fetchesAhead_dummy m
  have hkey : physicalKey s.tlb s.pc = some (ksegPhysical s.pc) := by
    rw [physicalKey_eq, if_pos hkseg]
  have hne := ksegPhysical_ne hkseg
  cases hget : (s.cache.getBlock s.tlb s.pc).1 with
  | none =>
      -- The block is stored under the address, and looked for at the physical one.
      have hgoes : ∀ p ∈ readForBlock m s s.pc, p.source ≠ none := by
        intro p hp
        obtain ⟨i, hi⟩ := List.getElem?_of_mem hp
        rw [(readAhead_getElem _ _ _ _ hi).2]
        exact Option.some_ne_none _
      obtain ⟨s', hrun⟩ : ∃ s', MipsBase.onNewBlock m s.pc s = .ok ((), s') :=
        ⟨_, MipsBase.onNewBlock_run hr s.pc s (.inr hgoes)⟩
      have hnew := MipsBase.onNewBlock_newBlock hr hrun
      obtain ⟨hinsert, hlookup⟩ := hnew.stored _ (busAddress_dummy s.tlb _)
      obtain ⟨i, block, entry, hagain, -⟩ := hfound.built hget s' hrun
      have hfind := getBlock_eq_find s'.tlb (lookupLive_of_null hlookup) s'.pc
      rw [hagain, hnew.physicalKey, hkey, hinsert] at hfind
      obtain ⟨b, hb⟩ := (DenseMap.find_eq_some_iff _).mp hfind.symm
      rcases DenseMap.mem_keys_insert _
        (DenseMap.mem_keys_of_mem _ (List.mem_of_getElem? hb)) with hold | heq
      · exact not_mem_keys_of_null hget hkey hold
      · exact hne heq
  | some i =>
      -- A block that is found was built outside the segments, at the address asked for.
      obtain ⟨hwf, hblocks⟩ := h.built hr
      obtain ⟨block, p, rest, hderef, horigin, -, hsource⟩ := hfound.hit i hget
      obtain ⟨k, hk⟩ := deref_eq_some.mp hderef
      have hmem := List.mem_of_getElem? hk
      obtain ⟨u, -, hkey', hbus', horigin', -⟩ := hblocks _ _ hmem
      obtain ⟨q, rest', hread, -, hsource'⟩ := readForBlock_cons m u u.pc
      rw [← hwf.key k block hmem, horigin', hread] at horigin
      rw [← (List.cons.inj horigin).1, hsource', busAddress_dummy, busAddress_dummy] at hsource
      have hlow := Option.some.inj hsource
      have hkseg' : inKseg u.pc := (inKseg_congr hlow).trans hkseg
      rw [busAddress_dummy] at hbus'
      rw [physicalKey_eq, if_pos hkseg', ← hbus'] at hkey'
      exact ksegPhysical_ne hkseg' (Option.some.inj hkey')

/-- With 32 entries, the block at a translated program counter is found exactly when no stale
pointer is held for its key; with the unit of the second processor, the program counter must
lie outside the unmapped segments as well. -/
theorem newBlockFound_iff :
    (m.IsN64 → ∀ {origin : Origin} {s : MipsBase MipsTlbNormal δ} {key : BitVec 64},
      CacheReached m (fun _ : MipsBase MipsTlbNormal δ => True) s.cache origin →
      busAddress s.tlb (s.pc &&& 0xFFFFFFFF) = some key →
        (NewBlockFound m origin s ↔ s.cache.SlotLive key)) ∧
    ∀ {origin : Origin} {s : MipsBase MipsTlbDummy δ} {key : BitVec 64},
      CacheReached m (fun _ : MipsBase MipsTlbDummy δ => True) s.cache origin →
      busAddress s.tlb (s.pc &&& 0xFFFFFFFF) = some key →
        (NewBlockFound m origin s ↔ inKseg s.pc = false ∧ s.cache.SlotLive key) := by
  constructor
  · intro hm origin s key hreached hbus
    have hr := fetchesAhead_normal hm
    have hkey := (physicalKey_normal s.tlb s.pc).trans hbus
    exact ⟨slotLive_of_found hr hreached hkey hbus, newBlockFound_of_agree hr hreached hkey hbus⟩
  · intro origin s key hreached hbus
    have hr := fetchesAhead_dummy m
    by_cases hkseg : inKseg s.pc = true
    · refine ⟨fun hfound => absurd hfound (not_found_of_kseg hreached hkseg), ?_⟩
      rintro ⟨hout, -⟩
      exact absurd hkseg (by simp [hout])
    · have hkey : physicalKey s.tlb s.pc = some key := by
        rw [physicalKey_eq, if_neg hkseg, hbus]
      exact ⟨fun hfound => ⟨by simpa using hkseg, slotLive_of_found hr hreached hkey hbus hfound⟩,
        fun hcond => newBlockFound_of_agree hr hreached hkey hbus hcond.2⟩

/-- The second processor in an unmapped segment. -/
def rspInKseg : MipsBase MipsTlbDummy WordMemory :=
  { tlb := ⟨⟩, device := [], pc := 0x80001000, nextPc := 0x80001004 }

/-- The block is built, not found, and the processor gives up. -/
theorem rspInKseg_not_found :
    CacheReached rspSetup (fun _ : MipsBase MipsTlbDummy WordMemory => True) rspInKseg.cache
        (fun _ => []) ∧
      MipsBase.run rspSetup 1 1 rspInKseg = .error (.panic .blockCreationFailed) ∧
      ¬ NewBlockFound rspSetup (fun _ => []) rspInKseg := by
  refine ⟨.init, run_of_stopped (by decide +kernel), fun hfound => hfound.noPanic ?_⟩
  exact run_of_stopped (by decide +kernel)

/-- The main processor at the end of a mapped page. -/
theorem returnAtPageEnd_found :
    NewBlockFound exceptionSetup (fun _ => []) MipsBase.returnAtPageEnd := by
  have hbus : busAddress MipsBase.returnAtPageEnd.tlb
      (MipsBase.returnAtPageEnd.pc &&& 0xFFFFFFFF) = some 0x1FF8#64 := by decide +kernel
  refine (newBlockFound_iff.1 (n64Setup_isN64 _) .init hbus).mpr ?_
  intro i hslot
  exact absurd hslot (by simp [MipsBase.returnAtPageEnd, programState])

end NgMips
