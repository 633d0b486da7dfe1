import NgMips.Proofs.Lookup

/-!
# Invalidation

A request queues start addresses, and the next `executeCacheClear` goes through them in
ascending order, each time erasing the first block it meets that *contains* the address.
A requested block is therefore certain to go when it was queued and when nobody but queued
blocks contain a queued address: then, at each address, the block that starts there is the
only one left that contains it.

The results are about a request anywhere in a run, any operations that follow it, the next
`executeCacheClear`, and any operations after that.
-/

namespace NgMips

variable {T : Type} [MipsTlbBase T]

namespace MipsCacheBlock

variable {b : MipsCacheBlock} {address : BitVec 64}

lemma covers_iff :
    b.covers address = true ↔ b.key ≤ address ∧ address < b.end_.setWidth 64 := by
  simp [covers, key]

lemma meets_iff {physStart physEnd : BitVec 64} :
    b.meets physStart physEnd = true ↔ b.key < physEnd ∧ physStart < b.end_.setWidth 64 := by
  simp [meets, key]

/-- A block that contains an address of a range meets the range. -/
lemma meets_of_covers {physStart physEnd : BitVec 64} (h : b.covers address = true)
    (hlo : physStart ≤ address) (hhi : address < physEnd) : b.meets physStart physEnd = true := by
  obtain ⟨hkey, hend⟩ := covers_iff.mp h
  exact meets_iff.mpr ⟨Nat.lt_of_le_of_lt hkey hhi, Nat.lt_of_le_of_lt hlo hend⟩

/-- A block that contains an address contains its own start. -/
lemma covers_key (h : b.covers address = true) : b.covers b.key = true := by
  obtain ⟨hkey, hend⟩ := covers_iff.mp h
  exact covers_iff.mpr ⟨BitVec.le_refl _, Nat.lt_of_le_of_lt hkey hend⟩

end MipsCacheBlock

/-! ## The queue -/

lemma mem_insertPending {a x : BitVec 64} {l : List (BitVec 64)} :
    x ∈ insertPending a l ↔ x = a ∨ x ∈ l := by
  induction l with
  | nil => simp [insertPending]
  | cons b l ih =>
      rw [insertPending]
      split
      · simp
      · split
        · next h => simp [h]
        · rw [List.mem_cons, ih, List.mem_cons]
          tauto

/-- The queue stays in ascending order. -/
lemma sorted_insertPending (a : BitVec 64) {l : List (BitVec 64)} (h : l.Pairwise (· < ·)) :
    (insertPending a l).Pairwise (· < ·) := by
  induction l with
  | nil => simp [insertPending]
  | cons b l ih =>
      obtain ⟨hb, hl⟩ := List.pairwise_cons.mp h
      rw [insertPending]
      split
      · next hab =>
          refine List.pairwise_cons.mpr ⟨?_, h⟩
          intro x hx
          rcases List.mem_cons.mp hx with rfl | hx
          · exact hab
          · exact Nat.lt_trans hab (hb x hx)
      · split
        · exact h
        · next hlt hne =>
            have hba : b < a := by
              rw [BitVec.lt_def] at hlt ⊢
              have : a.toNat ≠ b.toNat := fun heq => hne (BitVec.eq_of_toNat_eq heq)
              omega
            refine List.pairwise_cons.mpr ⟨?_, ih hl⟩
            intro x hx
            rcases mem_insertPending.mp hx with rfl | hx
            · exact hba
            · exact hb x hx

namespace MipsCache

variable {c : MipsCache} {ord : IterOrder}

/-- Queued work is noted, so that the cached interpreter looks at it. -/
def Noted (c : MipsCache) : Prop :=
  c.pendingInvalidations ≠ [] ∨ c.fullClearQueued = true → c.hasPendingWork = true

/-- An operation that only queues. -/
structure Queues (c c' : MipsCache) : Prop where
  same : SameMap c c'
  pending : ∀ k ∈ c.pendingInvalidations, k ∈ c'.pendingInvalidations
  sorted : c.pendingInvalidations.Pairwise (· < ·) → c'.pendingInvalidations.Pairwise (· < ·)
  full : c'.fullClearQueued = c.fullClearQueued
  noted : c.Noted → c'.Noted

namespace Queues

lemma refl (c : MipsCache) : Queues c c := ⟨.refl c, fun _ h => h, id, rfl, id⟩

lemma trans {c c' c'' : MipsCache} (h : Queues c c') (h' : Queues c' c'') : Queues c c'' :=
  ⟨h.same.trans h'.same, fun k hk => h'.pending k (h.pending k hk),
    fun hs => h'.sorted (h.sorted hs), h'.full.trans h.full, fun hn => h'.noted (h.noted hn)⟩

lemma queueStart (c : MipsCache) (start : BitVec 64) : Queues c (c.queueStart start) :=
  ⟨⟨rfl, rfl⟩, fun _ hk => mem_insertPending.mpr (.inr hk), sorted_insertPending start, rfl,
    fun _ _ => rfl⟩

end Queues

lemma mem_queueStart (c : MipsCache) (start : BitVec 64) :
    start ∈ (c.queueStart start).pendingInvalidations := mem_insertPending.mpr (.inl rfl)

lemma queues_invalidateBlock (ord : IterOrder) (tlb : T) (c : MipsCache) (address : BitVec 64) :
    Queues c (c.invalidateBlock ord tlb address) := by
  simp only [invalidateBlock]
  split
  · exact .refl c
  · split
    · exact .queueStart c _
    · split
      · exact .refl c
      · split
        · exact .queueStart c _
        · exact .refl c

/-- Going over a list of blocks queues every one of them that meets the range. -/
lemma queues_range (physStart physEnd : BitVec 64) (l : List (BitVec 64 × MipsCacheBlock))
    (c : MipsCache) :
    Queues c (l.foldl
        (fun c e => if e.2.meets physStart physEnd then c.queueStart e.2.key else c) c) ∧
      ∀ e ∈ l, e.2.meets physStart physEnd = true → e.2.key ∈ (l.foldl
        (fun c e => if e.2.meets physStart physEnd then c.queueStart e.2.key else c)
          c).pendingInvalidations := by
  induction l generalizing c with
  | nil => exact ⟨.refl c, by simp⟩
  | cons e l ih =>
      rw [List.foldl_cons]
      by_cases hmeets : e.2.meets physStart physEnd = true
      · rw [if_pos hmeets]
        obtain ⟨hq, hall⟩ := ih (c.queueStart e.2.key)
        refine ⟨(Queues.queueStart c _).trans hq, ?_⟩
        intro e' he' hmeets'
        rcases List.mem_cons.mp he' with rfl | he'
        · exact hq.pending _ (mem_queueStart c _)
        · exact hall e' he' hmeets'
      · rw [if_neg hmeets]
        obtain ⟨hq, hall⟩ := ih c
        refine ⟨hq, ?_⟩
        intro e' he' hmeets'
        rcases List.mem_cons.mp he' with rfl | he'
        · exact absurd hmeets' hmeets
        · exact hall e' he' hmeets'

lemma queues_invalidateBlockRange (ord : IterOrder) (tlb : T) (c : MipsCache)
    (start end_ : BitVec 64) : Queues c (c.invalidateBlockRange ord tlb start end_) := by
  simp only [invalidateBlockRange]
  split
  · exact .refl c
  · exact (queues_range _ _ _ c).1

/-! ## Clearing -/

/-- Only queued blocks contain a queued address. -/
def PendingClosed (c : MipsCache) : Prop :=
  ∀ a ∈ c.pendingInvalidations, ∀ e ∈ c.cache.values, e.2.covers a = true →
    e.1 ∈ c.pendingInvalidations

lemma mem_values_clearOne {address : BitVec 64} {e : BitVec 64 × MipsCacheBlock}
    (he : e ∈ (c.clearOne ord address).cache.values) : e ∈ c.cache.values := by
  rw [clearOne] at he
  split at he
  · exact he
  · exact (c.cache.mem_erase.mp he).1

lemma mem_values_clearAll (l : List (BitVec 64)) {e : BitVec 64 × MipsCacheBlock}
    (he : e ∈ (l.foldl (clearOne ord) c).cache.values) : e ∈ c.cache.values := by
  induction l generalizing c with
  | nil => exact he
  | cons a l ih => exact mem_values_clearOne (ih he)

lemma full_clearAll (l : List (BitVec 64)) :
    (l.foldl (clearOne ord) c).fullClearQueued = c.fullClearQueued := by
  induction l generalizing c with
  | nil => rfl
  | cons a l ih =>
      rw [List.foldl_cons, ih, clearOne]
      split <;> rfl

/-- Clearing adds no block. -/
lemma mem_values_executeCacheClear {e : BitVec 64 × MipsCacheBlock}
    (he : e ∈ (c.executeCacheClear ord).cache.values) : e ∈ c.cache.values := by
  rw [executeCacheClear] at he
  split at he
  · exact absurd he (by simp)
  · split at he
    · exact mem_values_clearAll _ he
    · exact he

/-- When the only block that contains an address is the one that starts there, a round for
the address leaves no block that contains it. -/
lemma not_covers_clearOne (h : c.WellFormed) {a : BitVec 64}
    (honly : ∀ e ∈ c.cache.values, e.2.covers a = true → e.1 = a)
    {e : BitVec 64 × MipsCacheBlock} (he : e ∈ (c.clearOne ord a).cache.values) :
    e.2.covers a = false := by
  have hold := mem_values_clearOne he
  rcases clearOne_cases ord h a with ⟨-, hno⟩ | ⟨e', hmem', hcovers', -, herase⟩
  · exact hno e hold
  · rw [herase.cache] at he
    have hne := (c.cache.mem_erase.mp he).2
    rw [honly e' hmem' hcovers'] at hne
    by_contra hcovers
    exact hne (honly e hold (by simpa using hcovers))

/-- Going through the queue erases every queued block that is not empty, when only queued
blocks contain a queued address. -/
lemma not_mem_clearAll (ord : IterOrder) (l : List (BitVec 64)) (h : c.WellFormed)
    (hsorted : l.Pairwise (· < ·))
    (hclosed : ∀ a ∈ l, ∀ e ∈ c.cache.values, e.2.covers a = true → e.1 ∈ l)
    {e : BitVec 64 × MipsCacheBlock} (he : e ∈ (l.foldl (clearOne ord) c).cache.values)
    (hl : e.1 ∈ l) : e.2.covers e.1 = false := by
  induction l generalizing c with
  | nil => exact absurd hl (by simp)
  | cons a l ih =>
      obtain ⟨ha, hsorted'⟩ := List.pairwise_cons.mp hsorted
      have hwf := wellFormed_clearOne ord h a
      -- Of the queued blocks only the one that starts at `a` reaches down to `a`.
      have honly : ∀ e ∈ c.cache.values, e.2.covers a = true → e.1 = a := by
        intro e hmem hcovers
        rcases List.mem_cons.mp (hclosed a List.mem_cons_self e hmem hcovers) with heq | hmem'
        · exact heq
        · have hle := (MipsCacheBlock.covers_iff.mp hcovers).1
          rw [← h.key e.1 e.2 hmem] at hle
          exact absurd (ha e.1 hmem') (BitVec.not_lt.mpr hle)
      rcases List.mem_cons.mp hl with heq | hl'
      · rw [heq]
        exact not_covers_clearOne h honly (mem_values_clearAll l he)
      · refine ih hwf hsorted' ?_ he hl'
        intro a' ha' e' he' hcovers'
        have hold := mem_values_clearOne he'
        rcases List.mem_cons.mp (hclosed a' (List.mem_cons_of_mem a ha') e' hold hcovers') with
          heq | hmem'
        · -- The block that starts at `a` would contain `a` itself, but it has gone.
          have hkey := h.key e'.1 e'.2 hold
          have hself := MipsCacheBlock.covers_key hcovers'
          rw [← hkey, heq, not_covers_clearOne h honly he'] at hself
          exact absurd hself (by simp)
        · exact hmem'

/-- After the queue was worked off, no queued block is left. -/
lemma not_mem_executeCacheClear (ord : IterOrder) (h : c.WellFormed)
    (hsorted : c.pendingInvalidations.Pairwise (· < ·))
    (hclosed : c.fullClearQueued = true ∨ c.PendingClosed) {e : BitVec 64 × MipsCacheBlock}
    (he : e ∈ c.cache.values) (hcovers : e.2.covers e.1 = true)
    (hpending : e.1 ∈ c.pendingInvalidations) :
    e.1 ∉ (c.executeCacheClear ord).cache.keys := by
  rw [executeCacheClear]
  split
  · simp
  · next hfull =>
      have hclosed' := hclosed.resolve_left hfull
      rw [if_pos (List.ne_nil_of_mem hpending)]
      intro hmem
      obtain ⟨b, hb⟩ := (DenseMap.mem_keys_iff _).mp hmem
      have hb' : (e.1, b) ∈ c.cache.values := mem_values_clearAll _ hb
      obtain rfl : b = e.2 := c.cache.eq_of_mem hb' he
      have hno := not_mem_clearAll ord c.pendingInvalidations h hsorted hclosed' hb hpending
      exact absurd hcovers (by simp [hno])

end MipsCache

/-! ## Requests -/

open MipsCache

/-- The operation asks for the block to go: the block contains the physical address of the
address, or that of an address of the range. -/
def CacheOp.Requests : CacheOp T → MipsCacheBlock → Prop
  | invalidateBlock _ tlb address, b =>
      (translateAddress tlb address).found = true ∧
        b.covers (translateAddress tlb address).address = true
  | invalidateBlockRange _ tlb start end_, b =>
      (translateAddress tlb start).found = true ∧ ∃ v, start ≤ v ∧ v < end_ ∧
        (translateAddress tlb v).found = true ∧ b.covers (translateAddress tlb v).address = true
  | _, _ => False

/-- The condition on a request.  The physical addresses of a range lie in the range of its
length that starts at the physical address of `start`.  A block that contains the physical
address of `address` is queued already, or starts there, or is the first one met when the
map is searched. -/
def CacheOp.RequestMet : CacheOp T → MipsCache → Prop
  | invalidateBlock ord tlb address, c =>
      let phys := (translateAddress tlb address).address
      ∀ e ∈ c.cache.values, e.2.covers phys = true →
        e.1 ∈ c.pendingInvalidations ∨ e.1 = phys ∨
          (phys ∉ c.cache.keys ∧ phys ∉ c.pendingInvalidations ∧
            (ord.order c.cache.values).find? (fun e => e.2.covers phys) = some e)
  | invalidateBlockRange _ tlb start end_, _ =>
      let phys := fun v => (translateAddress tlb v).address
      ∀ v, start ≤ v → v < end_ → (translateAddress tlb v).found = true →
        phys start ≤ phys v ∧ phys v < phys start + (end_ - start)
  | _, _ => True

/-- A request that meets the condition queues the blocks it asks for. -/
lemma CacheOp.mem_pending_of_requests (op : CacheOp T) {c : MipsCache} (h : c.WellFormed)
    {e : BitVec 64 × MipsCacheBlock} (he : e ∈ c.cache.values) (hreq : op.Requests e.2)
    (hmet : op.RequestMet c) : e.1 ∈ (op.apply c).pendingInvalidations := by
  have hkey : e.1 = e.2.key := h.key e.1 e.2 he
  cases op with
  | invalidateBlock ord tlb address =>
      obtain ⟨hfound, hcovers⟩ := hreq
      have hq := queues_invalidateBlock ord tlb c address
      rcases hmet e he hcovers with hpending | hstart | ⟨hno, hnotpending, hfirst⟩
      · exact hq.pending e.1 hpending
      · obtain ⟨i, hi⟩ := c.cache.find_isSome_of_mem he
        have hsome : c.cache.find (translateAddress tlb address).address ≠ none := by
          rw [← hstart, hi]
          exact Option.some_ne_none i
        simp only [apply, MipsCache.invalidateBlock, hfound, Bool.not_true, Bool.false_eq_true,
          if_false, if_pos hsome]
        rw [← hstart]
        exact mem_queueStart c e.1
      · have hnone : ¬ c.cache.find (translateAddress tlb address).address ≠ none :=
          not_not.mpr (c.cache.find_eq_none_iff.mpr hno)
        simp only [apply, MipsCache.invalidateBlock, hfound, Bool.not_true, Bool.false_eq_true,
          if_false, if_neg hnone, if_neg hnotpending, hfirst]
        rw [hkey]
        exact mem_queueStart c e.2.key
  | invalidateBlockRange ord tlb start end_ =>
      obtain ⟨hfound, v, hlo, hhi, hv, hcovers⟩ := hreq
      obtain ⟨hplo, hphi⟩ := hmet v hlo hhi hv
      have hmeets := MipsCacheBlock.meets_of_covers hcovers hplo hphi
      simp only [apply, MipsCache.invalidateBlockRange, hfound, Bool.not_true,
        Bool.false_eq_true, if_false]
      rw [hkey]
      exact (queues_range _ _ _ c).2 e (ord.mem_iff.mpr he) hmeets
  | insertBlock _ _ => exact hreq.elim
  | getBlock _ _ => exact hreq.elim
  | queueCacheClear => exact hreq.elim
  | executeCacheClear _ => exact hreq.elim
  | reset => exact hreq.elim

/-! ## Runs -/

/-- The operation is not `executeCacheClear` or `reset`. -/
def CacheOp.Defers : CacheOp T → Prop
  | executeCacheClear _ => False
  | reset => False
  | _ => True

/-- The operation does not store a block under the key. -/
def CacheOp.Spares (k : BitVec 64) : CacheOp T → Prop
  | insertBlock tlb block => ∀ b, placeBlock tlb block = some b → b.key ≠ k
  | _ => True

namespace MipsCache

variable {c : MipsCache}

lemma getBlock_cache (tlb : T) (c : MipsCache) (address : BitVec 64) :
    (c.getBlock tlb address).2.cache = c.cache ∧
      (c.getBlock tlb address).2.pendingInvalidations = c.pendingInvalidations := by
  simp only [getBlock, lookupBlock]
  split
  · exact ⟨rfl, rfl⟩
  · split
    · exact ⟨rfl, rfl⟩
    · split <;> exact ⟨rfl, rfl⟩

lemma insertBlock_cache (tlb : T) (c : MipsCache) (block : MipsCacheBlock) :
    ((c.insertBlock tlb block).cache = c.cache ∨ ∃ b, placeBlock tlb block = some b ∧
        (c.insertBlock tlb block).cache = c.cache.insert b.key b) ∧
      (c.insertBlock tlb block).pendingInvalidations = c.pendingInvalidations := by
  rw [insertBlock]
  split
  · exact ⟨.inl rfl, rfl⟩
  · next b hplace => exact ⟨.inr ⟨b, hplace, rfl⟩, rfl⟩

lemma noted_getBlock (tlb : T) (h : c.Noted) (address : BitVec 64) :
    (c.getBlock tlb address).2.Noted := by
  simp only [getBlock, lookupBlock]
  split
  · exact h
  · split
    · exact h
    · split <;> exact h

lemma noted_insertBlock (tlb : T) (h : c.Noted) (block : MipsCacheBlock) :
    (c.insertBlock tlb block).Noted := by
  rw [insertBlock]
  split <;> exact h

omit [MipsTlbBase T] in
/-- When the queue was worked off, nothing is left to be noted. -/
lemma noted_executeCacheClear (ord : IterOrder) (h : c.Noted) :
    (c.executeCacheClear ord).Noted := by
  rw [executeCacheClear]
  split
  · exact fun hwork => hwork.elim (absurd rfl) fun hfull => absurd hfull (by simp)
  · next hfull =>
      split
      · intro hwork
        rcases hwork with hpending | hfull'
        · exact absurd rfl hpending
        · exact absurd (full_clearAll _ ▸ hfull') hfull
      · exact h

/-- The queue is ascending. -/
def Sorted (c : MipsCache) : Prop := c.pendingInvalidations.Pairwise (· < ·)

end MipsCache

lemma CacheOp.sorted_apply (op : CacheOp T) {c : MipsCache} (h : c.Sorted) :
    (op.apply c).Sorted := by
  cases op with
  | insertBlock tlb block =>
      rw [MipsCache.Sorted, apply, (insertBlock_cache tlb c block).2]
      exact h
  | getBlock tlb address =>
      rw [MipsCache.Sorted, apply, (getBlock_cache tlb c address).2]
      exact h
  | invalidateBlock ord tlb address => exact (queues_invalidateBlock ord tlb c address).sorted h
  | invalidateBlockRange ord tlb start end_ =>
      exact (queues_invalidateBlockRange ord tlb c start end_).sorted h
  | queueCacheClear => exact h
  | executeCacheClear ord =>
      rw [MipsCache.Sorted, apply, MipsCache.executeCacheClear]
      split
      · exact .nil
      · split
        · exact .nil
        · exact h
  | reset => exact .nil

lemma MipsCache.sorted_runOps (ops : List (CacheOp T)) {c : MipsCache} (h : c.Sorted) :
    (runOps ops c).Sorted := by
  induction ops generalizing c with
  | nil => exact h
  | cons op ops ih => exact ih (op.sorted_apply h)

/-- A block that is queued stays so until the queue is worked off. -/
lemma CacheOp.queued_apply (op : CacheOp T) (hop : op.Defers) {c : MipsCache}
    {e : BitVec 64 × MipsCacheBlock} (he : e ∈ c.cache.values)
    (hpending : e.1 ∈ c.pendingInvalidations) :
    e ∈ (op.apply c).cache.values ∧ e.1 ∈ (op.apply c).pendingInvalidations := by
  cases op with
  | insertBlock tlb block =>
      obtain ⟨hcache, hpend⟩ := insertBlock_cache tlb c block
      rw [apply, hpend]
      refine ⟨?_, hpending⟩
      rcases hcache with hcache | ⟨b, -, hcache⟩
      · rwa [hcache]
      · rw [hcache]
        exact c.cache.mem_insert_of_mem he
  | getBlock tlb address =>
      obtain ⟨hcache, hpend⟩ := getBlock_cache tlb c address
      rw [apply, hcache, hpend]
      exact ⟨he, hpending⟩
  | invalidateBlock ord tlb address =>
      have hq := queues_invalidateBlock ord tlb c address
      exact ⟨hq.same.cache ▸ he, hq.pending e.1 hpending⟩
  | invalidateBlockRange ord tlb start end_ =>
      have hq := queues_invalidateBlockRange ord tlb c start end_
      exact ⟨hq.same.cache ▸ he, hq.pending e.1 hpending⟩
  | queueCacheClear => exact ⟨he, hpending⟩
  | executeCacheClear ord => exact hop.elim
  | reset => exact hop.elim

lemma MipsCache.queued_runOps (ops : List (CacheOp T)) (hops : ∀ op ∈ ops, op.Defers)
    {c : MipsCache} {e : BitVec 64 × MipsCacheBlock} (he : e ∈ c.cache.values)
    (hpending : e.1 ∈ c.pendingInvalidations) :
    e ∈ (runOps ops c).cache.values ∧ e.1 ∈ (runOps ops c).pendingInvalidations := by
  induction ops generalizing c with
  | nil => exact ⟨he, hpending⟩
  | cons op ops ih =>
      obtain ⟨he', hpending'⟩ := op.queued_apply (hops op List.mem_cons_self) he hpending
      exact ih (fun op' hop' => hops op' (List.mem_cons_of_mem op hop')) he' hpending'

/-- A key that is gone stays so until a block is stored under it. -/
lemma CacheOp.notMem_keys_apply (op : CacheOp T) {k : BitVec 64} (hop : op.Spares k)
    {c : MipsCache} (h : k ∉ c.cache.keys) : k ∉ (op.apply c).cache.keys := by
  cases op with
  | insertBlock tlb block =>
      rw [apply]
      rcases (insertBlock_cache tlb c block).1 with hcache | ⟨b, hplace, hcache⟩
      · rwa [hcache]
      · rw [hcache]
        intro hmem
        rcases c.cache.mem_keys_insert hmem with hold | hnew
        · exact h hold
        · exact hop b hplace hnew.symm
  | getBlock tlb address => rwa [apply, (getBlock_cache tlb c address).1]
  | invalidateBlock ord tlb address =>
      rwa [apply, (sameMap_invalidateBlock ord tlb c address).cache]
  | invalidateBlockRange ord tlb start end_ =>
      rwa [apply, (sameMap_invalidateBlockRange ord tlb c start end_).cache]
  | queueCacheClear => exact h
  | executeCacheClear ord =>
      intro hmem
      obtain ⟨b, hb⟩ := (DenseMap.mem_keys_iff _).mp hmem
      exact h (c.cache.mem_keys_of_mem (mem_values_executeCacheClear hb))
  | reset => simp [apply, MipsCache.reset]

lemma MipsCache.notMem_keys_runOps (ops : List (CacheOp T)) {k : BitVec 64}
    (hops : ∀ op ∈ ops, op.Spares k) {c : MipsCache} (h : k ∉ c.cache.keys) :
    k ∉ (runOps ops c).cache.keys := by
  induction ops generalizing c with
  | nil => exact h
  | cons op ops ih =>
      exact ih (fun op' hop' => hops op' (List.mem_cons_of_mem op hop'))
        (op.notMem_keys_apply (hops op List.mem_cons_self) h)

/-- No block with the key is in the map, and `getBlock` returns none: neither for an address
with that key, nor for any other through an old pointer. -/
structure MipsCache.Gone (T : Type) [MipsTlbBase T] (k : BitVec 64) (c : MipsCache) : Prop where
  notMem : k ∉ c.cache.keys
  getBlock : ∀ (tlb : T) address, physicalKey tlb address = some k →
    (c.getBlock tlb address).1 = none
  deref : ∀ (tlb : T) address p b, (c.getBlock tlb address).1 = some p →
    (c.getBlock tlb address).2.deref p = some b → b.key ≠ k

lemma MipsCache.gone_of_notMem {c : MipsCache} {k : BitVec 64} (hwf : c.WellFormed)
    (h : k ∉ c.cache.keys) : c.Gone T k := by
  refine ⟨h, ?_, ?_⟩
  · intro tlb address hphys
    rw [getBlock, hphys]
    simp only [lookupBlock, c.cache.find_eq_none_iff.mpr h]
    split
    · next hhit =>
        obtain ⟨p, hp⟩ := Option.ne_none_iff_exists'.mp hhit.2
        exact absurd (hwf.mem _ _ _ (LookupCacheEntry.eq_mk hhit.1 hp)) h
    · rfl
  · intro tlb address p b _ hderef hkey
    obtain ⟨⟨k', b'⟩, hget, rfl⟩ := Option.map_eq_some_iff.mp hderef
    rw [(getBlock_cache tlb c address).1] at hget
    have hmem : (k', b') ∈ c.cache.values := List.mem_of_getElem? hget
    have hk' : k' = k := (hwf.key k' b' hmem).trans hkey
    exact h (hk' ▸ c.cache.mem_keys_of_mem hmem)

/-- In any run: a request that meets its condition, any operations but `executeCacheClear`
and `reset`, and then an `executeCacheClear` that clears everything or finds no address
queued that an unqueued block contains.  Every block the request asked for is gone, and
stays so until a block is stored under its key. -/
theorem requested_gone_of_closed (before between after : List (CacheOp T)) (op : CacheOp T)
    (ord : IterOrder) (hmet : op.RequestMet (runOps before {}))
    (hbetween : ∀ op' ∈ between, op'.Defers)
    (hclosed : (runOps between (op.apply (runOps before {}))).fullClearQueued = true ∨
      (runOps between (op.apply (runOps before {}))).PendingClosed) :
    ∀ e ∈ (runOps before ({} : MipsCache)).cache.values, op.Requests e.2 →
      (∀ op' ∈ after, op'.Spares e.1) →
      (runOps (.executeCacheClear ord :: after)
        (runOps between (op.apply (runOps before {})))).Gone T e.1 := by
  intro e he hreq hafter
  have hwf₀ := wellFormed_runOps before wellFormed_empty
  have hwf₁ := op.wellFormed_apply hwf₀
  have hwf₂ := wellFormed_runOps between hwf₁
  have hsorted : (runOps between (op.apply (runOps before {}))).Sorted :=
    sorted_runOps between (op.sorted_apply (sorted_runOps before .nil))
  have hcovers : e.2.covers e.1 = true := by
    rw [hwf₀.key e.1 e.2 he]
    cases op with
    | invalidateBlock _ _ _ => exact MipsCacheBlock.covers_key hreq.2
    | invalidateBlockRange _ _ _ _ =>
        obtain ⟨-, v, -, -, -, hv⟩ := hreq
        exact MipsCacheBlock.covers_key hv
    | insertBlock _ _ => exact hreq.elim
    | getBlock _ _ => exact hreq.elim
    | queueCacheClear => exact hreq.elim
    | executeCacheClear _ => exact hreq.elim
    | reset => exact hreq.elim
  have hqueued := op.mem_pending_of_requests hwf₀ he hreq hmet
  have hkept : e ∈ (op.apply (runOps before {})).cache.values := by
    cases op with
    | invalidateBlock ord tlb a =>
        rwa [CacheOp.apply, (sameMap_invalidateBlock ord tlb _ a).cache]
    | invalidateBlockRange ord tlb s t =>
        rwa [CacheOp.apply, (sameMap_invalidateBlockRange ord tlb _ s t).cache]
    | insertBlock _ _ => exact hreq.elim
    | getBlock _ _ => exact hreq.elim
    | queueCacheClear => exact hreq.elim
    | executeCacheClear _ => exact hreq.elim
    | reset => exact hreq.elim
  obtain ⟨he₂, hqueued₂⟩ := queued_runOps between hbetween hkept hqueued
  have hgone := not_mem_executeCacheClear ord hwf₂ hsorted hclosed he₂ hcovers hqueued₂
  have hwf₃ := wellFormed_executeCacheClear hwf₂ ord
  exact gone_of_notMem (wellFormed_runOps after hwf₃)
    (notMem_keys_runOps after hafter hgone)

/-! ## A block that survives -/

/-- A block over some addresses of kseg0, with one instruction. -/
def blockOver (start end_ : BitVec 32) : MipsCacheBlock := ⟨start, end_, [⟨start, 0, .kNop⟩]⟩

/-- A block reaches into the block at 0x100. -/
def overlapOps : List (CacheOp MipsTlbNormal) :=
  [.insertBlock {} (blockOver 0x800000F0 0x80000110),
    .insertBlock {} (blockOver 0x80000100 0x80000140)]

/-- The request is for addresses of the second block only, but the round for its start
erases the first one. -/
theorem overlapOps_survivor :
    ∃ e ∈ (runOps overlapOps {}).cache.values,
      (CacheOp.invalidateBlockRange .vector ({} : MipsTlbNormal) 0x80000120
        0x80000140).Requests e.2 ∧
      ¬ (runOps (overlapOps ++ [.invalidateBlockRange .vector {} 0x80000120 0x80000140,
        .executeCacheClear .vector]) {}).Gone MipsTlbNormal e.1 := by
  refine ⟨(0x100, ⟨0x100, 0x140, [⟨0x80000100, 0, .kNop⟩]⟩), by decide,
    ⟨by decide, 0x80000120, by decide⟩, ?_⟩
  intro h
  exact absurd h.notMem (by decide)

/-- The second of the blocks is queued first, by a request for its start. -/
def queuedOps : List (CacheOp MipsTlbNormal) :=
  overlapOps ++ [.invalidateBlock .vector {} 0x80000100]

/-- A request for an address that is in both blocks. -/
def sharedRequest : CacheOp MipsTlbNormal := .invalidateBlock .vector {} 0x80000104

/-- With both blocks queued, both are gone. -/
theorem queuedOps_gone :
    (runOps [CacheOp.executeCacheClear (T := MipsTlbNormal) .vector]
        (sharedRequest.apply (runOps queuedOps {}))).Gone MipsTlbNormal 0xF0 ∧
      (runOps [CacheOp.executeCacheClear (T := MipsTlbNormal) .vector]
        (sharedRequest.apply (runOps queuedOps {}))).Gone MipsTlbNormal 0x100 := by
  have hmet : sharedRequest.RequestMet (runOps queuedOps {}) := by
    intro e he hcovers
    rcases List.mem_pair.mp he with rfl | rfl
    · exact .inr (.inr ⟨by decide, by decide, by decide⟩)
    · exact .inl (by decide)
  have hclosed : (sharedRequest.apply (runOps queuedOps {})).PendingClosed := by
    intro a _ e he _
    rcases List.mem_pair.mp he with rfl | rfl <;> decide
  have hgone := requested_gone_of_closed queuedOps [] [] sharedRequest .vector hmet (by simp)
    (.inr hclosed)
  exact ⟨hgone (0xF0, ⟨0xF0, 0x110, [⟨0x800000F0, 0, .kNop⟩]⟩) (by decide)
      ⟨by decide, by decide⟩ (by simp),
    hgone (0x100, ⟨0x100, 0x140, [⟨0x80000100, 0, .kNop⟩]⟩) (by decide)
      ⟨by decide, by decide⟩ (by simp)⟩

end NgMips
