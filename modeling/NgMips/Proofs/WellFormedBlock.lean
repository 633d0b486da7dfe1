import NgMips.Proofs.BlockRange
import NgMips.Proofs.Step

/-!
# Blocks as they are built

`onNewBlock` fetches one word after the other until a branch, the delay slot of that branch, or
the length limit.  Where the words it may read are translated, the block is the list of the words
read: how many there are depends on the words alone (`blockLength`), and entry `i` is what was
fetched after `i` other words (`entryAt`).
-/

namespace NgMips

/-! ## How many words a block has -/

/-- The length of a block whose words are `words`, with at most `n` words before a delay slot. -/
def blockLength : ℕ → (ℕ → BitVec 32) → ℕ
  | 0, _ => 0
  | n + 1, words =>
      if isInstBranch (words 0) then
        if doesInstHaveDelaySlot (words 0) then 2 else 1
      else blockLength n (fun i => words (i + 1)) + 1

/-- The block ends with the first branch, followed by its delay slot if it has one, or at the
limit. -/
structure EndsAt (n : ℕ) (words : ℕ → BitVec 32) (length k : ℕ) : Prop where
  before : ∀ i < k, isInstBranch (words i) = false
  ends : k = n ∧ length = n ∨ k < n ∧ isInstBranch (words k) = true ∧
    length = if doesInstHaveDelaySlot (words k) then k + 2 else k + 1

lemma blockLength_ends (n : ℕ) (words : ℕ → BitVec 32) :
    ∃ k ≤ n, EndsAt n words (blockLength n words) k := by
  induction n generalizing words with
  | zero => exact ⟨0, le_rfl, fun i hi => absurd hi (by simp), Or.inl ⟨rfl, rfl⟩⟩
  | succ n ih =>
      cases hbranch : isInstBranch (words 0) with
      | true =>
          refine ⟨0, by omega, fun i hi => absurd hi (by simp), Or.inr ⟨by omega, hbranch, ?_⟩⟩
          rw [blockLength, if_pos hbranch]
      | false =>
          obtain ⟨k, hk, hbefore, hends⟩ := ih fun i => words (i + 1)
          have hlength : blockLength (n + 1) words =
              blockLength n (fun i => words (i + 1)) + 1 := by
            rw [blockLength, hbranch, if_neg (by simp)]
          refine ⟨k + 1, by omega, ?_, ?_⟩
          · intro i hi
            cases i with
            | zero => exact hbranch
            | succ i => exact hbefore i (by omega)
          · rw [hlength]
            rcases hends with ⟨hkn, hall⟩ | ⟨hkn, hyes, hall⟩
            · exact Or.inl ⟨by omega, by omega⟩
            · refine Or.inr ⟨by omega, hyes, ?_⟩
              rw [hall]
              split <;> rfl

/-- The bounds that follow. -/
lemma EndsAt.bounds {n : ℕ} {words : ℕ → BitVec 32} {length k : ℕ}
    (h : EndsAt n words length k) (hn : 0 < n) : 1 ≤ length ∧ length ≤ n + 1 := by
  rcases h.ends with ⟨-, hlength⟩ | ⟨hk, -, hlength⟩
  · omega
  · split at hlength <;> omega

namespace MipsBase

variable {T δ : Type} [MipsTlbBase T] (m : MipsSetup δ)

/-! ## The words that are read -/

/-- The devices after the first `i` words from an address were fetched. -/
def fetchDevice (tlb : T) (address : BitVec 64) (d : δ) : ℕ → δ
  | 0 => d
  | i + 1 => (m.bus.fetch (fetchDevice tlb address d i)
      (translateAddress tlb (address + BitVec.ofNat 64 (4 * i))).address).2

/-- Word `i` from an address, read after those before it. -/
def wordFetched (tlb : T) (address : BitVec 64) (d : δ) (i : ℕ) : BitVec 32 :=
  m.bus.word (fetchDevice m tlb address d i)
    (translateAddress tlb (address + BitVec.ofNat 64 (4 * i))).address

/-- The entry for word `i` from an address. -/
def entryAt (tlb : T) (address : BitVec 64) (d : δ) (i : ℕ) : MipsCacheEntry where
  address := (address + BitVec.ofNat 64 (4 * i)).setWidth 32
  opcode := wordFetched m tlb address d i
  func := getInstFuncPtr m.kIs64Bit (wordFetched m tlb address d i)

variable {m}

lemma nextWordAddress (address : BitVec 64) (i : ℕ) :
    address + 4 + BitVec.ofNat 64 (4 * i) = address + BitVec.ofNat 64 (4 * (i + 1)) := by
  rw [BitVec.add_assoc]
  congr 1
  apply BitVec.eq_of_toNat_eq
  simp
  omega

/-- The words from the second one on. -/
lemma fetchDevice_succ (tlb : T) (address : BitVec 64) (d : δ) (i : ℕ) :
    fetchDevice m tlb (address + 4) (fetchDevice m tlb address d 1) i =
      fetchDevice m tlb address d (i + 1) := by
  induction i with
  | zero => rfl
  | succ i ih =>
      rw [fetchDevice, ih, nextWordAddress]
      rfl

lemma wordFetched_succ (tlb : T) (address : BitVec 64) (d : δ) (i : ℕ) :
    wordFetched m tlb (address + 4) (fetchDevice m tlb address d 1) i =
      wordFetched m tlb address d (i + 1) := by
  rw [wordFetched, fetchDevice_succ, nextWordAddress, wordFetched]

lemma entryAt_succ (tlb : T) (address : BitVec 64) (d : δ) (i : ℕ) :
    entryAt m tlb (address + 4) (fetchDevice m tlb address d 1) i =
      entryAt m tlb address d (i + 1) := by
  rw [entryAt, wordFetched_succ, nextWordAddress, entryAt]

/-- A word that is translated is predecoded. -/
lemma fetchEntry_found (address : BitVec 64) {s : MipsBase T δ}
    (h : (translateAddress s.tlb address).found = true) :
    fetchEntry m address s = .ok (entryAt m s.tlb address s.device 0,
      { s with device := fetchDevice m s.tlb address s.device 1 }) := by
  have haddress : address + BitVec.ofNat 64 (4 * 0) = address := by simp
  rw [fetchEntry, Prog.bind_of_ok (fetch_found h), entryAt, wordFetched, fetchDevice, fetchDevice,
    haddress]
  rfl

/-- The entries of a block, from its second word on. -/
lemma map_range_succ (tlb : T) (address : BitVec 64) (d : δ) (n : ℕ) :
    (List.range (n + 1)).map (entryAt m tlb address d) = entryAt m tlb address d 0 ::
      (List.range n).map (entryAt m tlb (address + 4) (fetchDevice m tlb address d 1)) := by
  rw [List.range_succ_eq_map, List.map_cons, List.map_map]
  congr 1
  exact List.map_congr_left fun i _ => (entryAt_succ tlb address d i).symm

/-- Where all words that may be read are translated, the entries are those of the words read. -/
lemma collectEntries_found (n : ℕ) (address : BitVec 64) (s : MipsBase T δ)
    (h : ∀ i ≤ n, (translateAddress s.tlb (address + BitVec.ofNat 64 (4 * i))).found = true)
    {length : ℕ} (hlength : blockLength n (wordFetched m s.tlb address s.device) = length) :
    collectEntries m n address s = .ok ((List.range length).map (entryAt m s.tlb address s.device),
      { s with device := fetchDevice m s.tlb address s.device length }) := by
  induction n generalizing address s length with
  | zero =>
      subst hlength
      rfl
  | succ n ih =>
      have haddress : address + BitVec.ofNat 64 (4 * 0) = address := by simp
      have hfirst := fetchEntry_found (m := m) address (haddress ▸ h 0 (by omega))
      have hnext : ∀ i ≤ n, (translateAddress s.tlb
          (address + 4 + BitVec.ofNat 64 (4 * i))).found = true := by
        intro i hi
        rw [nextWordAddress]
        exact h (i + 1) (by omega)
      have hopcode : (entryAt m s.tlb address s.device 0).opcode =
          wordFetched m s.tlb address s.device 0 := rfl
      rw [collectEntries, Prog.bind_of_ok hfirst, hopcode]
      rw [blockLength] at hlength
      cases hbranch : isInstBranch (wordFetched m s.tlb address s.device 0) with
      | true =>
          rw [hbranch, if_pos rfl] at hlength
          rw [if_pos rfl]
          cases hslot : doesInstHaveDelaySlot (wordFetched m s.tlb address s.device 0) with
          | true =>
              rw [hslot, if_pos rfl] at hlength
              have hsecond := fetchEntry_found (m := m) (address + 4)
                (s := { s with device := fetchDevice m s.tlb address s.device 1 })
                (by simpa using hnext 0 (by omega))
              rw [if_pos rfl, Prog.bind_of_ok hsecond, ← hlength, map_range_succ, map_range_succ]
              rw [fetchDevice_succ]
              rfl
          | false =>
              rw [hslot, if_neg (by simp)] at hlength
              rw [if_neg (by simp), ← hlength]
              rfl
      | false =>
          rw [hbranch, if_neg (by simp)] at hlength
          have hrest := ih (address + 4) { s with device := fetchDevice m s.tlb address s.device 1 }
            hnext rfl
          have hwords : wordFetched m s.tlb (address + 4) (fetchDevice m s.tlb address s.device 1) =
              fun i => wordFetched m s.tlb address s.device (i + 1) :=
            funext fun i => wordFetched_succ s.tlb address s.device i
          rw [hwords, fetchDevice_succ] at hrest
          rw [if_neg (by simp), Prog.bind_of_ok hrest, ← hlength, map_range_succ]
          rfl

/-! ## The block -/

variable (m)

/-- What is asked of the block built at a program counter, from the words read there. -/
structure WellFormedBlock (s : MipsBase T δ) (pc : BitVec 64) (block : MipsCacheBlock) : Prop where
  length_pos : 1 ≤ block.length
  length_le : block.length ≤ kCacheBlockMaxLength
  /-- Entry `i` holds the address of word `i`, the word fetched there and its handler. -/
  entry : ∀ i entry, block.entries[i]? = some entry → i < kCacheBlockMaxLength ∧
    entry.address = pc.setWidth 32 + BitVec.ofNat 32 (4 * i) ∧
    entry.opcode = wordFetched m s.tlb (pc &&& 0xFFFFFFFF) s.device i ∧
    entry.func = getInstFuncPtr m.kIs64Bit entry.opcode
  /-- The first branch is the last entry but for its delay slot, wherever it stands; without a
  branch the block has all words but one that it can hold. -/
  terminator : ∃ k ≤ kCacheBlockMaxLength - 1,
    EndsAt (kCacheBlockMaxLength - 1) (wordFetched m s.tlb (pc &&& 0xFFFFFFFF) s.device)
      block.length k
  range : block.end_ - block.start = BitVec.ofNat 32 (4 * block.length)

variable {m}

/-- The block of some entries from an address. -/
def blockFrom (address : BitVec 64) (entries : List MipsCacheEntry) : MipsCacheBlock where
  start := address.setWidth 32
  end_ := (address + BitVec.ofNat 64 (entries.length * 4)).setWidth 32
  entries := entries

/-- The block made of the words read is well formed. -/
lemma wellFormedBlock_blockFrom (s : MipsBase T δ) (pc : BitVec 64) {entries : List MipsCacheEntry}
    (hentries : entries = (List.range (blockLength (kCacheBlockMaxLength - 1)
      (wordFetched m s.tlb (pc &&& 0xFFFFFFFF) s.device))).map
        (entryAt m s.tlb (pc &&& 0xFFFFFFFF) s.device)) :
    WellFormedBlock m s pc (blockFrom (pc &&& 0xFFFFFFFF) entries) := by
  obtain ⟨k, hk, hends⟩ := blockLength_ends (kCacheBlockMaxLength - 1)
    (wordFetched m s.tlb (pc &&& 0xFFFFFFFF) s.device)
  have hlength : (blockFrom (pc &&& 0xFFFFFFFF) entries).length =
      blockLength (kCacheBlockMaxLength - 1)
        (wordFetched m s.tlb (pc &&& 0xFFFFFFFF) s.device) := by
    rw [MipsCacheBlock.length, blockFrom, hentries, List.length_map, List.length_range]
  rw [← hlength] at hends
  obtain ⟨hpos, hle⟩ := hends.bounds (by decide)
  have hlow : (pc &&& 0xFFFFFFFF).setWidth 32 = pc.setWidth 32 := by
    apply BitVec.eq_of_toNat_eq
    rw [BitVec.toNat_setWidth, BitVec.toNat_setWidth, mask_toNat, Nat.mod_mod]
  have hat : ∀ i, ((pc &&& 0xFFFFFFFF) + BitVec.ofNat 64 (4 * i)).setWidth 32 =
      pc.setWidth 32 + BitVec.ofNat 32 (4 * i) := by
    intro i
    rw [BitVec.setWidth_add _ _ (by decide), hlow]
    congr 1
    exact BitVec.eq_of_toNat_eq (by simp)
  refine ⟨hpos, hle, ?_, ⟨k, hk, hends⟩, ?_⟩
  · intro i entry hget
    have hi : i < (blockFrom (pc &&& 0xFFFFFFFF) entries).length :=
      (List.getElem?_eq_some_iff.mp hget).1
    rw [blockFrom, hentries, List.getElem?_map, List.getElem?_range (by omega)] at hget
    obtain rfl := Option.some.inj hget
    exact ⟨lt_of_lt_of_le hi hle, hat i, rfl, rfl⟩
  · rw [blockFrom, mul_comm, hat, hlow, BitVec.add_comm, BitVec.add_sub_cancel,
      MipsCacheBlock.length]

/-- Where the words from a program counter on are translated, `onNewBlock` succeeds, and hands a
well-formed block to the cache. -/
theorem onNewBlock_wellFormed (pc : BitVec 64) (s : MipsBase T δ)
    (h : ∀ i < kCacheBlockMaxLength,
      (translateAddress s.tlb ((pc &&& 0xFFFFFFFF) + BitVec.ofNat 64 (4 * i))).found = true) :
    ∃ block, WellFormedBlock m s pc block ∧ onNewBlock m pc s = .ok ((), { s with
      device := fetchDevice m s.tlb (pc &&& 0xFFFFFFFF) s.device block.length
      cache := s.cache.insertBlock s.tlb block }) := by
  have hcollect := collectEntries_found (m := m) (kCacheBlockMaxLength - 1) (pc &&& 0xFFFFFFFF) s
    (fun i hi => h i (lt_of_le_of_lt hi (by decide))) rfl
  refine ⟨_, wellFormedBlock_blockFrom s pc rfl, ?_⟩
  rw [onNewBlock, Prog.bind_run, buildBlock, Prog.bind_of_ok hcollect, MipsCacheBlock.length,
    blockFrom, List.length_map, List.length_range]
  rfl

/-- A return in the last position but one. -/
def lateReturn : MipsBase MipsTlbNormal WordMemory :=
  programState 0x80001000 0x1000 (List.replicate 62 0 ++ [0x03E00008])

/-- The block of that program is full: the delay slot is its last entry. -/
theorem lateReturn_wellFormed :
    ∃ block, WellFormedBlock cachedSetup lateReturn 0x80001000 block ∧
      onNewBlock cachedSetup 0x80001000 lateReturn = .ok ((), { lateReturn with
        device := fetchDevice cachedSetup lateReturn.tlb (0x80001000 &&& 0xFFFFFFFF)
          lateReturn.device block.length
        cache := lateReturn.cache.insertBlock lateReturn.tlb block }) :=
  onNewBlock_wellFormed 0x80001000 lateReturn (by decide +kernel)

example : blockLength (kCacheBlockMaxLength - 1)
    (wordFetched cachedSetup lateReturn.tlb 0x80001000 lateReturn.device) = 64 := by decide +kernel

end MipsBase

end NgMips
