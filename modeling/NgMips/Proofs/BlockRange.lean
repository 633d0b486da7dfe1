import NgMips.Proofs.BlockFound

/-!
# The physical range of a block

A block keeps the physical address of its first word and its length; each of its words was
translated on its own.  Inside a page of 4 KiB, the smallest there is, translation keeps
distances.  The range is therefore exact when, wherever the words cross into another page,
that page is mapped to the frame that follows.
-/

namespace NgMips

open MipsCache

/-! ## Translation inside a page -/

namespace MipsTlbEntry

variable {entry : MipsTlbEntry}

/-- The page mask counts pages of 8 KiB. -/
lemma WellFormed.pageMask_toNat (h : entry.WellFormed) :
    entry.pageMask.toNat % 2 ^ 13 = 0 ∧ entry.pageMask.toNat < 2 ^ 25 := by
  have hbits : IsRange pageMaskBits 13 25 := by decide
  have hnat := congrArg BitVec.toNat h.pageMask
  rw [hbits.toNat_and] at hnat
  omega

lemma WellFormed.oddMask_toNat (h : entry.WellFormed) :
    entry.oddMask.toNat = entry.pageMask.toNat / 2 + 2 ^ 12 := by
  obtain ⟨hmod, hlt⟩ := h.pageMask_toNat
  have hor : (entry.pageMask ||| 0x1FFF).toNat = entry.pageMask.toNat / 2 ^ 13 * 2 ^ 13 + 0x1FFF :=
    toNat_or_of_parts (by omega) (by decide)
  have hone : ((entry.pageMask ||| 0x1FFF) + 1).toNat = entry.pageMask.toNat + 2 ^ 13 := by
    rw [BitVec.toNat_add, hor]
    show (_ + 1) % 2 ^ 64 = _
    omega
  rw [oddMask, BitVec.toNat_setWidth, BitVec.toNat_ushiftRight, hone, Nat.shiftRight_eq_div_pow]
  omega

/-- The bits compared, and the bit that selects the half, lie above the offset in a page; the
offset mask contains that offset. -/
lemma WellFormed.page_masks (h : entry.WellFormed) :
    entry.mask.toNat % 2 ^ 12 = 0 ∧ (entry.oddMask.setWidth 64).toNat % 2 ^ 12 = 0 ∧
      ((entry.oddMask - 1).setWidth 64).toNat % 2 ^ 12 = 2 ^ 12 - 1 ∧
      (~~~(entry.oddMask - 1)).toNat % 2 ^ 12 = 0 := by
  obtain ⟨hmod, hlt⟩ := h.pageMask_toNat
  have hodd := h.oddMask_toNat
  have hoffset : (entry.oddMask - 1).toNat = entry.pageMask.toNat / 2 + (2 ^ 12 - 1) := by
    rw [BitVec.toNat_sub, hodd]
    show (2 ^ 32 - 1 + _) % 2 ^ 32 = _
    omega
  refine ⟨?_, ?_, ?_, ?_⟩
  · rw [mask, BitVec.toNat_and, Nat.and_mod_two_pow]
    show _ &&& 0 = 0
    exact Nat.and_zero _
  · rw [BitVec.toNat_setWidth_of_le (by decide), hodd]
    omega
  · rw [BitVec.toNat_setWidth_of_le (by decide), hoffset]
    omega
  · rw [BitVec.toNat_not, hoffset]
    omega

/-- Both translations succeed, as far apart as the addresses. -/
def Follows (x y : BitVec 64) (r r' : MipsTlbTranslationResult) : Prop :=
  r.found = true ∧ r'.found = true ∧ r.address.toNat + y.toNat = r'.address.toNat + x.toNat

/-- Inside a page an entry translates every word or none, and keeps distances. -/
lemma WellFormed.translate_page (h : entry.WellFormed) (entryHi : BitVec 64) {x y : BitVec 64}
    (hpage : x.toNat / 2 ^ 12 = y.toNat / 2 ^ 12) :
    Option.Rel (Follows x y) (entry.translate entryHi x) (entry.translate entryHi y) := by
  obtain ⟨hmask, hodd, hoffset, hframe⟩ := h.page_masks
  have hmatch : entry.matchesAddress entryHi x = entry.matchesAddress entryHi y := by
    rw [matchesAddress, matchesAddress, vpnMatch, vpnMatch, and_eq_of_page hmask hpage]
  have hselect : entry.selectLo x = entry.selectLo y := by
    rw [selectLo, selectLo, and_eq_of_page hodd hpage]
  simp only [translate, hmatch, hselect]
  cases hm : entry.matchesAddress entryHi y with
  | false => exact .none
  | true =>
      cases hv : (entry.selectLo y &&& 2 != 0) with
      | false => exact .none
      | true =>
          refine .some ⟨rfl, rfl, toNat_page ?_ hoffset hpage⟩
          rw [BitVec.toNat_setWidth_of_le (by decide), BitVec.toNat_and, Nat.and_mod_two_pow,
            hframe, Nat.and_zero]

end MipsTlbEntry

namespace MipsTlbNormal

variable {tlb : MipsTlbNormal}

lemma rel_findSome {α β : Type} {r : β → β → Prop} {f g : α → Option β} (l : List α)
    (h : ∀ i, Option.Rel r (f i) (g i)) : Option.Rel r (l.findSome? f) (l.findSome? g) := by
  induction l with
  | nil => exact .none
  | cons i l ih =>
      rw [List.findSome?_cons, List.findSome?_cons]
      have hi := h i
      revert hi
      cases f i <;> cases g i <;> intro hi
      · exact ih
      · cases hi
      · cases hi
      · exact hi

/-- Inside a page of an unmapped segment the next word follows. -/
lemma busAddress_next_inKseg {address phys : BitVec 64} (hseg : inKseg address = true)
    (hphys : busAddress tlb address = some phys)
    (hdist : (address + 4).toNat % 2 ^ 32 = address.toNat % 2 ^ 32 + 4)
    (hpage : address.toNat / 2 ^ 12 = (address + 4).toNat / 2 ^ 12) :
    ∃ phys', busAddress tlb (address + 4) = some phys' ∧ phys'.toNat = phys.toNat + 4 := by
  obtain ⟨-, haddress⟩ := busAddress_eq_some.mp hphys
  have hseg' : inKseg (address + 4) = true := by
    rw [inKseg_iff] at hseg ⊢
    omega
  have htrans := tlb.translateAddress_of_inKseg hseg
  have htrans' := tlb.translateAddress_of_inKseg hseg'
  rw [translateAddress_eq, htrans] at haddress
  refine ⟨ksegPhysical (address + 4), ?_, ?_⟩
  · rw [busAddress_eq_some, translateAddress_eq, htrans']
    exact ⟨rfl, rfl⟩
  · rw [← haddress, ksegPhysical_toNat, ksegPhysical_toNat]
    omega

/-- Inside a page that is mapped, the same half of the same entry translates the next word. -/
lemma busAddress_next_mapped (h : tlb.WellFormed) {address phys : BitVec 64}
    (hseg : ¬ inKseg address = true) (hphys : busAddress tlb address = some phys)
    (hdist : (address + 4).toNat % 2 ^ 32 = address.toNat % 2 ^ 32 + 4)
    (hpage : address.toNat / 2 ^ 12 = (address + 4).toNat / 2 ^ 12) :
    ∃ phys', busAddress tlb (address + 4) = some phys' ∧ phys'.toNat = phys.toNat + 4 := by
  obtain ⟨hfound, haddress⟩ := busAddress_eq_some.mp hphys
  have hseg' : ¬ inKseg (address + 4) = true := by
    rw [inKseg_iff] at hseg ⊢
    omega
  have hlow : (address &&& 0xFFFFFFFF).toNat / 2 ^ 12 =
      ((address + 4) &&& 0xFFFFFFFF).toNat / 2 ^ 12 := by
    rw [mask_toNat, mask_toNat]
    omega
  have hscan := rel_findSome (List.finRange 32)
    (fun i => (h.entry i).translate_page tlb.entryHi hlow)
  rw [translateAddress_eq,
    tlb.translateAddress_of_mapped (by simpa using hseg)] at hfound haddress
  have htrans' := tlb.translateAddress_of_mapped (Bool.not_eq_true _ ▸ hseg')
  cases hx : (List.finRange 32).findSome? fun i =>
      (tlb.entry i).translate tlb.entryHi (address &&& 0xFFFFFFFF) with
  | none =>
      rw [hx] at hfound
      exact absurd hfound (by simp)
  | some r =>
      rw [hx] at haddress hscan
      cases hy : (List.finRange 32).findSome? fun i =>
          (tlb.entry i).translate tlb.entryHi ((address + 4) &&& 0xFFFFFFFF) with
      | none =>
          rw [hy] at hscan
          cases hscan
      | some r' =>
          rw [hy] at hscan htrans'
          cases hscan with
          | some hfollows =>
              obtain ⟨-, hfound', hsum⟩ := hfollows
              rw [mask_toNat, mask_toNat] at hsum
              refine ⟨r'.address, ?_, ?_⟩
              · rw [busAddress_eq_some, translateAddress_eq, htrans']
                exact ⟨hfound', rfl⟩
              · rw [← haddress]
                show r'.address.toNat = r.address.toNat + 4
                omega

/-- Inside a page the word that follows a translated one is translated, to the word that
follows. -/
lemma busAddress_next (h : tlb.WellFormed) {address phys : BitVec 64}
    (hphys : busAddress tlb address = some phys)
    (hpage : address.toNat / 2 ^ 12 = (address + 4).toNat / 2 ^ 12) :
    ∃ phys', busAddress tlb (address + 4) = some phys' ∧ phys'.toNat = phys.toNat + 4 := by
  have hnext : (address + 4).toNat = (address.toNat + 4) % 2 ^ 64 := BitVec.toNat_add ..
  have hdist : (address + 4).toNat % 2 ^ 32 = address.toNat % 2 ^ 32 + 4 := by omega
  by_cases hseg : inKseg address = true
  · exact busAddress_next_inKseg hseg hphys hdist hpage
  · exact busAddress_next_mapped h hseg hphys hdist hpage

end MipsTlbNormal

/-! ## The words of a block -/

variable {δ : Type} {m : MipsSetup δ}

/-- The address of a word of the block at a program counter. -/
def wordAddress (pc : BitVec 64) (i : ℕ) : BitVec 64 :=
  (pc &&& 0xFFFFFFFF) + BitVec.ofNat 64 (4 * i)

lemma wordAddress_succ (pc : BitVec 64) (i : ℕ) :
    wordAddress pc (i + 1) = wordAddress pc i + 4 := by
  rw [wordAddress, wordAddress, BitVec.add_assoc]
  congr 1
  apply BitVec.eq_of_toNat_eq
  have hfour : (4 : BitVec 64).toNat = 4 := rfl
  simp only [BitVec.toNat_add, BitVec.toNat_ofNat, hfour]
  omega

lemma source_readForBlock {s : MipsBase MipsTlbNormal δ} {pc : BitVec 64} {i : ℕ} {p : Prefetch}
    (h : (readForBlock m s pc)[i]? = some p) : p.source = busAddress s.tlb (wordAddress pc i) := by
  obtain ⟨haddress, hsource⟩ := readAhead_getElem _ _ _ _ h
  rw [hsource, haddress, wordAddress]

/-- Where the words of the block at the program counter cross into another page, that page is
mapped to the frame that follows; and the block ends before physical memory does. -/
structure PagesFollow (m : MipsSetup δ) (s : MipsBase MipsTlbNormal δ) : Prop where
  next : ∀ i, i + 1 < (readForBlock m s s.pc).length →
    (wordAddress s.pc i).toNat / 2 ^ 12 ≠ (wordAddress s.pc (i + 1)).toNat / 2 ^ 12 →
      ∃ phys, busAddress s.tlb (wordAddress s.pc i) = some phys ∧
        busAddress s.tlb (wordAddress s.pc (i + 1)) = some (phys + 4)
  top : ∀ i < (readForBlock m s s.pc).length, ∀ phys,
    busAddress s.tlb (wordAddress s.pc i) = some phys → phys.toNat + 4 < 2 ^ 32

/-- The words come from consecutive physical addresses. -/
lemma PagesFollow.source {s : MipsBase MipsTlbNormal δ} (h : PagesFollow m s)
    (hwf : s.tlb.WellFormed) {key : BitVec 64}
    (hkey : busAddress s.tlb (s.pc &&& 0xFFFFFFFF) = some key) (i : ℕ)
    (hi : i < (readForBlock m s s.pc).length) :
    ∃ phys, busAddress s.tlb (wordAddress s.pc i) = some phys ∧ phys.toNat = key.toNat + 4 * i := by
  induction i with
  | zero =>
      have hzero : wordAddress s.pc 0 = s.pc &&& 0xFFFFFFFF := BitVec.add_zero _
      exact ⟨key, by rw [hzero, hkey], rfl⟩
  | succ i ih =>
      obtain ⟨phys, hphys, hdist⟩ := ih (Nat.lt_of_succ_lt hi)
      by_cases hpage :
          (wordAddress s.pc i).toNat / 2 ^ 12 = (wordAddress s.pc (i + 1)).toNat / 2 ^ 12
      · rw [wordAddress_succ] at hpage ⊢
        obtain ⟨phys', hphys', hnext⟩ := MipsTlbNormal.busAddress_next hwf hphys hpage
        exact ⟨phys', hphys', by omega⟩
      · obtain ⟨phys', hphys', hnext⟩ := h.next i hi hpage
        obtain rfl := Option.some.inj (hphys.symm.trans hphys')
        have htop := h.top i (Nat.lt_of_succ_lt hi) phys hphys
        refine ⟨phys + 4, hnext, ?_⟩
        rw [BitVec.toNat_add]
        show (phys.toNat + 4) % 2 ^ 64 = _
        omega

/-! ## The range -/

/-- The range of a cached block, against the words it was built from. -/
structure RangeExact (m : MipsSetup δ) (c : MipsCache) (words : List Prefetch)
    (block : MipsCacheBlock) : Prop where
  entries : block.entries = words.map (Prefetch.entry m)
  /-- Word `i` was read from `start + 4 * i`. -/
  source : ∀ i p, words[i]? = some p →
    ∃ phys, p.source = some phys ∧ phys.toNat = block.start.toNat + 4 * i
  /-- The range consists of the bytes of the words. -/
  covers : ∀ address, block.covers address = true ↔ ∃ p ∈ words, ∃ phys,
    p.source = some phys ∧ phys.toNat ≤ address.toNat ∧ address.toNat < phys.toNat + 4
  /-- Invalidating a range that contains the physical address of a word queues the block. -/
  selected : ∀ (ord : IterOrder) (tlb : MipsTlbNormal) (start end_ : BitVec 64), ∀ p ∈ words,
    ∀ phys, p.source = some phys → (translateAddress tlb start).found = true →
      (translateAddress tlb start).address ≤ phys →
      phys < (translateAddress tlb start).address + (end_ - start) →
        block.key ∈ (c.invalidateBlockRange ord tlb start end_).pendingInvalidations

lemma end_placedAt (pc : BitVec 64) {key : BitVec 64} {l : List Prefetch} (hlen : l.length ≤ 64)
    (hfits : key.toNat + 4 * l.length < 2 ^ 32) :
    (placedAt key (MipsBase.blockOf m pc l)).end_.toNat = key.toNat + 4 * l.length := by
  have hlong : (BitVec.ofNat 64 (l.length * 4)).toNat = l.length * 4 := by
    rw [BitVec.toNat_ofNat]
    omega
  simp only [placedAt, MipsBase.blockOf, BitVec.toNat_setWidth, BitVec.toNat_add, BitVec.toNat_sub,
    mask_toNat, hlong]
  omega

/-- A block built where the pages follow one another has the range of its words. -/
lemma rangeExact_of_pagesFollow {s : MipsBase MipsTlbNormal δ} (h : PagesFollow m s)
    (hwf : s.tlb.WellFormed) {key : BitVec 64}
    (hkey : busAddress s.tlb (s.pc &&& 0xFFFFFFFF) = some key) {c : MipsCache}
    (hmem : (key, placedAt key (MipsBase.blockOf m s.pc (readForBlock m s s.pc))) ∈
      c.cache.values) :
    RangeExact m c (readForBlock m s s.pc)
      (placedAt key (MipsBase.blockOf m s.pc (readForBlock m s s.pc))) := by
  have hsource := h.source hwf hkey
  have hlen : (readForBlock m s s.pc).length ≤ 64 := length_readAhead _ _ _ _
  have hpos : 0 < (readForBlock m s s.pc).length := by
    obtain ⟨p, rest, hread, -⟩ := readForBlock_cons m s s.pc
    rw [hread]
    exact Nat.succ_pos _
  -- The last word ends below the top of physical memory.
  have hfits : key.toNat + 4 * (readForBlock m s s.pc).length < 2 ^ 32 := by
    obtain ⟨phys, hphys, hdist⟩ := hsource ((readForBlock m s s.pc).length - 1) (by omega)
    have htop := h.top _ (by omega) phys hphys
    omega
  have hend := end_placedAt (m := m) s.pc hlen hfits
  have hstart : (placedAt key (MipsBase.blockOf m s.pc (readForBlock m s s.pc))).start.toNat =
      key.toNat := by
    show (key.setWidth 32).toNat = _
    rw [BitVec.toNat_setWidth]
    omega
  have hwords : ∀ i p, (readForBlock m s s.pc)[i]? = some p →
      ∃ phys, p.source = some phys ∧ phys.toNat = key.toNat + 4 * i := by
    intro i p hp
    obtain ⟨hi, -⟩ := List.getElem?_eq_some_iff.mp hp
    obtain ⟨phys, hphys, hdist⟩ := hsource i hi
    exact ⟨phys, (source_readForBlock hp).trans hphys, hdist⟩
  have hcovers : ∀ address, (placedAt key (MipsBase.blockOf m s.pc (readForBlock m s s.pc))).covers
      address = true ↔ ∃ p ∈ readForBlock m s s.pc, ∃ phys, p.source = some phys ∧
        phys.toNat ≤ address.toNat ∧ address.toNat < phys.toNat + 4 := by
    intro address
    rw [MipsCacheBlock.covers_iff, MipsCacheBlock.key, BitVec.le_def, BitVec.lt_def,
      BitVec.toNat_setWidth_of_le (by decide), BitVec.toNat_setWidth_of_le (by decide), hstart,
      hend]
    constructor
    · rintro ⟨hlo, hhi⟩
      have hi : (address.toNat - key.toNat) / 4 < (readForBlock m s s.pc).length := by omega
      obtain ⟨phys, hphys, hdist⟩ := hwords _ _ (List.getElem?_eq_getElem hi)
      exact ⟨_, List.getElem_mem hi, phys, hphys, by omega, by omega⟩
    · rintro ⟨p, hp, phys, hphys, hlo, hhi⟩
      obtain ⟨i, hi⟩ := List.getElem?_of_mem hp
      obtain ⟨hlt, -⟩ := List.getElem?_eq_some_iff.mp hi
      obtain ⟨phys', hphys', hdist⟩ := hwords i p hi
      obtain rfl := Option.some.inj (hphys.symm.trans hphys')
      omega
  refine ⟨rfl, fun i p hp => hstart ▸ hwords i p hp, hcovers, ?_⟩
  intro ord tlb start end_ p hp phys hphys hfound hlo hhi
  have hcover := (hcovers phys).mpr ⟨p, hp, phys, hphys, Nat.le_refl _, by omega⟩
  have hmeets := MipsCacheBlock.meets_of_covers hcover hlo hhi
  simp only [invalidateBlockRange, hfound, Bool.not_true, Bool.false_eq_true, if_false]
  exact (queues_range _ _ _ c).2 _ (ord.mem_iff.mpr hmem) hmeets

/-- Every cached block has the range of its words, when every block was built where the pages
follow one another. -/
theorem blockRange_exact (hm : m.IsN64) {c : MipsCache} {origin : Origin}
    (h : CacheReached m (fun s => TlbReachable s.tlb ∧ PagesFollow m s) c origin) {key : BitVec 64}
    {block : MipsCacheBlock} (hmem : (key, block) ∈ c.cache.values) :
    RangeExact m c (origin key) block := by
  obtain ⟨s, ⟨hreach, hfollow⟩, -, hbus, horigin, hblock⟩ :=
    (h.built (fetchesAhead_normal hm)).2 key block hmem
  rw [hblock, horigin] at hmem ⊢
  exact rangeExact_of_pagesFollow hfollow hreach.wellFormed hbus hmem

/-! ## Two pages apart -/

/-- Entry 0 maps two virtual pages to the frames at `0x1000` and `0x5000`. -/
def twoFrames : MipsTlbNormal :=
  [TlbOp.setEntryHi 0x40000000, .setEntryLo0 0x47, .setEntryLo1 0x147, .write 0].foldl
    (fun tlb op => op.apply tlb) {}

/-- The last word of the first page is followed by a return in the second one. -/
def splitProgram : MipsBase MipsTlbNormal WordMemory :=
  { tlb := twoFrames, device := [(0x5000, 0x03E00008)], pc := 0x40000FFC, nextPc := 0x40001000 }

/-- The state after the block was built. -/
def splitBuilt : MipsBase MipsTlbNormal WordMemory :=
  lastState (MipsBase.getOrBuildBlock cachedSetup) splitProgram

/-- Word 1 was read from `0x5000`; invalidating that line queues nothing. -/
theorem splitProgram_not_exact :
    ∃ origin block, CacheReached cachedSetup
        (fun s : MipsBase MipsTlbNormal WordMemory => TlbReachable s.tlb) splitBuilt.cache origin ∧
      (0x1FFC#64, block) ∈ splitBuilt.cache.cache.values ∧
      ((origin 0x1FFC)[1]?.map Prefetch.source) = some (some 0x5000#64) ∧
      (splitBuilt.cache.invalidateBlockRange .vector twoFrames 0x40001000
        0x40001010).pendingInvalidations = [] ∧
      ¬ RangeExact cachedSetup splitBuilt.cache (origin 0x1FFC) block := by
  have hrun : MipsBase.getOrBuildBlock cachedSetup splitProgram = .ok (0, splitBuilt) :=
    run_of_returned (by decide +kernel)
  have hreach : CacheReached cachedSetup
      (fun s : MipsBase MipsTlbNormal WordMemory => TlbReachable s.tlb) splitBuilt.cache
        (recordBuild cachedSetup splitProgram fun _ => []) :=
    .build .init (MipsTlbNormal.reachable_foldl _ .init) (by decide +kernel) hrun
  have hsource : ((recordBuild cachedSetup splitProgram fun _ => []) 0x1FFC#64)[1]?.map
      Prefetch.source = some (some 0x5000#64) := by decide +kernel
  have hkeys : splitBuilt.cache.cache.keys = [0x1FFC#64] := by decide +kernel
  obtain ⟨block, hmem⟩ := (DenseMap.mem_keys_iff _).mp (hkeys ▸ List.mem_singleton_self 0x1FFC#64)
  refine ⟨_, block, hreach, hmem, hsource, by decide +kernel, fun hexact => ?_⟩
  have hwf := (hreach.built (fetchesAhead_normal (n64Setup_isN64 _))).1
  have hkey := hwf.key _ _ hmem
  obtain ⟨p, hp, hphys⟩ := Option.map_eq_some_iff.mp hsource
  obtain ⟨phys, hphys', hdist⟩ := hexact.source 1 p hp
  obtain rfl := Option.some.inj (hphys.symm.trans hphys')
  have hstart := congrArg BitVec.toNat hkey
  rw [MipsCacheBlock.key, BitVec.toNat_setWidth_of_le (by decide)] at hstart
  rw [← hstart] at hdist
  exact absurd hdist (by decide)

/-- The state after the block at the end of a page was built. -/
def returnBuilt : MipsBase MipsTlbNormal WordMemory :=
  lastState (MipsBase.getOrBuildBlock exceptionSetup) MipsBase.returnAtPageEnd

lemma returnAtPageEnd_pagesFollow : PagesFollow exceptionSetup MipsBase.returnAtPageEnd := by
  have hlen : (readForBlock exceptionSetup MipsBase.returnAtPageEnd
      MipsBase.returnAtPageEnd.pc).length = 2 := by decide +kernel
  constructor
  · intro i hi hpage
    obtain rfl : i = 0 := by omega
    exact absurd hpage (by decide)
  · intro i hi phys hphys
    have hsmall : ∀ i < 2, (busAddress MipsBase.returnAtPageEnd.tlb
        (wordAddress MipsBase.returnAtPageEnd.pc i)).all
          (fun phys => decide (phys.toNat + 4 < 2 ^ 32)) = true := by decide +kernel
    have hall := hsmall i (hlen ▸ hi)
    rw [hphys] at hall
    simpa using hall

theorem returnAtPageEnd_exact :
    ∃ (origin : Origin) (block : MipsCacheBlock),
      (0x1FF8#64, block) ∈ returnBuilt.cache.cache.values ∧
      RangeExact exceptionSetup returnBuilt.cache (origin 0x1FF8) block := by
  have hrun : MipsBase.getOrBuildBlock exceptionSetup MipsBase.returnAtPageEnd =
      .ok (0, returnBuilt) := run_of_returned (by decide +kernel)
  have hkeys : returnBuilt.cache.cache.keys = [0x1FF8#64] := by decide +kernel
  obtain ⟨block, hmem⟩ := (DenseMap.mem_keys_iff _).mp (hkeys ▸ List.mem_singleton_self 0x1FF8#64)
  exact ⟨_, block, hmem, blockRange_exact (n64Setup_isN64 _)
    (.build .init ⟨MipsTlbNormal.reachable_foldl _ .init, returnAtPageEnd_pagesFollow⟩
      (by decide +kernel) hrun) hmem⟩

end NgMips
