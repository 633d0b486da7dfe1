import NgMips.Lib.Bits
import NgMips.Proofs.Tlb

/-!
# Address translation

What the architecture says of an entry that was written with `TLBWI` or `TLBWR`, in terms of
numbers: the page size, the page number, the half an address selects and its fields
(`MipsTlbEntry.Maps`, `physical`).  What is written is not what is stored, since the global
bits of the two halves are made one; `TlbWritten` keeps track of it.  `translateAddress_maps`
says that `translateAddress` agrees with the architecture.
-/

namespace NgMips

/-! ## Segments as ranges -/

lemma mask_toNat (address : BitVec 64) :
    (address &&& 0xFFFFFFFF).toNat = address.toNat % 2 ^ 32 := by
  rw [BitVec.toNat_and]
  exact Nat.and_two_pow_sub_one_eq_mod _ 32

lemma ksegPhysical_toNat (address : BitVec 64) :
    (ksegPhysical address).toNat = address.toNat % 2 ^ 29 := by
  rw [ksegPhysical, BitVec.toNat_and]
  exact Nat.and_two_pow_sub_one_eq_mod _ 29

/-- The bounds of the unmapped segments. -/
lemma inKseg_iff (address : BitVec 64) : inKseg address = true ↔
    0x80000000 ≤ address.toNat % 2 ^ 32 ∧ address.toNat % 2 ^ 32 < 0xC0000000 := by
  simp only [inKseg, isKseg0, isKseg1, Bool.or_eq_true, Bool.and_eq_true, decide_eq_true_eq,
    BitVec.le_def, BitVec.lt_def, mask_toNat, BitVec.reduceToNat]
  omega

lemma isKseg0_iff (address : BitVec 64) :
    isKseg0 address = true ↔ 0x80000000 ≤ address.toNat ∧ address.toNat < 0xA0000000 := by
  simp [isKseg0, BitVec.le_def, BitVec.lt_def]

/-- Addresses that are a few words apart in one segment are so in memory. -/
lemma ksegPhysical_same_segment {x y : BitVec 64} (hx : x.toNat < 2 ^ 32)
    (hy : y.toNat < 2 ^ 32) (hxk : inKseg x) (hyk : inKseg y) (hle : x.toNat ≤ y.toNat)
    (hseg : isKseg0 y = isKseg0 x) :
    (ksegPhysical y).toNat = (ksegPhysical x).toNat + (y.toNat - x.toNat) := by
  have hx' := (inKseg_iff x).mp hxk
  have hy' := (inKseg_iff y).mp hyk
  have hiff : isKseg0 y = true ↔ isKseg0 x = true := by rw [hseg]
  rw [isKseg0_iff, isKseg0_iff] at hiff
  rw [ksegPhysical_toNat, ksegPhysical_toNat]
  omega

/-! ## Pages -/

/-- The page masks of the architecture, for pages of 4 KiB to 16 MiB. -/
def architecturalMasks : List (BitVec 64) :=
  [0, 0x6000, 0x1E000, 0x7E000, 0x1FE000, 0x7FE000, 0x1FFE000]

namespace MipsTlbEntry

variable (entry : MipsTlbEntry) (entryHi address : BitVec 64)

/-- The size of one of the two pages an entry maps. -/
def pageSize : ℕ := (entry.pageMask.toNat + 0x2000) / 2

/-- The half of the entry that maps the address: the address bit just above the offset in the
page tells which. -/
def half : ℕ :=
  if address.toNat / entry.pageSize % 2 = 1 then entry.entryLo1.toNat else entry.entryLo0.toNat

/-- The entry maps the address, in the address space named by `entryHi`. -/
structure Maps : Prop where
  /-- The page numbers agree outside the page mask. -/
  vpn : entry.entryHi.toNat % 2 ^ 32 / (2 * entry.pageSize) =
    address.toNat % 2 ^ 32 / (2 * entry.pageSize)
  /-- Both halves are global, or the address space is that of the entry. -/
  space : (entry.entryLo0.toNat % 2 = 1 ∧ entry.entryLo1.toNat % 2 = 1) ∨
    entry.entryHi.toNat % 2 ^ 8 = entryHi.toNat % 2 ^ 8
  valid : entry.half address / 2 % 2 = 1

/-- The frame of the half, with the bits inside the page replaced by those of the address. -/
def physical : ℕ :=
  entry.half address / 2 ^ 6 % 2 ^ 20 * 2 ^ 12 / entry.pageSize * entry.pageSize +
    address.toNat % entry.pageSize

/-- The half may be written through. -/
def dirty : Bool := entry.half address / 4 % 2 == 1

/-- The entry as it is stored: a half is global when both were written so. -/
def stored : MipsTlbEntry :=
  { entry with
    entryLo0 := MipsTlbNormal.storedLo (entry.entryLo0 &&& entry.entryLo1 &&& 1 != 0) entry.entryLo0
    entryLo1 :=
      MipsTlbNormal.storedLo (entry.entryLo0 &&& entry.entryLo1 &&& 1 != 0) entry.entryLo1 }

end MipsTlbEntry

/-! ## What was written -/

/-- The entries as they were written last. -/
def TlbOp.record : TlbOp → MipsTlbNormal → (Fin 32 → MipsTlbEntry) → Fin 32 → MipsTlbEntry
  | reset, _, _ => fun _ => {}
  | write idx, tlb, written =>
      Function.update written (MipsBase.entryIndex idx) (MipsBase.currentEntry tlb)
  | _, _, written => written

/-- Contents that are reached while entries are only written with page masks of the
architecture, with what was written into each entry. -/
inductive TlbWritten : MipsTlbNormal → (Fin 32 → MipsTlbEntry) → Prop
  | init : TlbWritten {} fun _ => {}
  | step {tlb : MipsTlbNormal} {written : Fin 32 → MipsTlbEntry} (op : TlbOp)
      (h : TlbWritten tlb written)
      (hmask : ∀ idx, op = .write idx → tlb.pageMask ∈ architecturalMasks) :
      TlbWritten (op.apply tlb) (op.record tlb written)

/-- The entries are those written, with the global bits made one. -/
structure Stores (tlb : MipsTlbNormal) (written : Fin 32 → MipsTlbEntry) : Prop where
  entry : ∀ i, tlb.entry i = (written i).stored
  mask : ∀ i, (written i).pageMask ∈ architecturalMasks

lemma MipsTlbEntry.stored_default : ({} : MipsTlbEntry).stored = {} := by decide

lemma setTlbEntry_stored (tlb : MipsTlbNormal) (idx : Fin 32) (entry : MipsTlbEntry) :
    tlb.setTlbEntry idx entry =
      { tlb with entry := Function.update tlb.entry idx entry.stored } := by
  rw [MipsTlbNormal.setTlbEntry, MipsTlbEntry.stored]
  cases entry.entryLo0 &&& entry.entryLo1 &&& 1 != 0 <;> rfl

lemma Stores.step {tlb : MipsTlbNormal} {written : Fin 32 → MipsTlbEntry} (h : Stores tlb written)
    (op : TlbOp) (hmask : ∀ idx, op = .write idx → tlb.pageMask ∈ architecturalMasks) :
    Stores (op.apply tlb) (op.record tlb written) := by
  cases op with
  | reset => exact ⟨fun _ => MipsTlbEntry.stored_default.symm, fun _ => List.mem_cons_self⟩
  | write idx =>
      have hwrite : (TlbOp.write idx).apply tlb = { tlb with
          entry := Function.update tlb.entry (MipsBase.entryIndex idx)
            (MipsBase.currentEntry tlb).stored } := setTlbEntry_stored _ _ _
      have hentry : (MipsBase.currentEntry tlb).pageMask ∈ architecturalMasks := hmask idx rfl
      rw [hwrite, TlbOp.record]
      refine ⟨fun i => ?_, fun i => ?_⟩ <;> by_cases hi : i = MipsBase.entryIndex idx
      · subst hi
        simp only [Function.update_self]
      · simp only [Function.update_of_ne hi, h.entry i]
      · subst hi
        simpa only [Function.update_self] using hentry
      · simpa only [Function.update_of_ne hi] using h.mask i
  | setIndex value => exact ⟨h.entry, h.mask⟩
  | setEntryLo0 value => exact ⟨h.entry, h.mask⟩
  | setEntryLo1 value => exact ⟨h.entry, h.mask⟩
  | setEntryHi value => exact ⟨h.entry, h.mask⟩
  | setPageMask value => exact ⟨h.entry, h.mask⟩
  | inform address => exact ⟨h.entry, h.mask⟩
  | read => exact ⟨h.entry, h.mask⟩
  | probe => exact ⟨h.entry, h.mask⟩

lemma TlbWritten.stores {tlb : MipsTlbNormal} {written : Fin 32 → MipsTlbEntry}
    (h : TlbWritten tlb written) : Stores tlb written := by
  induction h with
  | init => exact ⟨fun _ => MipsTlbEntry.stored_default.symm, fun _ => List.mem_cons_self⟩
  | step op _ hmask ih => exact ih.step op hmask

/-! ## The masks of a page -/

/-- The masks derived from a page mask cut addresses at bit `n`. -/
def CutsAt (pageMask : BitVec 64) (n : ℕ) : Prop :=
  let oddMask : BitVec 32 := (((pageMask ||| 0x1FFF) + 1) >>> 1).setWidth 32
  pageMask.toNat + 0x2000 = 2 ^ (n + 1) ∧ n < 32 ∧
    IsRange (~~~pageMask &&& 0xFFFFE000#64) (n + 1) 32 ∧
    IsRange (oddMask.setWidth 64) n (n + 1) ∧
    IsRange ((oddMask - 1).setWidth 64) 0 n ∧ IsRange (~~~(oddMask - 1)) n 32

instance (pageMask : BitVec 64) (n : ℕ) : Decidable (CutsAt pageMask n) :=
  inferInstanceAs (Decidable (_ ∧ _))

lemma cutsAt_of_architectural {pageMask : BitVec 64} (h : pageMask ∈ architecturalMasks) :
    ∃ n, CutsAt pageMask n := by
  have hall : architecturalMasks.all
      (fun mask => decide (∃ k : Fin 7, CutsAt mask (12 + 2 * k))) = true := by decide +kernel
  obtain ⟨k, hk⟩ := of_decide_eq_true (List.all_eq_true.mp hall pageMask h)
  exact ⟨_, hk⟩

/-! ## One entry -/

namespace MipsTlbEntry

variable {entry : MipsTlbEntry} {entryHi address : BitVec 64} {n : ℕ}

lemma pageSize_eq (h : CutsAt entry.pageMask n) : entry.pageSize = 2 ^ n := by
  rw [pageSize, h.1, pow_succ, Nat.mul_div_cancel _ (by decide)]

lemma storedLo_global (isGlobal : Bool) (lo : BitVec 64) :
    (MipsTlbNormal.storedLo isGlobal lo &&& 1 != 0) = isGlobal := by
  cases isGlobal with
  | false => simp [MipsTlbNormal.storedLo, BitVec.and_assoc]
  | true =>
      have hone : MipsTlbNormal.storedLo true lo &&& 1 = 1#64 := or_one_and_one lo
      rw [hone]
      decide

/-- Both halves of a stored entry are global when both were written so. -/
lemma stored_global_iff : entry.stored.gBit = true ↔
    entry.entryLo0.toNat % 2 = 1 ∧ entry.entryLo1.toNat % 2 = 1 := by
  have hone : IsRange (1 : BitVec 64) 0 1 := by decide
  have hodd : ∀ x : BitVec 64, x &&& 1 ≠ 0#64 ↔ x.toNat % 2 = 1 := fun x => by
    simpa using hone.and_ne_zero_iff (n := 0) x
  have hparity : (entry.entryLo0.toNat &&& entry.entryLo1.toNat) % 2 =
      entry.entryLo0.toNat % 2 &&& entry.entryLo1.toNat % 2 := Nat.and_mod_two_pow (n := 1)
  rw [gBit, stored, storedLo_global, bne_iff_ne]
  change entry.entryLo0 &&& entry.entryLo1 &&& 1 ≠ 0#64 ↔ _
  rw [hodd, BitVec.toNat_and, hparity]
  rcases Nat.mod_two_eq_zero_or_one entry.entryLo0.toNat with h0 | h0 <;>
    rcases Nat.mod_two_eq_zero_or_one entry.entryLo1.toNat with h1 | h1 <;> simp [h0, h1]

/-- The low word of the address, as the scan takes it. -/
lemma low_div_mod (hn : n < 32) (x : ℕ) : x % 2 ^ 32 / 2 ^ n % 2 = x / 2 ^ n % 2 := by
  have hsplit : 2 ^ 32 = 2 ^ n * 2 ^ (32 - n) := by rw [← pow_add, Nat.add_sub_cancel' hn.le]
  have heven : 2 ∣ 2 ^ (32 - n) := dvd_pow_self 2 (by omega)
  rw [hsplit, Nat.mod_mul_right_div_self, Nat.mod_mod_of_dvd _ heven]

/-- The comparison of the scan is that of the architecture. -/
lemma matchesAddress_stored_iff (h : CutsAt entry.pageMask n) :
    entry.stored.matchesAddress entryHi (address &&& 0xFFFFFFFF) = true ↔
      entry.entryHi.toNat % 2 ^ 32 / (2 * entry.pageSize) =
          address.toNat % 2 ^ 32 / (2 * entry.pageSize) ∧
        ((entry.entryLo0.toNat % 2 = 1 ∧ entry.entryLo1.toNat % 2 = 1) ∨
          entry.entryHi.toNat % 2 ^ 8 = entryHi.toNat % 2 ^ 8) := by
  have hvpn : IsRange (~~~entry.pageMask &&& 0xFFFFE000#64) (n + 1) 32 := h.2.2.1
  have hasid : IsRange (0xFF : BitVec 64) 0 8 := by decide
  have hspace : entry.stored.asidMatch entryHi = true ↔
      entry.entryHi.toNat % 2 ^ 8 = entryHi.toNat % 2 ^ 8 := by
    rw [asidMatch, beq_iff_eq, hasid.and_eq_iff, pow_zero, Nat.div_one, Nat.div_one]
    rfl
  have hpage : entry.stored.vpnMatch (address &&& 0xFFFFFFFF) = true ↔
      entry.entryHi.toNat % 2 ^ 32 / (2 * entry.pageSize) =
        address.toNat % 2 ^ 32 / (2 * entry.pageSize) := by
    rw [vpnMatch, beq_iff_eq, pageSize_eq h, ← pow_succ']
    change entry.entryHi &&& (~~~entry.pageMask &&& 0xFFFFE000#64) = _ &&& _ ↔ _
    refine (hvpn.and_eq_iff _ _).trans ?_
    rw [mask_toNat, Nat.mod_mod]
  rw [matchesAddress, Bool.and_eq_true, Bool.or_eq_true, hpage, hspace, stored_global_iff]

variable (address) in
/-- The half the scan selects has the fields of the half that was written. -/
lemma selectLo_stored (h : CutsAt entry.pageMask n) : ∃ isGlobal lo,
    entry.stored.selectLo (address &&& 0xFFFFFFFF) = MipsTlbNormal.storedLo isGlobal lo ∧
      lo.toNat = entry.half address := by
  have hn : n < 32 := h.2.1
  have hodd : IsRange (entry.stored.oddMask.setWidth 64) n (n + 1) := h.2.2.2.1
  have hbit : address &&& 0xFFFFFFFF &&& entry.stored.oddMask.setWidth 64 ≠ 0 ↔
      address.toNat / entry.pageSize % 2 = 1 := by
    refine (hodd.and_ne_zero_iff _).trans ?_
    rw [mask_toNat, low_div_mod hn, pageSize_eq h]
  rw [selectLo, half]
  by_cases hset : address.toNat / entry.pageSize % 2 = 1
  · rw [if_pos (bne_iff_ne.mpr (hbit.mpr hset)), if_pos hset]
    exact ⟨_, entry.entryLo1, rfl, rfl⟩
  · rw [if_neg (by rw [bne_iff_ne]; exact fun hcon => hset (hbit.mp hcon)), if_neg hset]
    exact ⟨_, entry.entryLo0, rfl, rfl⟩

/-- The frame of a half, in a word of 32 bits. -/
lemma frame_toNat (lo : BitVec 64) :
    (((lo &&& 0x03FFFFC0) <<< 6).setWidth 32).toNat = lo.toNat / 2 ^ 6 % 2 ^ 20 * 2 ^ 12 := by
  have hpfn : IsRange (0x03FFFFC0 : BitVec 64) 6 26 := by decide
  have hcut : lo.toNat % 2 ^ 26 / 2 ^ 6 = lo.toNat / 2 ^ 6 % 2 ^ 20 :=
    Nat.mod_mul_right_div_self lo.toNat (2 ^ 6) (2 ^ 20)
  rw [BitVec.toNat_setWidth, BitVec.toNat_shiftLeft, hpfn.toNat_and, hcut, Nat.shiftLeft_eq]
  omega

/-- The physical address the scan puts together. -/
lemma physical_toNat (h : CutsAt entry.pageMask n) (isGlobal : Bool) {lo : BitVec 64}
    (hlo : lo.toNat = entry.half address) :
    ((((MipsTlbNormal.storedLo isGlobal lo &&& 0x03FFFFC0) <<< 6).setWidth 32 &&&
        ~~~(entry.stored.oddMask - 1)).setWidth 64 |||
      (address &&& 0xFFFFFFFF &&& (entry.stored.oddMask - 1).setWidth 64)).toNat =
        entry.physical address := by
  have hn : n < 32 := h.2.1
  have hoffset : IsRange ((entry.stored.oddMask - 1).setWidth 64) 0 n := h.2.2.2.2.1
  have hframe : IsRange (~~~(entry.stored.oddMask - 1)) n 32 := h.2.2.2.2.2
  have hlow : (address &&& 0xFFFFFFFF &&& (entry.stored.oddMask - 1).setWidth 64).toNat =
      address.toNat % 2 ^ n := by
    rw [hoffset.toNat_and, mask_toNat, Nat.mod_mod_of_dvd _ (pow_dvd_pow 2 hn.le)]
    simp
  rw [MipsTlbNormal.storedLo_and _ _ (by decide), physical, pageSize_eq h, ← hlow, ← hlo]
  refine toNat_or_of_parts ?_ (hlow ▸ Nat.mod_lt _ (Nat.two_pow_pos n))
  have hpfn := Nat.mod_lt (lo.toNat / 2 ^ 6) (Nat.two_pow_pos 20)
  rw [BitVec.toNat_setWidth_of_le (by decide), hframe.toNat_and, frame_toNat,
    Nat.mod_eq_of_lt (by omega)]

variable (hmask : entry.pageMask ∈ architecturalMasks)

include hmask

/-- A stored entry translates the addresses it maps. -/
lemma translate_stored (h : entry.Maps entryHi address) :
    ∃ physical : BitVec 64, physical.toNat = entry.physical address ∧
      entry.stored.translate entryHi (address &&& 0xFFFFFFFF) =
        some { found := true, readOnly := !entry.dirty address, address := physical } := by
  obtain ⟨n, hcut⟩ := cutsAt_of_architectural hmask
  obtain ⟨isGlobal, lo, hselect, hlo⟩ := selectLo_stored address hcut
  have hvalid : IsRange (2 : BitVec 64) 1 2 := by decide
  have hdirty : IsRange (4 : BitVec 64) 2 3 := by decide
  have hv : lo &&& 2 ≠ 0 := (hvalid.and_ne_zero_iff lo).mpr (by rw [hlo]; exact h.valid)
  have hd : (lo &&& 4 != 0) = entry.dirty address := by
    rw [Bool.eq_iff_iff, bne_iff_ne, dirty, beq_iff_eq, ← hlo]
    exact hdirty.and_ne_zero_iff lo
  refine ⟨_, physical_toNat hcut isGlobal hlo, ?_⟩
  rw [translate, if_pos ((matchesAddress_stored_iff hcut).mpr ⟨h.vpn, h.space⟩), hselect]
  dsimp only
  rw [MipsTlbNormal.storedLo_and isGlobal lo (by decide : (2 : BitVec 64) &&& ~~~1#64 = 2),
    MipsTlbNormal.storedLo_and isGlobal lo (by decide : (4 : BitVec 64) &&& ~~~1#64 = 4), hd,
    if_neg (by simpa using hv)]

/-- It translates no other addresses. -/
lemma translate_stored_none (h : ¬ entry.Maps entryHi address) :
    entry.stored.translate entryHi (address &&& 0xFFFFFFFF) = none := by
  obtain ⟨n, hcut⟩ := cutsAt_of_architectural hmask
  obtain ⟨isGlobal, lo, hselect, hlo⟩ := selectLo_stored address hcut
  have hvalid : IsRange (2 : BitVec 64) 1 2 := by decide
  rw [translate]
  split
  · next hmatch =>
      obtain ⟨hvpn, hspace⟩ := (matchesAddress_stored_iff hcut).mp hmatch
      have hv : lo &&& 2 = 0 := by
        by_contra hset
        refine h ⟨hvpn, hspace, ?_⟩
        rw [← hlo]
        exact (hvalid.and_ne_zero_iff lo).mp hset
      rw [hselect]
      dsimp only
      rw [MipsTlbNormal.storedLo_and isGlobal lo (by decide : (2 : BitVec 64) &&& ~~~1#64 = 2), hv]
      rfl
  · rfl

end MipsTlbEntry

/-! ## All entries -/

/-- The translation unit translates an address as the architecture says of the entries that were
written. -/
structure TranslatesAs (tlb : MipsTlbNormal) (written : Fin 32 → MipsTlbEntry)
    (address : BitVec 64) : Prop where
  /-- The unmapped segments are mapped to the low 29 bits. -/
  unmapped : 0x80000000 ≤ address.toNat % 2 ^ 32 → address.toNat % 2 ^ 32 < 0xC0000000 →
    (tlb.translateAddress address).found = true ∧
      (tlb.translateAddress address).readOnly = false ∧
      (tlb.translateAddress address).address.toNat = address.toNat % 2 ^ 29
  found : ¬ (0x80000000 ≤ address.toNat % 2 ^ 32 ∧ address.toNat % 2 ^ 32 < 0xC0000000) →
    ((tlb.translateAddress address).found = true ↔ ∃ i, (written i).Maps tlb.entryHi address)
  mapped : ¬ (0x80000000 ≤ address.toNat % 2 ^ 32 ∧ address.toNat % 2 ^ 32 < 0xC0000000) →
    ∀ i, (written i).Maps tlb.entryHi address →
      (tlb.translateAddress address).address.toNat = (written i).physical address ∧
        (tlb.translateAddress address).readOnly = !(written i).dirty address

/-- On contents written with page masks of the architecture, an address that one entry maps at
most is translated as the architecture says. -/
theorem translateAddress_maps {tlb : MipsTlbNormal} {written : Fin 32 → MipsTlbEntry}
    (hwritten : TlbWritten tlb written) (address : BitVec 64)
    (hone : ∀ i j, (written i).Maps tlb.entryHi address → (written j).Maps tlb.entryHi address →
      i = j) : TranslatesAs tlb written address := by
  have hstores := hwritten.stores
  have hmiss : ∀ i, ¬ (written i).Maps tlb.entryHi address →
      (tlb.entry i).translate tlb.entryHi (address &&& 0xFFFFFFFF) = none := fun i hi => by
    rw [hstores.entry i]
    exact MipsTlbEntry.translate_stored_none (hstores.mask i) hi
  have hhit : inKseg address = false → ∀ i, (written i).Maps tlb.entryHi address →
      ∃ physical : BitVec 64, physical.toNat = (written i).physical address ∧
        tlb.translateAddress address =
          { found := true, readOnly := !(written i).dirty address, address := physical } := by
    intro hseg i hi
    obtain ⟨physical, hphysical, htranslate⟩ :=
      MipsTlbEntry.translate_stored (hstores.mask i) hi
    rw [← hstores.entry i] at htranslate
    refine ⟨physical, hphysical, ?_⟩
    rw [tlb.translateAddress_of_mapped hseg, findSome?_finRange_eq_some htranslate
      fun j hj => hmiss j fun hmaps => hj (hone j i hmaps hi)]
    rfl
  have hmapped : ¬ (0x80000000 ≤ address.toNat % 2 ^ 32 ∧ address.toNat % 2 ^ 32 < 0xC0000000) →
      inKseg address = false := fun hseg => by
    rw [← Bool.not_eq_true, inKseg_iff]
    exact hseg
  refine ⟨fun hlo hhi => ?_, fun hseg => ⟨fun hfound => ?_, ?_⟩, fun hseg i hi => ?_⟩
  · rw [tlb.translateAddress_of_inKseg ((inKseg_iff address).mpr ⟨hlo, hhi⟩)]
    exact ⟨rfl, rfl, ksegPhysical_toNat address⟩
  · by_contra hno
    have hnone : ((List.finRange 32).findSome? fun i =>
        (tlb.entry i).translate tlb.entryHi (address &&& 0xFFFFFFFF)) = none :=
      List.findSome?_eq_none_iff.mpr fun i _ => hmiss i fun hmaps => hno ⟨i, hmaps⟩
    rw [tlb.translateAddress_of_mapped (hmapped hseg), hnone] at hfound
    exact absurd hfound (by simp)
  · rintro ⟨i, hi⟩
    obtain ⟨physical, -, heq⟩ := hhit (hmapped hseg) i hi
    rw [heq]
  · obtain ⟨physical, hphysical, heq⟩ := hhit (hmapped hseg) i hi
    rw [heq]
    exact ⟨hphysical, rfl⟩

/-- Entry 3 maps two pages of 16 KiB for address space 7, the second one read-only. -/
def twoPages : MipsTlbNormal :=
  [TlbOp.setPageMask 0x6000, .setEntryHi 0x40000007, .setEntryLo0 0x2006, .setEntryLo1 0x3003,
    .write 3].foldl (fun tlb op => op.apply tlb) {}

/-- What was written into it. -/
def twoPagesWritten : Fin 32 → MipsTlbEntry :=
  Function.update (fun _ => {}) (MipsBase.entryIndex 3) ⟨0x2006, 0x3003, 0x40000007, 0x6000⟩

/-- An address in the second page. -/
theorem twoPages_translates : TranslatesAs twoPages twoPagesWritten 0x40005678 := by
  have hwritten : TlbWritten twoPages twoPagesWritten :=
    .step (.write 3) (.step (.setEntryLo1 0x3003) (.step (.setEntryLo0 0x2006)
      (.step (.setEntryHi 0x40000007) (.step (.setPageMask 0x6000) .init
        (fun _ h => absurd h (by simp))) (fun _ h => absurd h (by simp)))
      (fun _ h => absurd h (by simp))) (fun _ h => absurd h (by simp)))
      (fun _ _ => by decide)
  have honly : ∀ i, (twoPagesWritten i).Maps twoPages.entryHi 0x40005678 →
      i = MipsBase.entryIndex 3 := by
    intro i hi
    by_contra hne
    have hvalid := hi.valid
    rw [twoPagesWritten, Function.update_of_ne hne] at hvalid
    exact absurd hvalid (by decide)
  exact translateAddress_maps hwritten 0x40005678 fun i j hi hj =>
    (honly i hi).trans (honly j hj).symm

end NgMips
