import Mathlib.Data.BitVec

/-!
# Masks that are ranges of bits

A mask whose bits are those from `lo` up to `hi` cuts a number out of a word: `x &&& mask` is
`x % 2 ^ hi / 2 ^ lo`, moved back to its place.  Statements about masks become statements about
quotients and remainders.  The words that are the sign extension of their low bits are closed
under the bitwise operations.
-/

namespace NgMips

/-- The bits of the mask are those from `lo` up to `hi`. -/
def IsRange {w : ℕ} (mask : BitVec w) (lo hi : ℕ) : Prop :=
  ∀ i < w, mask.getLsbD i = (decide (lo ≤ i) && decide (i < hi))

instance {w : ℕ} (mask : BitVec w) (lo hi : ℕ) : Decidable (IsRange mask lo hi) :=
  inferInstanceAs (Decidable (∀ i < w, _))

namespace IsRange

variable {w lo hi : ℕ} {mask : BitVec w}

lemma toNat_and (h : IsRange mask lo hi) (x : BitVec w) :
    (x &&& mask).toNat = x.toNat % 2 ^ hi / 2 ^ lo * 2 ^ lo := by
  apply Nat.eq_of_testBit_eq
  intro i
  rw [BitVec.testBit_toNat, BitVec.getLsbD_and, Nat.testBit_mul_two_pow, Nat.testBit_div_two_pow,
    Nat.testBit_mod_two_pow, BitVec.testBit_toNat]
  by_cases hi' : i < w
  · rw [h i hi']
    by_cases hlo : lo ≤ i
    · simp [hlo, Nat.sub_add_cancel hlo, Bool.and_comm]
    · simp [hlo]
  · have hbit : x.getLsbD i = false := BitVec.getLsbD_of_ge x i (not_lt.mp hi')
    by_cases hlo : lo ≤ i
    · simp [hlo, Nat.sub_add_cancel hlo, hbit]
    · simp [hlo, hbit]

/-- Two words agree under the mask when they have the same number in these bits. -/
lemma and_eq_iff (h : IsRange mask lo hi) (x y : BitVec w) :
    x &&& mask = y &&& mask ↔ x.toNat % 2 ^ hi / 2 ^ lo = y.toNat % 2 ^ hi / 2 ^ lo := by
  rw [← BitVec.toNat_inj, h.toNat_and, h.toNat_and]
  exact Nat.mul_left_inj (Nat.two_pow_pos lo).ne'

/-- A word meets a mask of one bit when that bit is set. -/
lemma and_ne_zero_iff {n : ℕ} (h : IsRange mask n (n + 1)) (x : BitVec w) :
    x &&& mask ≠ 0#w ↔ x.toNat / 2 ^ n % 2 = 1 := by
  have hcut : x.toNat % 2 ^ (n + 1) / 2 ^ n = x.toNat / 2 ^ n % 2 := by
    rw [pow_succ, Nat.mod_mul_right_div_self]
  rw [ne_eq, ← BitVec.toNat_inj, h.toNat_and, hcut, BitVec.toNat_zero, mul_eq_zero, not_or]
  have hpos := Nat.two_pow_pos n
  omega

end IsRange

/-! ## Sign extension -/

/-- The low word of a sign-extended word is the word. -/
lemma setWidth_signExtend {w v : ℕ} (h : w ≤ v) (x : BitVec w) :
    (x.signExtend v).setWidth w = x := by
  apply BitVec.eq_of_getLsbD_eq
  intro i hi
  have hi' : i < v := Nat.lt_of_lt_of_le hi h
  rw [BitVec.getLsbD_setWidth, BitVec.getLsbD_signExtend, if_pos hi]
  simp [hi, hi']

/-- The word is the sign extension of its low `k` bits. -/
def IsSext {w : ℕ} (k : ℕ) (v : BitVec w) : Prop := (v.setWidth k).signExtend w = v

namespace IsSext

variable {w k : ℕ}

/-- All bits from `k - 1` on are the same. -/
lemma iff_getLsbD (hk : 0 < k) (v : BitVec w) :
    IsSext k v ↔ ∀ i < w, k ≤ i → v.getLsbD i = v.getLsbD (k - 1) := by
  have hmsb : (v.setWidth k).msb = v.getLsbD (k - 1) := by
    rw [BitVec.msb_eq_getLsbD_last, BitVec.getLsbD_setWidth]
    simp [Nat.sub_lt hk Nat.one_pos]
  have hbit : ∀ i < w, ((v.setWidth k).signExtend w).getLsbD i =
      if i < k then v.getLsbD i else v.getLsbD (k - 1) := by
    intro i hi
    rw [BitVec.getLsbD_signExtend, hmsb, BitVec.getLsbD_setWidth]
    by_cases hik : i < k
    · simp [hi, hik]
    · simp [hi, hik]
  constructor
  · intro h i hi hki
    have hi' := hbit i hi
    rw [h, if_neg (not_lt.mpr hki)] at hi'
    exact hi'
  · intro h
    refine BitVec.eq_of_getLsbD_eq fun i hi => ?_
    rw [hbit i hi]
    split
    · rfl
    · next hki => exact (h i hi (not_lt.mp hki)).symm

lemma signExtend {n : ℕ} (hn : 0 < n) (hnk : n ≤ k) (x : BitVec n) :
    IsSext k (x.signExtend w) := by
  rw [iff_getLsbD (by omega)]
  intro i hi hki
  rw [BitVec.getLsbD_signExtend, BitVec.getLsbD_signExtend, if_neg (by omega)]
  have hlt : k - 1 < w := by omega
  split
  · next hlast =>
      have heq : k - 1 = n - 1 := by omega
      rw [BitVec.msb_eq_getLsbD_last, heq]
      simp [hi, show n - 1 < w by omega]
  · simp [hi, hlt]

/-- A number that leaves bit `k - 1` free. -/
lemma setWidth {n : ℕ} (hnk : n < k) (x : BitVec n) : IsSext k (x.setWidth w) := by
  rw [iff_getLsbD (by omega)]
  intro i hi hki
  have hx : ∀ j, n ≤ j → x.getLsbD j = false := fun j hj => BitVec.getLsbD_of_ge x j hj
  rw [BitVec.getLsbD_setWidth, BitVec.getLsbD_setWidth, hx i (by omega), hx (k - 1) (by omega)]
  simp

section Bitwise

variable {a b : BitVec w} (hk : 0 < k) (ha : IsSext k a) (hb : IsSext k b)

include hk ha hb

lemma and : IsSext k (a &&& b) := by
  rw [iff_getLsbD hk] at *
  intro i hi hki
  rw [BitVec.getLsbD_and, BitVec.getLsbD_and, ha i hi hki, hb i hi hki]

lemma or : IsSext k (a ||| b) := by
  rw [iff_getLsbD hk] at *
  intro i hi hki
  rw [BitVec.getLsbD_or, BitVec.getLsbD_or, ha i hi hki, hb i hi hki]

lemma xor : IsSext k (a ^^^ b) := by
  rw [iff_getLsbD hk] at *
  intro i hi hki
  rw [BitVec.getLsbD_xor, BitVec.getLsbD_xor, ha i hi hki, hb i hi hki]

end Bitwise

end IsSext

/-! ## Pages -/

section Pages

variable {w n : ℕ} {mask frame offset x y : BitVec w}

/-- A mask without bits below `n` sees only the page of a word. -/
lemma and_eq_of_page (hmask : mask.toNat % 2 ^ n = 0) (h : x.toNat / 2 ^ n = y.toNat / 2 ^ n) :
    x &&& mask = y &&& mask := by
  have hpart : ∀ z : BitVec w, (z &&& mask).toNat =
      2 ^ n * (z.toNat / 2 ^ n &&& mask.toNat / 2 ^ n) := by
    intro z
    rw [← Nat.div_add_mod (z &&& mask).toNat (2 ^ n), BitVec.toNat_and, Nat.and_div_two_pow,
      Nat.and_mod_two_pow, hmask, Nat.and_zero, Nat.add_zero]
  apply BitVec.eq_of_toNat_eq
  rw [hpart, hpart, h]

/-- A frame with the offsets of two words of one page is as far apart as the words. -/
lemma toNat_page (hframe : frame.toNat % 2 ^ n = 0) (hoffset : offset.toNat % 2 ^ n = 2 ^ n - 1)
    (h : x.toNat / 2 ^ n = y.toNat / 2 ^ n) :
    (frame ||| (x &&& offset)).toNat + y.toNat = (frame ||| (y &&& offset)).toNat + x.toNat := by
  have hpart : ∀ z : BitVec w, (frame ||| (z &&& offset)).toNat =
      2 ^ n * (frame.toNat / 2 ^ n ||| (z.toNat / 2 ^ n &&& offset.toNat / 2 ^ n)) +
        z.toNat % 2 ^ n := by
    intro z
    rw [← Nat.div_add_mod (frame ||| (z &&& offset)).toNat (2 ^ n), BitVec.toNat_or,
      BitVec.toNat_and, Nat.or_div_two_pow, Nat.and_div_two_pow, Nat.or_mod_two_pow,
      Nat.and_mod_two_pow, hframe, hoffset, Nat.zero_or, Nat.and_two_pow_sub_one_eq_mod,
      Nat.mod_mod]
  have hx := Nat.div_add_mod x.toNat (2 ^ n)
  have hy := Nat.div_add_mod y.toNat (2 ^ n)
  rw [hpart, hpart, h]
  rw [h] at hx
  omega

end Pages

/-- A word put together from its bits from `n` on and from other bits below. -/
lemma toNat_or_of_parts {w n : ℕ} {x y : BitVec w} {a : ℕ} (hx : x.toNat = a * 2 ^ n)
    (hy : y.toNat < 2 ^ n) : (x ||| y).toNat = a * 2 ^ n + y.toNat := by
  rw [BitVec.toNat_or, hx, Nat.mul_comm, Nat.two_pow_add_eq_or_of_lt hy]

end NgMips
