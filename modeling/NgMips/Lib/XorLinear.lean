import Mathlib.Data.BitVec
import Mathlib.Dynamics.PeriodicPts.Defs

/-!
# Maps of words that respect exclusive or

A map of words that respects exclusive or is given by its values on the single bits, its
columns.  Squaring the columns, `square`, doubles the number of iterations, so that an iterate of
order `2 ^ n` is computed by `n` squarings; this is how the period of a generator of pseudo-random
words is found.
-/

namespace NgMips

variable {w : ℕ}

/-- The map respects exclusive or. -/
def XorLinear (f : BitVec w → BitVec w) : Prop := ∀ x y, f (x ^^^ y) = f x ^^^ f y

namespace XorLinear

variable {f g : BitVec w → BitVec w}

lemma map_zero (hf : XorLinear f) : f 0#w = 0#w := by
  have h := hf 0#w 0#w
  rwa [BitVec.xor_self, BitVec.xor_self] at h

lemma xor (hf : XorLinear f) (hg : XorLinear g) : XorLinear fun x => f x ^^^ g x := by
  intro x y
  change f (x ^^^ y) ^^^ g (x ^^^ y) = (f x ^^^ g x) ^^^ (f y ^^^ g y)
  rw [hf, hg]
  ac_rfl

lemma comp (hf : XorLinear f) (hg : XorLinear g) : XorLinear (f ∘ g) := by
  intro x y
  change f (g (x ^^^ y)) = _
  rw [hg, hf]
  rfl

lemma id : XorLinear fun x : BitVec w => x := fun _ _ => rfl

lemma shiftLeft (n : ℕ) : XorLinear fun x : BitVec w => x <<< n := fun _ _ =>
  BitVec.shiftLeft_xor_distrib _ _ _

lemma ushiftRight (n : ℕ) : XorLinear fun x : BitVec w => x >>> n := fun _ _ =>
  BitVec.ushiftRight_xor_distrib _ _ _

end XorLinear

/-! ## Columns -/

/-- The exclusive or of the columns from `i` on that the bits of a word select. -/
def applyColumns : List (BitVec w) → ℕ → BitVec w → BitVec w
  | [], _, _ => 0#w
  | column :: columns, i, x =>
      (if x.getLsbD i then column else 0#w) ^^^ applyColumns columns (i + 1) x

/-- The columns of the map applied twice. -/
def square (columns : List (BitVec w)) : List (BitVec w) := columns.map (applyColumns columns 0)

/-- The columns are those of the map. -/
def IsColumns (columns : List (BitVec w)) (f : BitVec w → BitVec w) : Prop :=
  columns = (List.range w).map fun i => f (BitVec.twoPow w i)

/-- The bits from `i` on of a word. -/
def bitsFrom (i : ℕ) (x : BitVec w) : BitVec w := x >>> i <<< i

lemma bitsFrom_split {i : ℕ} (hi : i < w) (x : BitVec w) :
    bitsFrom i x = (if x.getLsbD i then BitVec.twoPow w i else 0#w) ^^^ bitsFrom (i + 1) x := by
  have hbit : ∀ k j, j < w → (bitsFrom k x).getLsbD j = (decide (k ≤ j) && x.getLsbD j) := by
    intro k j hj
    rw [bitsFrom, BitVec.getLsbD_shiftLeft, BitVec.getLsbD_ushiftRight]
    by_cases hkj : k ≤ j
    · simp [hj, hkj, Nat.not_lt.mpr hkj]
    · simp [hkj, Nat.lt_of_not_le hkj]
  apply BitVec.eq_of_getLsbD_eq
  intro j hj
  rw [BitVec.getLsbD_xor, hbit i j hj, hbit (i + 1) j hj]
  by_cases hij : i = j
  · subst hij
    cases hx : x.getLsbD i <;> simp [hi]
  · have hsucc : decide (i ≤ j) = decide (i + 1 ≤ j) := decide_eq_decide.mpr (by omega)
    have hother : (if x.getLsbD i then BitVec.twoPow w i else 0#w).getLsbD j = false := by
      split <;> simp [hij]
    rw [hsucc, hother, Bool.false_xor]

lemma applyColumns_range {f : BitVec w → BitVec w} (hf : XorLinear f) (x : BitVec w) :
    ∀ k i, i + k = w →
      applyColumns ((List.range' i k).map fun i => f (BitVec.twoPow w i)) i x = f (bitsFrom i x)
  | 0, i, hw => by
      have hnone : bitsFrom i x = 0#w := by
        rw [bitsFrom, BitVec.ushiftRight_eq_zero (by omega), BitVec.zero_shiftLeft]
      rw [hnone, hf.map_zero]
      rfl
  | k + 1, i, hw => by
      rw [List.range'_succ, List.map_cons, applyColumns,
        applyColumns_range hf x k (i + 1) (by omega),
        bitsFrom_split (by omega : i < w), hf]
      split
      · rfl
      · rw [hf.map_zero]

/-- The columns give back the map. -/
lemma applyColumns_eq {columns : List (BitVec w)} {f : BitVec w → BitVec w} (hf : XorLinear f)
    (h : IsColumns columns f) (x : BitVec w) : applyColumns columns 0 x = f x := by
  have hall : bitsFrom 0 x = x := by
    rw [bitsFrom, BitVec.shiftLeft_zero, BitVec.ushiftRight_zero]
  rw [h, List.range_eq_range', applyColumns_range hf x w 0 (Nat.zero_add w), hall]

lemma isColumns_square {columns : List (BitVec w)} {f : BitVec w → BitVec w} (hf : XorLinear f)
    (h : IsColumns columns f) : IsColumns (square columns) (f ∘ f) := by
  have hmap : square columns = columns.map f :=
    List.map_congr_left fun x _ => applyColumns_eq hf h x
  rw [IsColumns, hmap, h, List.map_map]
  rfl

/-- After `n` squarings the columns are those of the iterate of order `2 ^ n`. -/
theorem iterate_two_pow {columns : List (BitVec w)} {f : BitVec w → BitVec w} (hf : XorLinear f)
    (h : IsColumns columns f) (n : ℕ) (x : BitVec w) :
    applyColumns (square^[n] columns) 0 x = f^[2 ^ n] x := by
  induction n generalizing columns f with
  | zero => exact applyColumns_eq hf h x
  | succ n ih =>
      rw [Function.iterate_succ_apply, ih (hf.comp hf) (isColumns_square hf h), pow_succ,
        Nat.mul_comm, Function.iterate_mul]
      rfl

/-! ## Orbits -/

/-- A value of an orbit that comes back every `p` steps is at most `p` steps away. -/
lemma exists_iterate_of_isPeriodicPt {α : Type*} {f : α → α} {p : ℕ} {x : α} (hp : 0 < p)
    (h : Function.IsPeriodicPt f p (f x)) {k : ℕ} (hk : 1 ≤ k) (hkp : k ≤ p) (n : ℕ) :
    ∃ j, 1 ≤ j ∧ j ≤ p ∧ f^[j] (f^[n] x) = f^[k] x := by
  have hlt := Nat.mod_lt (n + p - k) hp
  have hround := Nat.div_add_mod (n + p - k) p
  refine ⟨p - (n + p - k) % p, by omega, by omega, ?_⟩
  obtain ⟨k, rfl⟩ : ∃ l, k = l + 1 := ⟨k - 1, by omega⟩
  have hsum : p - (n + p - (k + 1)) % p + n = k + p * ((n + p - (k + 1)) / p) + 1 := by omega
  have hback : f^[p * ((n + p - (k + 1)) / p)] (f x) = f x := h.mul_const _
  rw [← Function.iterate_add_apply, hsum, Function.iterate_succ_apply, Function.iterate_add_apply,
    hback, Function.iterate_succ_apply]

end NgMips
