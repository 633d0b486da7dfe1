import Mathlib.Data.BitVec
import Mathlib.Data.Set.Function
import Mathlib.Logic.Function.Basic

/-!
# Bytes in a word and in memory

A memory is a function from places to values, and so is a word once its bytes are numbered.
Writing items of a sequence to their places, in any order and possibly more than once, has a
result that depends on the set of the items only: this is `Written`.  The second part reads a
word off its bytes, the most significant one first.
-/

namespace NgMips

/-! ## Writing items to their places -/

section Written

variable {A B : Type} {loc : ℕ → A} {f : ℕ → B} {J K : Set ℕ} {mem mem' mem'' : A → B}

/-- `mem'` is `mem` after the items of `f` with a number in `J` were written, each to its
place. -/
structure Written (loc : ℕ → A) (f : ℕ → B) (J : Set ℕ) (mem mem' : A → B) : Prop where
  written : ∀ j ∈ J, mem' (loc j) = f j
  kept : ∀ x, (∀ j ∈ J, x ≠ loc j) → mem' x = mem x

namespace Written

lemma empty : Written loc f ∅ mem mem := ⟨fun _ hj => hj.elim, fun _ _ => rfl⟩

lemma single [DecidableEq A] (i : ℕ) :
    Written loc f {i} mem (Function.update mem (loc i) (f i)) := by
  constructor
  · rintro j rfl
    exact Function.update_self _ _ _
  · intro x hx
    exact Function.update_of_ne (hx i rfl) _ _

/-- Items written one after the other, at places that differ. -/
lemma union (hinj : Set.InjOn loc (J ∪ K)) (hJ : Written loc f J mem mem')
    (hK : Written loc f K mem' mem'') : Written loc f (J ∪ K) mem mem'' := by
  constructor
  · intro j hj
    by_cases hjK : j ∈ K
    · exact hK.written j hjK
    · have hjJ : j ∈ J := hj.resolve_right hjK
      have hplace : ∀ k ∈ K, loc j ≠ loc k := by
        intro k hk heq
        exact hjK (hinj hj (.inr hk) heq ▸ hk)
      rw [hK.kept _ hplace]
      exact hJ.written j hjJ
  · intro x hx
    rw [hK.kept x fun j hj => hx j (.inr hj)]
    exact hJ.kept x fun j hj => hx j (.inl hj)

end Written

end Written

/-! ## The bytes of a word -/

section Bytes

variable {w n : ℕ}

/-- Byte `i` of a word, counted from the least significant one. -/
def byteAt (v : BitVec w) (i : ℕ) : BitVec 8 := (v >>> (i * 8)).setWidth 8

lemma getLsbD_byteAt (v : BitVec w) (i j : ℕ) :
    (byteAt v i).getLsbD j = (decide (j < 8) && v.getLsbD (i * 8 + j)) := by
  rw [byteAt, BitVec.getLsbD_setWidth, BitVec.getLsbD_ushiftRight]

/-- A word is known by its bytes. -/
lemma eq_of_bytes (hw : w = n * 8) {x y : BitVec w} (h : ∀ i < n, byteAt x i = byteAt y i) :
    x = y := by
  refine BitVec.eq_of_getLsbD_eq fun i hi => ?_
  have hbyte := congrArg (fun b => b.getLsbD (i % 8)) (h (i / 8) (by omega))
  simp only [getLsbD_byteAt, Nat.div_add_mod', Nat.mod_lt i (show 0 < 8 by omega), decide_true,
    Bool.true_and] at hbyte
  exact hbyte

/-- The word whose bytes are the first `n` items of `f`, the most significant one first. -/
def bigEndian (w : ℕ) (f : ℕ → BitVec 8) : ℕ → BitVec w
  | 0 => 0
  | n + 1 => (bigEndian w f n <<< 8) ||| (f n).setWidth w

lemma byteAt_append_zero (hw : 8 ≤ w) (x : BitVec w) (b : BitVec 8) :
    byteAt ((x <<< 8) ||| b.setWidth w) 0 = b := by
  refine BitVec.eq_of_getLsbD_eq fun j hj => ?_
  rw [getLsbD_byteAt, BitVec.getLsbD_or, BitVec.getLsbD_shiftLeft, BitVec.getLsbD_setWidth]
  simp [hj, show j < w by omega]

lemma byteAt_append_succ (x : BitVec w) (b : BitVec 8) {i : ℕ} (hw : (i + 2) * 8 ≤ w) :
    byteAt ((x <<< 8) ||| b.setWidth w) (i + 1) = byteAt x i := by
  refine BitVec.eq_of_getLsbD_eq fun j hj => ?_
  have hindex : (i + 1) * 8 + j - 8 = i * 8 + j := by omega
  have hhigh : b.getLsbD ((i + 1) * 8 + j) = false := BitVec.getLsbD_of_ge _ _ (by omega)
  rw [getLsbD_byteAt, getLsbD_byteAt, BitVec.getLsbD_or, BitVec.getLsbD_shiftLeft,
    BitVec.getLsbD_setWidth, hhigh, hindex]
  simp [show (i + 1) * 8 + j < w by omega, show ¬(i + 1) * 8 + j < 8 by omega]

/-- The bytes of the word, from its most significant end. -/
lemma byteAt_bigEndian (f : ℕ → BitVec 8) (hw : n * 8 ≤ w) {i : ℕ} (hi : i < n) :
    byteAt (bigEndian w f n) (n - 1 - i) = f i := by
  induction n with
  | zero => omega
  | succ n ih =>
      rw [bigEndian]
      rcases Nat.lt_succ_iff_lt_or_eq.mp hi with hlt | rfl
      · have hindex : n + 1 - 1 - i = n - 1 - i + 1 := by omega
        rw [hindex, byteAt_append_succ _ _ (by omega)]
        exact ih (by omega) hlt
      · rw [Nat.add_sub_cancel, Nat.sub_self, byteAt_append_zero (by omega)]

/-- A word is the one its bytes make up. -/
lemma eq_bigEndian {v : BitVec w} {f : ℕ → BitVec 8} (hw : w = n * 8)
    (h : ∀ i < n, byteAt v (n - 1 - i) = f i) : v = bigEndian w f n := by
  refine eq_of_bytes hw fun i hi => ?_
  have hindex : n - 1 - (n - 1 - i) = i := by omega
  have hv := h (n - 1 - i) (by omega)
  rw [hindex] at hv
  have hword := byteAt_bigEndian f hw.ge (show n - 1 - i < n by omega)
  rw [hindex] at hword
  rw [hv, hword]

end Bytes

end NgMips
