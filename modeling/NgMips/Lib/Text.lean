import Mathlib.Data.BitVec
import Mathlib.Data.List.TakeWhile

/-!
# Texts and their parts

A text that is made of parts with a separator between them is taken apart at the first character of
the separator, when no part contains it.  A number is read off its decimal text, and a word off its
digits.
-/

namespace NgMips

/-! ## Parts -/

section Parts

variable {x x' y y' sep : String} {c : Char} {cs : List Char} (hsep : sep.toList = c :: cs)

include hsep

/-- What stands before the first separator. -/
lemma takeWhile_append_sep (hx : c ∉ x.toList) (y : String) :
    (x ++ (sep ++ y)).toList.takeWhile (· != c) = x.toList := by
  have hall : ∀ d ∈ x.toList, (d != c) = true := by
    intro d hd
    exact bne_iff_ne.mpr fun h => hx (h ▸ hd)
  simp only [String.toList_append, hsep, List.cons_append]
  rw [List.takeWhile_append_of_pos hall, List.takeWhile_cons_of_neg (by simp), List.append_nil]

/-- The parts around the first separator. -/
lemma append_sep_inj (hx : c ∉ x.toList) (hx' : c ∉ x'.toList)
    (h : x ++ (sep ++ y) = x' ++ (sep ++ y')) : x = x' ∧ y = y' := by
  have hbefore := congrArg (fun text : String => text.toList.takeWhile (· != c)) h
  rw [takeWhile_append_sep hsep hx, takeWhile_append_sep hsep hx'] at hbefore
  obtain rfl := String.toList_inj.mp hbefore
  exact ⟨rfl, (String.append_right_inj sep).mp ((String.append_right_inj x).mp h)⟩

end Parts

/-- A text without the separator stands before it as a whole. -/
lemma takeWhile_eq_self {x : String} {c : Char} (hx : c ∉ x.toList) :
    x.toList.takeWhile (· != c) = x.toList :=
  List.takeWhile_eq_self_iff.mpr fun _ hd => bne_iff_ne.mpr fun h => hx (h ▸ hd)

/-! ## Numbers -/

lemma toList_decimal (n : ℕ) : (toString n).toList = Nat.toDigits 10 n := by
  rw [Nat.toString_eq_repr, Nat.toList_repr]

lemma decimal_inj {m n : ℕ} (h : toString m = toString n) : m = n := by
  have hdigits := congrArg String.toList h
  rw [toList_decimal, toList_decimal] at hdigits
  have hvalue := congrArg (fun digits => Nat.ofDigitChars 10 digits 0) hdigits
  rwa [Nat.ofDigitChars_ten_toDigits, Nat.ofDigitChars_ten_toDigits] at hvalue

lemma isDigit_of_mem_decimal {n : ℕ} {c : Char} (h : c ∈ (toString n).toList) :
    c.isDigit = true := by
  rw [toList_decimal] at h
  exact Nat.isDigit_of_mem_toDigits (by decide) (by decide) h

/-- A word is made of its groups of bits. -/
lemma eq_of_groups {k n w : ℕ} (hw : w ≤ k * n) {x y : BitVec w}
    (h : ∀ i < n, x.extractLsb' (k * i) k = y.extractLsb' (k * i) k) : x = y := by
  refine BitVec.eq_of_getLsbD_eq fun j hj => ?_
  have hk : 0 < k := by
    rcases Nat.eq_zero_or_pos k with rfl | hpos
    · omega
    · exact hpos
  have hgroup : j / k < n := Nat.div_lt_of_lt_mul (by omega)
  have hbit := congrArg (fun z => z.getLsbD (j % k)) (h (j / k) hgroup)
  have hmod : j % k < k := Nat.mod_lt j hk
  simpa [BitVec.getLsbD_extractLsb', hmod, Nat.div_add_mod] using hbit

end NgMips
