import Mathlib.Data.BitVec
import Mathlib.Data.List.FinRange

/-!
# Masked comparison and the first match in a table

Two facts about tables that are searched by comparing some bits of a key.  A masked
comparison is a comparison of the bits in the mask; and the first row of a table that
satisfies a test is characterised by the rows before it.
-/

namespace NgMips

/-! ## Masked comparison -/

section Masks

variable {w : ℕ} {x y mask mask' : BitVec w}

/-- Two words agree under a mask when they agree on its bits. -/
lemma and_eq_and_iff :
    x &&& mask = y &&& mask ↔
      ∀ i, mask.getLsbD i = true → x.getLsbD i = y.getLsbD i := by
  constructor
  · intro h i hi
    have hbit := congrArg (fun z => z.getLsbD i) h
    simpa [hi] using hbit
  · intro h
    apply BitVec.eq_of_getLsbD_eq
    intro i _
    rw [BitVec.getLsbD_and, BitVec.getLsbD_and]
    cases hi : mask.getLsbD i with
    | false => simp
    | true => simp [h i hi]

/-- Agreement under a mask is agreement under each smaller one. -/
lemma and_eq_and_of_submask (h : x &&& mask = y &&& mask) (hsub : mask' &&& mask = mask') :
    x &&& mask' = y &&& mask' := by
  rw [← hsub, BitVec.and_comm mask', ← BitVec.and_assoc, ← BitVec.and_assoc, h]

/-- Agreement under two masks is agreement under every mask they cover. -/
lemma and_eq_and_of_cover {cover : BitVec w} (h : x &&& mask = y &&& mask)
    (h' : x &&& mask' = y &&& mask') (hcover : cover &&& ~~~(mask ||| mask') = 0#w) :
    x &&& cover = y &&& cover := by
  rw [and_eq_and_iff] at h h' ⊢
  intro i hi
  have hbit := congrArg (fun z => z.getLsbD i) hcover
  have hlt : i < w := BitVec.lt_of_getLsbD hi
  have hor : mask.getLsbD i = true ∨ mask'.getLsbD i = true := by
    simpa [hi, hlt, Decidable.or_iff_not_imp_left] using hbit
  exact hor.elim (h i) (h' i)

end Masks

/-! ## The first match -/

section First

variable {n : ℕ} {p q : Fin n → Bool}

/-- The first row that satisfies a test. -/
lemma find?_finRange_eq_some_iff {i : Fin n} :
    (List.finRange n).find? p = some i ↔ p i = true ∧ ∀ j < i, p j = false := by
  rw [List.find?_eq_some_iff_getElem]
  constructor
  · rintro ⟨hp, k, hk, hki, hlt⟩
    have hik : i = ⟨k, by simpa using hk⟩ := by rw [← hki, List.getElem_finRange]; rfl
    refine ⟨hp, fun j hj => ?_⟩
    have hjk : (j : ℕ) < k := by rw [hik] at hj; exact hj
    simpa using hlt j hjk
  · rintro ⟨hp, hlt⟩
    refine ⟨hp, i, by simp, by simp, fun j hj => ?_⟩
    have hjn : j < n := Nat.lt_trans hj i.isLt
    simpa using hlt ⟨j, hjn⟩ hj

lemma find?_finRange_eq_none_iff : (List.finRange n).find? p = none ↔ ∀ i, p i = false := by
  simp [List.find?_eq_none]

/-- A test that some row satisfies has a first row that does. -/
lemma exists_first (p : Fin n → Bool) {i : Fin n} (h : p i = true) :
    ∃ k, p k = true ∧ ∀ j < k, p j = false := by
  cases hf : (List.finRange n).find? p with
  | none => exact absurd (find?_finRange_eq_none_iff.mp hf i) (by simp [h])
  | some k => exact ⟨k, find?_finRange_eq_some_iff.mp hf⟩

/-- Two tests select the same row exactly when the first row that satisfies either of them
satisfies both. -/
lemma find?_finRange_eq_iff :
    (List.finRange n).find? p = (List.finRange n).find? q ↔
      ∀ i, (p i || q i) = true → (∀ j < i, (p j || q j) = false) →
        p i = true ∧ q i = true := by
  constructor
  · intro h i hi hlt
    have hp : ∀ j < i, p j = false := fun j hj => (Bool.or_eq_false_iff.mp (hlt j hj)).1
    have hq : ∀ j < i, q j = false := fun j hj => (Bool.or_eq_false_iff.mp (hlt j hj)).2
    rcases Bool.or_eq_true_iff.mp hi with hpi | hqi
    · have hf := find?_finRange_eq_some_iff.mpr ⟨hpi, hp⟩
      exact ⟨hpi, (find?_finRange_eq_some_iff.mp (h ▸ hf)).1⟩
    · have hf := find?_finRange_eq_some_iff.mpr ⟨hqi, hq⟩
      exact ⟨(find?_finRange_eq_some_iff.mp (h.symm ▸ hf)).1, hqi⟩
  · intro h
    by_cases hex : ∃ i, (p i || q i) = true
    · obtain ⟨i, hi⟩ := hex
      obtain ⟨k, hk, hlt⟩ := exists_first (fun i => p i || q i) hi
      obtain ⟨hpk, hqk⟩ := h k hk hlt
      rw [find?_finRange_eq_some_iff.mpr
          ⟨hpk, fun j hj => (Bool.or_eq_false_iff.mp (hlt j hj)).1⟩,
        find?_finRange_eq_some_iff.mpr
          ⟨hqk, fun j hj => (Bool.or_eq_false_iff.mp (hlt j hj)).2⟩]
    · have hno : ∀ i, (p i || q i) = false := fun i => by
        rw [← Bool.not_eq_true]
        exact fun hi => hex ⟨i, hi⟩
      rw [find?_finRange_eq_none_iff.mpr fun i => (Bool.or_eq_false_iff.mp (hno i)).1,
        find?_finRange_eq_none_iff.mpr fun i => (Bool.or_eq_false_iff.mp (hno i)).2]

/-- The scan that moves on at every row without a result. -/
lemma findSome?_finRange_eq_some {α : Type} {f : Fin n → Option α} {i : Fin n} {a : α}
    (hi : f i = some a) (hlt : ∀ j, j ≠ i → f j = none) :
    (List.finRange n).findSome? f = some a := by
  have hne : (List.finRange n).findSome? f ≠ none := by
    rw [Ne, List.findSome?_eq_none_iff]
    intro h
    exact absurd (h i (List.mem_finRange i)) (by simp [hi])
  obtain ⟨b, hb⟩ := Option.ne_none_iff_exists'.mp hne
  obtain ⟨j, -, hj⟩ := List.exists_of_findSome?_eq_some hb
  by_cases hji : j = i
  · rw [hji, hi] at hj
    rw [hb, hj]
  · rw [hlt j hji] at hj
    exact absurd hj (by simp)

/-- The scan ends at the first row with a result. -/
lemma findSome?_finRange_of_first {α : Type} {f : Fin n → Option α} {i : Fin n} {a : α}
    (hi : f i = some a) (hlt : ∀ j < i, f j = none) : (List.finRange n).findSome? f = some a := by
  have hfirst : (List.finRange n).find? (fun j => (f j).isSome) = some i :=
    find?_finRange_eq_some_iff.mpr ⟨by rw [hi]; rfl, fun j hj => by rw [hlt j hj]; rfl⟩
  obtain ⟨-, before, after, hsplit, hnone⟩ := List.find?_eq_some_iff_append.mp hfirst
  refine List.findSome?_eq_some_iff.mpr ⟨before, i, after, hsplit, hi, fun j hj => ?_⟩
  simpa using hnone j hj

end First

end NgMips
