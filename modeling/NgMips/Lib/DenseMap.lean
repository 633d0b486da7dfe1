import Mathlib.Data.List.Basic
import Mathlib.Data.List.Nodup
import Mathlib.Data.List.Perm.Basic

/-!
# A map kept in one vector

`DenseMap κ α` is a finite map whose elements live in one vector: a new key is appended,
and an element is erased by moving the last element into its place and shortening the
vector.  An element is therefore found at a position, and the position of an element changes
only when an erasure relocates the last one.  How a key is hashed is left out: all that depends
on it is the time a lookup takes.
-/

namespace NgMips

variable {β : Type}

/-- Erase position `i` of a vector by moving the last element there. -/
def swapErase (l : List β) (i : ℕ) : List β :=
  match l.getLast? with
  | none => []
  | some z => (l.set i z).dropLast

namespace swapErase

lemma append_singleton (l : List β) (z : β) {i : ℕ} (hi : i ≤ l.length) :
    swapErase (l ++ [z]) i = if i < l.length then l.set i z else l := by
  simp only [swapErase, List.getLast?_append, List.getLast?_singleton, Option.some_or]
  split
  · next h => rw [List.set_append_left _ _ h, List.dropLast_concat]
  · next h =>
      have hi' : i = l.length := by omega
      subst hi'
      rw [List.set_append_right _ _ (Nat.le_refl _)]
      simp

/-- The last element goes to position `i`; every other element stays. -/
lemma getElem? (l : List β) {i : ℕ} (hi : i < l.length) (j : ℕ) :
    (swapErase l i)[j]? =
      if j + 1 < l.length then if j = i then l.getLast? else l[j]? else none := by
  rcases List.eq_nil_or_concat l with rfl | ⟨l, z, rfl⟩
  · simp at hi
  · simp only [List.concat_eq_append, List.length_append, List.length_singleton] at hi ⊢
    rw [append_singleton l z (by omega)]
    by_cases hj : j < l.length
    · rw [if_pos (by omega : j + 1 < l.length + 1), List.getElem?_append_left hj]
      by_cases hij : j = i
      · subst hij
        simp [hj]
      · rw [if_neg hij]
        split
        · rw [List.getElem?_set_ne (fun h => hij h.symm)]
        · rfl
    · rw [if_neg (by omega : ¬ j + 1 < l.length + 1)]
      split <;> simp <;> omega

/-- Up to order, erasing is erasing. -/
lemma perm (l : List β) {i : ℕ} (hi : i < l.length) : (swapErase l i).Perm (l.eraseIdx i) := by
  rcases List.eq_nil_or_concat l with rfl | ⟨l, z, rfl⟩
  · simp at hi
  · simp only [List.concat_eq_append, List.length_append, List.length_singleton] at hi ⊢
    rw [append_singleton l z (by omega)]
    by_cases h : i < l.length
    · rw [if_pos h, List.eraseIdx_append_of_lt_length h, List.set_eq_take_cons_drop _ h,
        List.eraseIdx_eq_take_drop_succ]
      calc l.take i ++ z :: l.drop (i + 1)
          _ |>.Perm (z :: (l.take i ++ l.drop (i + 1))) := List.perm_middle
          _ |>.Perm (l.take i ++ l.drop (i + 1) ++ [z]) := (List.perm_append_singleton _ _).symm
    · have hi' : i = l.length := by omega
      subst hi'
      rw [if_neg h, List.eraseIdx_append_of_length_le (Nat.le_refl _)]
      simp

end swapErase

/-- A finite map in one vector; no key occurs twice. -/
structure DenseMap (κ α : Type) where
  values : List (κ × α)
  nodup : (values.map Prod.fst).Nodup

namespace DenseMap

variable {κ α : Type} (m : DenseMap κ α)

/-- The keys of the map, in the order of the vector. -/
def keys : List κ := m.values.map Prod.fst

def empty : DenseMap κ α := ⟨[], List.nodup_nil⟩

/-- Erase the element at position `i`. -/
def eraseAt (i : ℕ) : DenseMap κ α :=
  if h : i < m.values.length then ⟨swapErase m.values i, by
    have hperm := (swapErase.perm m.values h).map Prod.fst
    rw [hperm.nodup_iff]
    exact m.nodup.sublist ((List.eraseIdx_sublist m.values i).map Prod.fst)⟩
  else m

@[simp] lemma values_empty : (empty : DenseMap κ α).values = [] := rfl

@[simp] lemma keys_empty : (empty : DenseMap κ α).keys = [] := rfl

lemma mem_keys_iff {k : κ} : k ∈ m.keys ↔ ∃ a, (k, a) ∈ m.values := by
  simp [keys]

lemma mem_keys_of_mem {k : κ} {a : α} (h : (k, a) ∈ m.values) : k ∈ m.keys :=
  m.mem_keys_iff.mpr ⟨a, h⟩

/-- A key has one value. -/
lemma eq_of_mem {k : κ} {a b : α} (ha : (k, a) ∈ m.values) (hb : (k, b) ∈ m.values) :
    a = b := by
  have h := List.inj_on_of_nodup_map m.nodup ha hb rfl
  exact (Prod.mk.inj h).2

/-- Two positions that hold the same key are the same. -/
lemma index_unique {k : κ} {a b : α} {i j : ℕ} (hi : m.values[i]? = some (k, a))
    (hj : m.values[j]? = some (k, b)) : i = j := by
  have hi' : (m.values.map Prod.fst)[i]? = some k := by simp [hi]
  have hj' : (m.values.map Prod.fst)[j]? = some k := by simp [hj]
  obtain ⟨hil, -⟩ := List.getElem?_eq_some_iff.mp hi'
  exact (List.getElem?_inj hil m.nodup).mp (hi'.trans hj'.symm)

lemma values_eraseAt {i : ℕ} (h : i < m.values.length) :
    (m.eraseAt i).values = swapErase m.values i := by
  rw [eraseAt, dif_pos h]

variable [DecidableEq κ]

/-- The position of the element with key `k`. -/
def find (k : κ) : Option ℕ := m.values.findIdx? fun e => decide (e.1 = k)

/-- Inserting does nothing when the key is there. -/
def insert (k : κ) (a : α) : DenseMap κ α :=
  if h : k ∈ m.keys then m
  else ⟨m.values ++ [(k, a)], by
    rw [List.map_append, List.nodup_append]
    refine ⟨m.nodup, by simp, ?_⟩
    intro x hx y hy hxy
    simp only [List.map_cons, List.map_nil, List.mem_singleton] at hy
    exact h (by rw [keys]; rw [← hy, ← hxy]; exact hx)⟩

/-- Erase the element with key `k`. -/
def erase (k : κ) : DenseMap κ α :=
  match m.find k with
  | some i => m.eraseAt i
  | none => m

lemma find_eq_some_iff {k : κ} {i : ℕ} :
    m.find k = some i ↔ ∃ a, m.values[i]? = some (k, a) := by
  rw [find, List.findIdx?_eq_some_iff_getElem]
  constructor
  · rintro ⟨hi, hk, -⟩
    have hk' : m.values[i].1 = k := by simpa using hk
    exact ⟨m.values[i].2, by rw [List.getElem?_eq_getElem hi, ← hk']⟩
  · rintro ⟨a, ha⟩
    obtain ⟨hi, he⟩ := List.getElem?_eq_some_iff.mp ha
    refine ⟨hi, by simp [he], ?_⟩
    intro j hj
    have hjl : j < m.values.length := Nat.lt_trans hj hi
    simp only [decide_eq_true_eq]
    intro hk
    have hj' : m.values[j]? = some (k, m.values[j].2) := by
      rw [List.getElem?_eq_getElem hjl, ← hk]
    exact absurd (m.index_unique hj' ha) (by omega)

lemma find_eq_none_iff {k : κ} : m.find k = none ↔ k ∉ m.keys := by
  rw [find, List.findIdx?_eq_none_iff, mem_keys_iff]
  constructor
  · rintro h ⟨a, ha⟩
    simpa using h _ ha
  · intro h e he
    simp only [decide_eq_false_iff_not]
    rintro rfl
    exact h ⟨e.2, he⟩

lemma find_isSome_of_mem {k : κ} {a : α} (h : (k, a) ∈ m.values) : ∃ i, m.find k = some i := by
  cases hf : m.find k with
  | some i => exact ⟨i, rfl⟩
  | none => exact absurd (m.mem_keys_of_mem h) (m.find_eq_none_iff.mp hf)

/-- A lookup finds the element that is there. -/
lemma getElem?_of_find {k : κ} {a : α} {i : ℕ} (h : m.find k = some i)
    (hmem : (k, a) ∈ m.values) : m.values[i]? = some (k, a) := by
  obtain ⟨a', ha'⟩ := m.find_eq_some_iff.mp h
  rw [ha', m.eq_of_mem (List.mem_of_getElem? ha') hmem]

/-! ## Insertion -/

lemma insert_of_mem {k : κ} {a : α} (h : k ∈ m.keys) : m.insert k a = m := by
  rw [insert, dif_pos h]

lemma values_insert {k : κ} {a : α} (h : k ∉ m.keys) :
    (m.insert k a).values = m.values ++ [(k, a)] := by
  rw [insert, dif_neg h]

lemma mem_insert {k k' : κ} {a a' : α} (h : (k', a') ∈ (m.insert k a).values) :
    (k', a') ∈ m.values ∨ (k ∉ m.keys ∧ k' = k ∧ a' = a) := by
  by_cases hk : k ∈ m.keys
  · rw [m.insert_of_mem hk] at h
    exact .inl h
  · rw [m.values_insert hk, List.mem_append, List.mem_singleton] at h
    rcases h with h | h
    · exact .inl h
    · exact .inr ⟨hk, (Prod.mk.inj h).1, (Prod.mk.inj h).2⟩

lemma mem_insert_of_mem {k k' : κ} {a a' : α} (h : (k', a') ∈ m.values) :
    (k', a') ∈ (m.insert k a).values := by
  by_cases hk : k ∈ m.keys
  · rwa [m.insert_of_mem hk]
  · rw [m.values_insert hk]
    exact List.mem_append_left _ h

lemma mem_insert_self {k : κ} {a : α} (h : k ∉ m.keys) : (k, a) ∈ (m.insert k a).values := by
  rw [m.values_insert h]
  exact List.mem_append_right _ List.mem_cons_self

lemma mem_keys_insert {k k' : κ} {a : α} (h : k' ∈ (m.insert k a).keys) :
    k' ∈ m.keys ∨ k' = k := by
  obtain ⟨a', ha'⟩ := (mem_keys_iff _).mp h
  rcases m.mem_insert ha' with h | ⟨-, h, -⟩
  · exact .inl (m.mem_keys_of_mem h)
  · exact .inr h

/-! ## Erasure -/

/-- What is left after an erasure: everything but the erased key. -/
lemma mem_erase {k k' : κ} {a' : α} :
    (k', a') ∈ (m.erase k).values ↔ (k', a') ∈ m.values ∧ k' ≠ k := by
  cases hf : m.find k with
  | none =>
      rw [erase, hf]
      constructor
      · intro h
        refine ⟨h, ?_⟩
        rintro rfl
        exact m.find_eq_none_iff.mp hf (m.mem_keys_of_mem h)
      · exact And.left
  | some i =>
      obtain ⟨a, ha⟩ := m.find_eq_some_iff.mp hf
      obtain ⟨hi, hei⟩ := List.getElem?_eq_some_iff.mp ha
      rw [erase, hf]
      simp only [m.values_eraseAt hi, (swapErase.perm m.values hi).mem_iff,
        List.mem_eraseIdx_iff_getElem?]
      constructor
      · rintro ⟨j, hji, hj⟩
        refine ⟨List.mem_of_getElem? hj, ?_⟩
        rintro rfl
        exact hji (m.index_unique hj ha)
      · rintro ⟨hmem, hne⟩
        obtain ⟨j, hj⟩ := List.mem_iff_getElem?.mp hmem
        refine ⟨j, ?_, hj⟩
        rintro rfl
        rw [ha] at hj
        exact hne (Prod.mk.inj (Option.some.inj hj)).1.symm

lemma mem_keys_erase {k k' : κ} : k' ∈ (m.erase k).keys ↔ k' ∈ m.keys ∧ k' ≠ k := by
  rw [mem_keys_iff, mem_keys_iff]
  constructor
  · rintro ⟨a, ha⟩
    obtain ⟨h, hne⟩ := m.mem_erase.mp ha
    exact ⟨⟨a, h⟩, hne⟩
  · rintro ⟨⟨a, ha⟩, hne⟩
    exact ⟨a, m.mem_erase.mpr ⟨ha, hne⟩⟩

end DenseMap

end NgMips
