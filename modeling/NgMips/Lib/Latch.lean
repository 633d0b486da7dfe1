import Mathlib.Data.List.Basic

/-!
# Latches

A history, newest event first, sets and clears a latch.  When the latch is open at the moment of
some event, then something cleared it after it was last set (`exists_clear`).
-/

namespace NgMips

variable {ε : Type} {sets clears : ε → Prop}

/-- The latch is set, and was not cleared since. -/
def Latched (sets clears : ε → Prop) : List ε → Prop
  | [] => False
  | e :: earlier => sets e ∨ (¬ clears e ∧ Latched sets clears earlier)

/-- What was set and not cleared is set. -/
lemma latched_of_sets {e : ε} {mid earlier : List ε} (he : sets e)
    (hmid : ∀ e' ∈ mid, ¬ clears e') : Latched sets clears (mid ++ e :: earlier) := by
  induction mid with
  | nil => exact .inl he
  | cons e' mid ih =>
      exact .inr ⟨hmid e' List.mem_cons_self, ih fun e he => hmid e (List.mem_cons_of_mem _ he)⟩

/-- A latch that was set and is open was cleared in between. -/
lemma exists_clear {e : ε} {mid earlier : List ε} (he : sets e)
    (h : ¬ Latched sets clears (mid ++ e :: earlier)) : ∃ e' ∈ mid, clears e' := by
  by_contra hno
  push Not at hno
  exact h (latched_of_sets he hno)

end NgMips
