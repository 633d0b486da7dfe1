import Mathlib.Data.List.Basic

/-!
# Runs with their steps

A run is listed as its steps, each with the state it leads to.  What a step does is given by a
relation, and so is what is asked of it: both are `RunOf`.
-/

namespace NgMips

variable {ι σ γ : Type}

/-- The steps from a state, one after the other, are steps of the relation. -/
def RunOf (step : ι → σ → σ → Prop) : σ → List (ι × σ) → Prop
  | _, [] => True
  | s, (i, s') :: l => step i s s' ∧ RunOf step s' l

/-- When a step goes from a good state to a good one exactly when it is one of `keeps`, all
states of a run from a good one are good exactly when all steps are. -/
theorem RunOf.forall_iff {step keeps : ι → σ → σ → Prop} {I : σ → Prop}
    (hstep : ∀ i s s', I s → step i s s' → (I s' ↔ keeps i s s')) :
    ∀ {l : List (ι × σ)} {s : σ}, I s → RunOf step s l →
      ((∀ e ∈ l, I e.2) ↔ RunOf keeps s l)
  | [], _, _, _ => by simp [RunOf]
  | (i, s') :: l, s, hs, hrun => by
      rw [List.forall_mem_cons, RunOf, ← hstep i s s' hs hrun.1]
      exact and_congr_right fun hs' => forall_iff hstep hs' hrun.2

/-- When each step of a run keeps some part of the state exactly when it is one of `keeps`, all
states of the run have the part the first has exactly when all steps are. -/
theorem RunOf.forall_same_iff {step keeps : ι → σ → σ → Prop} {I : σ → Prop} {v : σ → γ}
    (hstep : ∀ i s s', I s → step i s s' → I s' ∧ (v s' = v s ↔ keeps i s s')) :
    ∀ {l : List (ι × σ)} {s : σ}, I s → RunOf step s l →
      ((∀ e ∈ l, v e.2 = v s) ↔ RunOf keeps s l)
  | [], _, _, _ => by simp [RunOf]
  | (i, s') :: l, s, hs, hrun => by
      obtain ⟨hs', hsame⟩ := hstep i s s' hs hrun.1
      rw [List.forall_mem_cons, RunOf, ← forall_same_iff hstep hs' hrun.2, ← hsame]
      refine and_congr_right fun hkept => ?_
      rw [hkept]

end NgMips
