import Mathlib.Logic.Basic
import Mathlib.Data.List.Basic

/-!
# Programs over a state that may stop

`Prog σ ε α` is a computation over a state of type `σ` that either returns a value of
type `α` or stops for good with a reason of type `ε`.  This file supplies the rules used to
reason about such programs: inversion of a successful run, runs that succeed (`Returns`),
properties that every successful run has (`Moves`), the reasons for which it stops (`Stops`),
also from the states an invariant holds in (`Guards`), parts of the state it does not look at
(`Commutes`, `Carries`, `Noninterfering`), lockstep simulation of one program by another (`Sim`),
and programs that run alike from the states an invariant holds in (`EqOn`, `AlikeOn`).

The last part describes programs by the operations they are made of.  `Built P` holds of
the programs obtained by sequencing operations that satisfy `P`; `Body Obs Raise Act` holds
of the programs that first only look at the state and then either raise or act.  A program
is shown to be of one of these forms once; each property of it then needs one lemma per
operation.
-/

namespace NgMips

/-- A computation over a state that returns a value or stops. -/
abbrev Prog (σ ε α : Type) : Type := StateT σ (Except ε) α

namespace Prog

variable {σ ε α β : Type}

/-! ## Successful runs -/

@[simp] lemma pure_run (a : α) (s : σ) : (pure a : Prog σ ε α) s = .ok (a, s) := rfl

@[simp] lemma modify_run (f : σ → σ) (s : σ) :
    (modify f : Prog σ ε PUnit) s = .ok (⟨⟩, f s) := rfl

@[simp] lemma throw_run (e : ε) (s : σ) : (throw e : Prog σ ε α) s = .error e := rfl

/-- What a run returns and the state it ends in are known from its result. -/
lemma ok_inj {a b : α} {s t : σ} (h : (.ok (a, s) : Except ε (α × σ)) = .ok (b, t)) :
    a = b ∧ s = t :=
  Prod.mk.inj (Except.ok.inj h)

lemma state_eq {a b : α} {s t : σ} (h : (.ok (a, s) : Except ε (α × σ)) = .ok (b, t)) : s = t :=
  (ok_inj h).2

lemma ok_ne_error {r : α × σ} {e : ε} : (.ok r : Except ε (α × σ)) ≠ .error e := by
  intro h
  cases h

lemma bind_run (x : Prog σ ε α) (f : α → Prog σ ε β) (s : σ) :
    (x >>= f) s = (x s).bind fun r => f r.1 r.2 := rfl

/-- A sequence succeeds when both of its parts do. -/
lemma bind_ok {x : Prog σ ε α} {f : α → Prog σ ε β} {s : σ} {r : β × σ} :
    (x >>= f) s = .ok r ↔ ∃ a s', x s = .ok (a, s') ∧ f a s' = .ok r := by
  rw [bind_run]
  cases x s with
  | error e => simp [Except.bind]
  | ok p =>
      obtain ⟨a, s'⟩ := p
      simp [Except.bind]

/-- A sequence fails when one of its parts does. -/
lemma bind_error {x : Prog σ ε α} {f : α → Prog σ ε β} {s : σ} {e : ε} :
    (x >>= f) s = .error e ↔
      x s = .error e ∨ ∃ a s', x s = .ok (a, s') ∧ f a s' = .error e := by
  rw [bind_run]
  cases x s with
  | error e' => simp [Except.bind]
  | ok p =>
      obtain ⟨a, s'⟩ := p
      simp [Except.bind]

lemma bind_of_ok {x : Prog σ ε α} {f : α → Prog σ ε β} {s s' : σ} {a : α}
    (h : x s = .ok (a, s')) : (x >>= f) s = f a s' := by
  rw [bind_run, h]
  rfl

/-- A sequence depends on the run of its first part only. -/
lemma bind_eq_of_run {x y : Prog σ ε α} {f : α → Prog σ ε β} {s t : σ} (h : x s = y t) :
    (x >>= f) s = (y >>= f) t := by
  rw [bind_run, bind_run, h]

/-- Run a program a number of times. -/
def times (x : Prog σ ε Unit) : ℕ → Prog σ ε Unit
  | 0 => pure ()
  | n + 1 => do
      x
      times x n

lemma times_succ {x : Prog σ ε Unit} {s s' : σ} (h : x s = .ok ((), s')) (n : ℕ) :
    times x (n + 1) s = times x n s' := bind_of_ok h

/-! ## Runs that succeed -/

/-- The program returns from `s`, with a value and in a state that satisfy `Q`. -/
def Returns (x : Prog σ ε α) (s : σ) (Q : α → σ → Prop) : Prop :=
  ∃ a s', x s = .ok (a, s') ∧ Q a s'

namespace Returns

variable {x : Prog σ ε α} {s : σ} {Q : α → σ → Prop}

lemma of_ok {a : α} {s' : σ} (h : x s = .ok (a, s')) (hQ : Q a s') : Returns x s Q :=
  ⟨a, s', h, hQ⟩

lemma of_pure {a : α} (h : Q a s) : Returns (pure a : Prog σ ε α) s Q := .of_ok rfl h

lemma of_modify {f : σ → σ} {Q : PUnit → σ → Prop} (h : Q ⟨⟩ (f s)) :
    Returns (modify f : Prog σ ε PUnit) s Q := .of_ok rfl h

lemma mono {P : α → σ → Prop} (hx : Returns x s Q) (h : ∀ a s', Q a s' → P a s') :
    Returns x s P := by
  obtain ⟨a, s', hrun, hQ⟩ := hx
  exact ⟨a, s', hrun, h a s' hQ⟩

lemma bind {f : α → Prog σ ε β} {P : β → σ → Prop} (hx : Returns x s Q)
    (hf : ∀ a t, Q a t → Returns (f a) t P) : Returns (x >>= f) s P := by
  obtain ⟨a, t, hrun, hQ⟩ := hx
  obtain ⟨b, s', hrun', hP⟩ := hf a t hQ
  exact ⟨b, s', (bind_of_ok hrun).trans hrun', hP⟩

/-- A first part whose run is known. -/
lemma bind_ok {f : α → Prog σ ε β} {P : β → σ → Prop} {a : α} {t : σ} (h : x s = .ok (a, t))
    (hf : Returns (f a) t P) : Returns (x >>= f) s P :=
  (of_ok (Q := fun b u => b = a ∧ u = t) h ⟨rfl, rfl⟩).bind fun _ _ hbu => by
    obtain ⟨rfl, rfl⟩ := hbu
    exact hf

section Lists

variable {γ : Type}

lemma foldlM {f : α → γ → Prog σ ε α} (hf : ∀ a c s, Returns (f a c) s fun _ _ => True) :
    ∀ (l : List γ) (a : α) (s : σ), Returns (l.foldlM f a) s fun _ _ => True
  | [], _, _ => .of_pure trivial
  | c :: l, a, s => by
      rw [List.foldlM_cons]
      exact (hf a c s).bind fun b t _ => foldlM hf l b t

lemma forM {f : γ → Prog σ ε PUnit} (hf : ∀ c s, Returns (f c) s fun _ _ => True) :
    ∀ (l : List γ) (s : σ), Returns (ForM.forM l f) s fun _ _ => True
  | [], _ => .of_pure trivial
  | c :: l, s => by
      rw [List.forM_cons]
      exact (hf c s).bind fun _ t _ => forM hf l t

end Lists

end Returns

/-! ## What every successful run does -/

/-- Every successful run of `x` relates its first state to its last one by `R`. -/
def Moves (R : σ → σ → Prop) (x : Prog σ ε α) : Prop :=
  ∀ s a s', x s = .ok (a, s') → R s s'

namespace Moves

variable {R : σ → σ → Prop}

lemma of_pure (hrefl : ∀ s, R s s) (a : α) : Moves R (pure a : Prog σ ε α) := by
  intro s b s' h
  simp only [pure_run, Except.ok.injEq, Prod.mk.injEq] at h
  exact h.2 ▸ hrefl s

/-- A program that reads the state leaves it alone. -/
lemma of_read (hrefl : ∀ s, R s s) (v : σ → α) :
    Moves R (fun s => .ok (v s, s) : Prog σ ε α) := by
  intro s a s' h
  obtain rfl := state_eq h
  exact hrefl s

lemma of_throw (e : ε) : Moves R (throw e : Prog σ ε α) := by
  intro s a s' h
  simp at h

lemma of_modify {f : σ → σ} (h : ∀ s, R s (f s)) : Moves R (modify f : Prog σ ε PUnit) := by
  intro s a s' hs
  simp only [modify_run, Except.ok.injEq, Prod.mk.injEq] at hs
  exact hs.2 ▸ h s

lemma bind (htrans : ∀ s t u, R s t → R t u → R s u) {x : Prog σ ε α}
    {f : α → Prog σ ε β} (hx : Moves R x) (hf : ∀ a, Moves R (f a)) : Moves R (x >>= f) := by
  intro s b s' h
  obtain ⟨a, t, h₁, h₂⟩ := bind_ok.mp h
  exact htrans s t s' (hx s a t h₁) (hf a t b s' h₂)

lemma mono {S : σ → σ → Prop} (h : ∀ s t, R s t → S s t) {x : Prog σ ε α}
    (hx : Moves R x) : Moves S x :=
  fun s a s' hs => h s s' (hx s a s' hs)

/-- A relation on last states only needs to hold of the last part. -/
lemma bind_last (hlast : ∀ s t u, R t u → R s u) {x : Prog σ ε α} {f : α → Prog σ ε β}
    (hf : ∀ a, Moves R (f a)) : Moves R (x >>= f) := by
  intro s b s' h
  obtain ⟨a, t, -, h₂⟩ := bind_ok.mp h
  exact hlast s t s' (hf a t b s' h₂)

section Lists

variable {γ : Type} (hrefl : ∀ s, R s s) (htrans : ∀ s t u, R s t → R t u → R s u)

include hrefl htrans

lemma foldlM {f : α → γ → Prog σ ε α} :
    ∀ (l : List γ), (∀ a, ∀ c ∈ l, Moves R (f a c)) → ∀ a, Moves R (l.foldlM f a)
  | [], _, a => of_pure hrefl a
  | c :: l, hf, a => by
      rw [List.foldlM_cons]
      exact .bind htrans (hf a c List.mem_cons_self) fun b =>
        foldlM l (fun a c hc => hf a c (.tail _ hc)) b

lemma forM {f : γ → Prog σ ε PUnit} :
    ∀ (l : List γ), (∀ c ∈ l, Moves R (f c)) → Moves R (ForM.forM l f)
  | [], _ => of_pure hrefl _
  | c :: l, hf => by
      rw [List.forM_cons]
      exact .bind htrans (hf c List.mem_cons_self) fun _ => forM l fun c hc => hf c (.tail _ hc)

end Lists

end Moves

/-! ## Lockstep simulation -/

/-- From states related by `R`, a successful run of `x` is matched by a successful run of
`y` with the same value, and the last states are related again. -/
def Sim (R : σ → σ → Prop) (x y : Prog σ ε α) : Prop :=
  ∀ s t, R s t → ∀ a s', x s = .ok (a, s') → ∃ t', y t = .ok (a, t') ∧ R s' t'

namespace Sim

variable {R : σ → σ → Prop}

lemma of_pure (a : α) : Sim R (pure a : Prog σ ε α) (pure a) := by
  intro s t h b s' hs
  simp only [pure_run, Except.ok.injEq, Prod.mk.injEq] at hs
  obtain ⟨rfl, rfl⟩ := hs
  exact ⟨t, rfl, h⟩

lemma of_throw (e : ε) (y : Prog σ ε α) : Sim R (throw e : Prog σ ε α) y := by
  intro s t _ a s' hs
  simp at hs

lemma of_modify {f g : σ → σ} (h : ∀ s t, R s t → R (f s) (g t)) :
    Sim R (modify f : Prog σ ε PUnit) (modify g) := by
  intro s t hst a s' hs
  simp only [modify_run, Except.ok.injEq, Prod.mk.injEq] at hs
  obtain ⟨-, rfl⟩ := hs
  exact ⟨g t, rfl, h s t hst⟩

/-- A program that reads the state and leaves it alone, when the relation forces the two
sides to read the same. -/
lemma of_read {v : σ → α} (h : ∀ s t, R s t → v s = v t) :
    Sim R (fun s => .ok (v s, s) : Prog σ ε α) (fun s => .ok (v s, s)) := by
  intro s t hst a s' hs
  simp only [Except.ok.injEq, Prod.mk.injEq] at hs
  obtain ⟨rfl, rfl⟩ := hs
  exact ⟨t, by rw [h s t hst], hst⟩

lemma bind {x y : Prog σ ε α} {f g : α → Prog σ ε β} (hx : Sim R x y)
    (hf : ∀ a, Sim R (f a) (g a)) : Sim R (x >>= f) (y >>= g) := by
  intro s t hst b s' h
  obtain ⟨a, s₁, h₁, h₂⟩ := bind_ok.mp h
  obtain ⟨t₁, ht₁, hst₁⟩ := hx s t hst a s₁ h₁
  obtain ⟨t₂, ht₂, hst₂⟩ := hf a s₁ t₁ hst₁ b s' h₂
  exact ⟨t₂, bind_ok.mpr ⟨a, t₁, ht₁, ht₂⟩, hst₂⟩

end Sim

/-! ## Equal programs under an invariant -/

/-- From a state that satisfies `I` the two programs run alike.  A successful run keeps `I`
and its value satisfies `Q`. -/
def EqOn (I : σ → Prop) (Q : α → Prop) (x y : Prog σ ε α) : Prop :=
  ∀ s, I s → y s = x s ∧ ∀ a s', x s = .ok (a, s') → I s' ∧ Q a

/-- A successful run of `x` keeps `I` and its value satisfies `Q`. -/
abbrev Keeps (I : σ → Prop) (Q : α → Prop) (x : Prog σ ε α) : Prop := EqOn I Q x x

namespace EqOn

variable {I : σ → Prop} {Q : α → Prop}

lemma of_pure {a : α} (h : Q a) : EqOn I Q (pure a : Prog σ ε α) (pure a) := by
  intro s hs
  refine ⟨rfl, fun b s' hrun => ?_⟩
  obtain ⟨rfl, rfl⟩ := ok_inj hrun
  exact ⟨hs, h⟩

lemma of_throw (e : ε) : EqOn I Q (throw e : Prog σ ε α) (throw e) := by
  intro s _
  exact ⟨rfl, fun b s' hrun => absurd hrun (by simp)⟩

lemma of_modify {f : σ → σ} (h : ∀ s, I s → I (f s)) :
    EqOn I (fun _ => True) (modify f : Prog σ ε PUnit) (modify f) := by
  intro s hs
  refine ⟨rfl, fun b s' hrun => ?_⟩
  obtain rfl := state_eq hrun
  exact ⟨h s hs, trivial⟩

/-- A program whose runs keep the invariant runs like itself. -/
lemma of_moves {R : σ → σ → Prop} (hR : ∀ s s', R s s' → I s → I s') {x : Prog σ ε α}
    (hx : Moves R x) : EqOn I (fun _ => True) x x := by
  intro s hs
  exact ⟨rfl, fun a s' hrun => ⟨hR s s' (hx s a s' hrun) hs, trivial⟩⟩

lemma bind {P : β → Prop} {x y : Prog σ ε α} {f g : α → Prog σ ε β} (hx : EqOn I Q x y)
    (hf : ∀ a, Q a → EqOn I P (f a) (g a)) : EqOn I P (x >>= f) (y >>= g) := by
  intro s hs
  obtain ⟨heq, hrun⟩ := hx s hs
  rw [bind_run, bind_run, heq]
  cases hxs : x s with
  | error e => exact ⟨rfl, fun b s' h => absurd h (by simp [Except.bind])⟩
  | ok r =>
      obtain ⟨hI, hQ⟩ := hrun r.1 r.2 hxs
      exact hf r.1 hQ r.2 hI

lemma mono {P : α → Prop} (h : ∀ a, Q a → P a) {x y : Prog σ ε α} (hx : EqOn I Q x y) :
    EqOn I P x y := by
  intro s hs
  exact ⟨(hx s hs).1, fun a s' hrun => ⟨((hx s hs).2 a s' hrun).1, h a ((hx s hs).2 a s' hrun).2⟩⟩

lemma foldlM {γ : Type} {f g : α → γ → Prog σ ε α}
    (hf : ∀ a c, EqOn I (fun _ => True) (f a c) (g a c)) :
    ∀ (l : List γ) (a : α), EqOn I (fun _ => True) (l.foldlM f a) (l.foldlM g a)
  | [], a => of_pure trivial
  | c :: l, a => by
      rw [List.foldlM_cons, List.foldlM_cons]
      exact (hf a c).bind fun b _ => foldlM hf l b

lemma forM {γ : Type} {f g : γ → Prog σ ε PUnit}
    (hf : ∀ c, EqOn I (fun _ => True) (f c) (g c)) :
    ∀ l : List γ, EqOn I (fun _ => True) (ForM.forM l f) (ForM.forM l g)
  | [] => of_pure trivial
  | c :: l => by
      rw [List.forM_cons, List.forM_cons]
      exact (hf c).bind fun _ _ => forM hf l

end EqOn

/-- From a state that satisfies `I` the two programs both stop for the same reason, or both
succeed in states with the same view.  A successful run of the first keeps `I`. -/
def AlikeOn {γ : Type} (I : σ → Prop) (view : σ → γ) (x y : Prog σ ε Unit) : Prop :=
  ∀ s, I s → (y s).map (fun r => view r.2) = (x s).map (fun r => view r.2) ∧
    ∀ s', x s = .ok ((), s') → I s'

namespace AlikeOn

variable {γ : Type} {I : σ → Prop} {view : σ → γ}

lemma of_eqOn {Q : Unit → Prop} {x y : Prog σ ε Unit} (h : EqOn I Q x y) :
    AlikeOn I view x y := by
  intro s hs
  exact ⟨by rw [(h s hs).1], fun s' hrun => ((h s hs).2 () s' hrun).1⟩

/-- Alike programs may follow equal ones. -/
lemma bind {Q : α → Prop} {x y : Prog σ ε α} {f g : α → Prog σ ε Unit} (hx : EqOn I Q x y)
    (hf : ∀ a, Q a → AlikeOn I view (f a) (g a)) : AlikeOn I view (x >>= f) (y >>= g) := by
  intro s hs
  obtain ⟨heq, hrun⟩ := hx s hs
  rw [bind_run, bind_run, heq]
  cases hxs : x s with
  | error e => exact ⟨rfl, fun s' h => absurd h (by simp [Except.bind])⟩
  | ok r =>
      obtain ⟨hI, hQ⟩ := hrun r.1 r.2 hxs
      exact hf r.1 hQ r.2 hI

end AlikeOn

/-! ## Reasons to stop -/

/-- Every run of `x` that stops does so for a reason that satisfies `E`. -/
def Stops (E : ε → Prop) (x : Prog σ ε α) : Prop := ∀ s e, x s = .error e → E e

namespace Stops

variable {E : ε → Prop}

lemma of_pure (a : α) : Stops E (pure a : Prog σ ε α) := by
  intro s e h
  exact absurd h (by simp)

/-- A program that always returns does not stop. -/
lemma of_ok {x : Prog σ ε α} (h : ∀ s, ∃ r, x s = .ok r) : Stops E x := by
  intro s e he
  obtain ⟨r, hr⟩ := h s
  exact absurd (hr.symm.trans he) ok_ne_error

lemma of_throw {e : ε} (h : E e) : Stops E (throw e : Prog σ ε α) := by
  intro s e' hs
  obtain rfl := Except.error.inj hs
  exact h

lemma of_modify (f : σ → σ) : Stops E (modify f : Prog σ ε PUnit) := by
  intro s e h
  exact absurd h (by simp)

lemma bind {x : Prog σ ε α} {f : α → Prog σ ε β} (hx : Stops E x) (hf : ∀ a, Stops E (f a)) :
    Stops E (x >>= f) := by
  intro s e h
  rw [bind_run] at h
  cases hxs : x s with
  | error e' =>
      rw [hxs] at h
      exact Except.error.inj h ▸ hx s e' hxs
  | ok r =>
      rw [hxs] at h
      exact hf r.1 r.2 e h

end Stops

/-- From a state that satisfies `I`, the program stops for reasons that satisfy `E` only, and a
successful run keeps `I`. -/
structure Guards (I : σ → Prop) (E : ε → Prop) (x : Prog σ ε α) : Prop where
  stops : ∀ s e, I s → x s = .error e → E e
  keeps : ∀ s a s', I s → x s = .ok (a, s') → I s'

namespace Guards

variable {I : σ → Prop} {E : ε → Prop}

lemma of_pure (a : α) : Guards I E (pure a : Prog σ ε α) where
  stops _ _ _ h := absurd h ok_ne_error
  keeps _ _ _ hs h := state_eq h ▸ hs

/-- A program that does not stop. -/
lemma of_total {x : Prog σ ε α} (htotal : ∀ s, ∃ r, x s = .ok r)
    (hkeeps : ∀ s a s', I s → x s = .ok (a, s') → I s') : Guards I E x where
  stops s e _ h := Stops.of_ok htotal s e h
  keeps := hkeeps

lemma of_throw {e : ε} (h : E e) : Guards I E (throw e : Prog σ ε α) where
  stops _ _ _ he := Except.error.inj he ▸ h
  keeps _ _ _ _ hrun := absurd hrun.symm ok_ne_error

lemma of_modify {f : σ → σ} (h : ∀ s, I s → I (f s)) :
    Guards I E (modify f : Prog σ ε PUnit) :=
  of_total (fun _ => ⟨_, rfl⟩) fun s _ _ hs hrun => state_eq hrun ▸ h s hs

lemma of_read (v : σ → α) : Guards I E (fun s => .ok (v s, s) : Prog σ ε α) :=
  of_total (fun _ => ⟨_, rfl⟩) fun _ _ _ hs hrun => state_eq hrun ▸ hs

lemma bind {x : Prog σ ε α} {f : α → Prog σ ε β} (hx : Guards I E x)
    (hf : ∀ a, Guards I E (f a)) : Guards I E (x >>= f) where
  stops s e hs h := by
    rcases bind_error.mp h with hfirst | ⟨a, t, hfirst, hsecond⟩
    · exact hx.stops s e hs hfirst
    · exact (hf a).stops t e (hx.keeps s a t hs hfirst) hsecond
  keeps s b s' hs h := by
    obtain ⟨a, t, hfirst, hsecond⟩ := bind_ok.mp h
    exact (hf a).keeps t b s' (hx.keeps s a t hs hfirst) hsecond

end Guards

/-! ## Parts of the state that are not looked at -/

/-- The program runs from a changed state as it does from the state itself, and the change is
carried along. -/
def Commutes (c : σ → σ) (x : Prog σ ε α) : Prop :=
  ∀ s, x (c s) = (x s).map fun r => (r.1, c r.2)

namespace Commutes

variable {c : σ → σ}

lemma of_pure (a : α) : Commutes c (pure a : Prog σ ε α) := fun _ => rfl

lemma of_throw (e : ε) : Commutes c (throw e : Prog σ ε α) := fun _ => rfl

lemma of_modify {f : σ → σ} (h : ∀ s, f (c s) = c (f s)) :
    Commutes c (modify f : Prog σ ε PUnit) := by
  intro s
  rw [modify_run, modify_run, h]
  rfl

lemma bind {x : Prog σ ε α} {f : α → Prog σ ε β} (hx : Commutes c x)
    (hf : ∀ a, Commutes c (f a)) : Commutes c (x >>= f) := by
  intro s
  rw [bind_run, bind_run, hx]
  cases x s with
  | error e => rfl
  | ok r => exact hf r.1 r.2

end Commutes

/-- From the changed state, the second program runs as the first one does from the state itself, and
the change is carried along. -/
def Carries (c : σ → σ) (x y : Prog σ ε α) (s : σ) : Prop :=
  y (c s) = (x s).map fun r => (r.1, c r.2)

namespace Carries

variable {c : σ → σ} {s : σ}

lemma of_commutes {x : Prog σ ε α} (h : Commutes c x) : Carries c x x s := h s

lemma of_pure (a : α) : Carries c (pure a : Prog σ ε α) (pure a) s := rfl

lemma of_throw (e : ε) : Carries c (throw e : Prog σ ε α) (throw e) s := rfl

lemma of_modify {f g : σ → σ} (h : g (c s) = c (f s)) :
    Carries c (modify f : Prog σ ε PUnit) (modify g) s := by
  rw [Carries, modify_run, modify_run, h]
  rfl

/-- Programs that run alike carry no change. -/
lemma of_eq {x y : Prog σ ε α} (h : y s = x s) : Carries id x y s := by
  rw [Carries, id_eq, h]
  cases x s <;> rfl

/-- The second parts only run where the first ones lead. -/
lemma bind {x y : Prog σ ε α} {f g : α → Prog σ ε β} (hx : Carries c x y s)
    (hf : ∀ a t, x s = .ok (a, t) → Carries c (f a) (g a) t) :
    Carries c (x >>= f) (y >>= g) s := by
  rw [Carries, bind_run, bind_run, hx]
  cases hxs : x s with
  | error e => rfl
  | ok r => exact hf r.1 r.2 hxs

end Carries

/-- What a run shows through a view of the state depends on what the view shows of the first
state only. -/
def Noninterfering {γ : Type} (v : σ → γ) (x : Prog σ ε α) : Prop :=
  ∀ s t, v s = v t → (x s).map (fun r => (r.1, v r.2)) = (x t).map (fun r => (r.1, v r.2))

namespace Noninterfering

variable {γ : Type} {v : σ → γ}

lemma of_pure (a : α) : Noninterfering v (pure a : Prog σ ε α) := by
  intro s t h
  exact congrArg (fun c => Except.ok (a, c)) h

lemma of_throw (e : ε) : Noninterfering v (throw e : Prog σ ε α) := fun _ _ _ => rfl

lemma of_modify {f : σ → σ} (h : ∀ s t, v s = v t → v (f s) = v (f t)) :
    Noninterfering v (modify f : Prog σ ε PUnit) := by
  intro s t hst
  rw [modify_run, modify_run, Except.map, Except.map, h s t hst]

/-- A program that only looks at what the view shows. -/
lemma of_read {f : σ → α} (h : ∀ s t, v s = v t → f s = f t) :
    Noninterfering v (fun s => .ok (f s, s) : Prog σ ε α) := by
  intro s t hst
  change Except.ok (f s, v s) = Except.ok (f t, v t)
  rw [h s t hst, hst]

/-- A program that runs from the view of a state as it does from the state. -/
lemma of_commutes {w : σ → σ} {x : Prog σ ε α} (h : Commutes w x) : Noninterfering w x := by
  intro s t hst
  rw [← h, ← h, hst]

/-- A change that is carried along can be made before the view is taken. -/
lemma comp {c : σ → σ} {x : Prog σ ε α} (hv : Noninterfering v x) (hc : Commutes c x) :
    Noninterfering (fun s => v (c s)) x := by
  intro s t hst
  have hboth := hv (c s) (c t) hst
  have hmap : ∀ s, (x (c s)).map (fun r => (r.1, v r.2)) =
      (x s).map fun r => (r.1, v (c r.2)) := by
    intro s
    rw [hc]
    cases x s <;> rfl
  rwa [hmap, hmap] at hboth

lemma bind {x : Prog σ ε α} {f : α → Prog σ ε β} (hx : Noninterfering v x)
    (hf : ∀ a, Noninterfering v (f a)) : Noninterfering v (x >>= f) := by
  intro s t hst
  have hfirst := hx s t hst
  rw [bind_run, bind_run]
  cases hxs : x s with
  | error e =>
      cases hxt : x t with
      | error e' =>
          rw [hxs, hxt] at hfirst
          obtain rfl := Except.error.inj hfirst
          rfl
      | ok r => exact absurd (hxs ▸ hxt ▸ hfirst) (by simp [Except.map])
  | ok r =>
      obtain ⟨a, u⟩ := r
      cases hxt : x t with
      | error e => exact absurd (hxs ▸ hxt ▸ hfirst) (by simp [Except.map])
      | ok r' =>
          obtain ⟨a', u'⟩ := r'
          rw [hxs, hxt] at hfirst
          obtain ⟨rfl, hview⟩ := ok_inj hfirst
          exact hf a u u' hview

end Noninterfering

/-! ## Programs made of given operations -/

/-- The programs obtained by sequencing operations that satisfy `P`. -/
inductive Built (P : (α : Type) → Prog σ ε α → Prop) : {α : Type} → Prog σ ε α → Prop
  /-- A single operation. -/
  | op {α : Type} {x : Prog σ ε α} (h : P α x) : Built P x
  /-- No operation at all. -/
  | pure {α : Type} (a : α) : Built P (Pure.pure a)
  /-- One program after the other. -/
  | bind {α β : Type} {x : Prog σ ε α} {f : α → Prog σ ε β} (hx : Built P x)
      (hf : ∀ a, Built P (f a)) : Built P (x >>= f)

namespace Built

variable {P Q : (α : Type) → Prog σ ε α → Prop}

lemma mono (h : ∀ (α : Type) (x : Prog σ ε α), P α x → Q α x) {x : Prog σ ε α}
    (hx : Built P x) : Built Q x := by
  induction hx with
  | op hop => exact .op (h _ _ hop)
  | pure a => exact .pure a
  | bind _ _ ihx ihf => exact .bind ihx ihf

/-- Operations that are programs themselves are taken apart. -/
lemma refine (h : ∀ (α : Type) (x : Prog σ ε α), P α x → Built Q x) {x : Prog σ ε α}
    (hx : Built P x) : Built Q x := by
  induction hx with
  | op hop => exact h _ _ hop
  | pure a => exact .pure a
  | bind _ _ ihx ihf => exact .bind ihx ihf

/-- Folding over a list runs one program for each of its elements. -/
lemma foldlM {γ : Type} {f : α → γ → Prog σ ε α} (hf : ∀ a c, Built P (f a c)) :
    ∀ (l : List γ) (a : α), Built P (l.foldlM f a)
  | [], a => .pure a
  | c :: l, a => by
      rw [List.foldlM_cons]
      exact .bind (hf a c) fun b => foldlM hf l b

lemma forM {γ : Type} {f : γ → Prog σ ε PUnit} (hf : ∀ c, Built P (f c)) :
    ∀ l : List γ, Built P (ForM.forM l f)
  | [] => .pure _
  | c :: l => by
      rw [List.forM_cons]
      exact .bind (hf c) fun _ => forM hf l

/-- A reflexive and transitive relation that every operation respects is respected by
every program made of them. -/
lemma moves {R : σ → σ → Prop} (hrefl : ∀ s, R s s)
    (htrans : ∀ s t u, R s t → R t u → R s u)
    (hP : ∀ (α : Type) (x : Prog σ ε α), P α x → Moves R x) {x : Prog σ ε α}
    (hx : Built P x) : Moves R x := by
  induction hx with
  | op hop => exact hP _ _ hop
  | pure a => exact .of_pure hrefl a
  | bind _ _ ihx ihf => exact .bind htrans ihx ihf

lemma stops {E : ε → Prop} (hP : ∀ (α : Type) (x : Prog σ ε α), P α x → Stops E x)
    {x : Prog σ ε α} (hx : Built P x) : Stops E x := by
  induction hx with
  | op hop => exact hP _ _ hop
  | pure a => exact .of_pure a
  | bind _ _ ihx ihf => exact .bind ihx ihf

lemma guards {I : σ → Prop} {E : ε → Prop}
    (hP : ∀ (α : Type) (x : Prog σ ε α), P α x → Guards I E x) {x : Prog σ ε α}
    (hx : Built P x) : Guards I E x := by
  induction hx with
  | op hop => exact hP _ _ hop
  | pure a => exact .of_pure a
  | bind _ _ ihx ihf => exact .bind ihx ihf

lemma commutes {c : σ → σ} (hP : ∀ (α : Type) (x : Prog σ ε α), P α x → Commutes c x)
    {x : Prog σ ε α} (hx : Built P x) : Commutes c x := by
  induction hx with
  | op hop => exact hP _ _ hop
  | pure a => exact .of_pure a
  | bind _ _ ihx ihf => exact .bind ihx ihf

/-- A relation for which every operation simulates itself is one for which every program
made of them does. -/
lemma sim {R : σ → σ → Prop} (hP : ∀ (α : Type) (x : Prog σ ε α), P α x → Sim R x x)
    {x : Prog σ ε α} (hx : Built P x) : Sim R x x := by
  induction hx with
  | op hop => exact hP _ _ hop
  | pure a => exact .of_pure a
  | bind _ _ ihx ihf => exact .bind ihx ihf

lemma noninterfering {γ : Type} {v : σ → γ}
    (hP : ∀ (α : Type) (x : Prog σ ε α), P α x → Noninterfering v x) {x : Prog σ ε α}
    (hx : Built P x) : Noninterfering v x := by
  induction hx with
  | op hop => exact hP _ _ hop
  | pure a => exact .of_pure a
  | bind _ _ ihx ihf => exact .bind ihx ihf

end Built

/-! ## Programs that look, then raise or act -/

/-- The programs that run operations satisfying `Obs` and end either with one that
satisfies `Raise` or with one that satisfies `Act`. -/
inductive Body (Obs : (α : Type) → Prog σ ε α → Prop) (Raise Act : Prog σ ε Unit → Prop) :
    Prog σ ε Unit → Prop
  /-- Look at the state and continue. -/
  | look {α : Type} {x : Prog σ ε α} {f : α → Prog σ ε Unit} (hx : Obs α x)
      (hf : ∀ a, Body Obs Raise Act (f a)) : Body Obs Raise Act (x >>= f)
  /-- Raise and end. -/
  | raise {x : Prog σ ε Unit} (h : Raise x) : Body Obs Raise Act x
  /-- Act and end. -/
  | act {x : Prog σ ε Unit} (h : Act x) : Body Obs Raise Act x

namespace Body

variable {Obs : (α : Type) → Prog σ ε α → Prop} {Raise Act : Prog σ ε Unit → Prop}

/-- When looking changes nothing, a successful run of a body is a run, from the same
state, of the program it raises or acts with. -/
lemma cases_run (hObs : ∀ (α : Type) (x : Prog σ ε α), Obs α x → Moves Eq x)
    {x : Prog σ ε Unit} (hx : Body Obs Raise Act x) {s s' : σ} (h : x s = .ok ((), s')) :
    (∃ y, Raise y ∧ y s = .ok ((), s')) ∨ (∃ y, Act y ∧ y s = .ok ((), s')) := by
  induction hx with
  | look hop _ ih =>
      obtain ⟨a, t, h₁, h₂⟩ := bind_ok.mp h
      obtain rfl := hObs _ _ hop s a t h₁
      exact ih a h₂
  | raise hr => exact .inl ⟨_, hr, h⟩
  | act ha => exact .inr ⟨_, ha, h⟩

/-- A relation that looking, raising and acting respect is respected by the body. -/
lemma moves {R : σ → σ → Prop} (htrans : ∀ s t u, R s t → R t u → R s u)
    (hObs : ∀ (α : Type) (x : Prog σ ε α), Obs α x → Moves R x)
    (hRaise : ∀ x, Raise x → Moves R x) (hAct : ∀ x, Act x → Moves R x)
    {x : Prog σ ε Unit} (hx : Body Obs Raise Act x) : Moves R x := by
  induction hx with
  | look hop _ ih => exact .bind htrans (hObs _ _ hop) ih
  | raise hr => exact hRaise _ hr
  | act ha => exact hAct _ ha

/-- A relation for which looking, raising and acting simulate themselves is one for which
the body does. -/
lemma sim {R : σ → σ → Prop} (hObs : ∀ (α : Type) (x : Prog σ ε α), Obs α x → Sim R x x)
    (hRaise : ∀ x, Raise x → Sim R x x) (hAct : ∀ x, Act x → Sim R x x)
    {x : Prog σ ε Unit} (hx : Body Obs Raise Act x) : Sim R x x := by
  induction hx with
  | look hop _ ih => exact .bind (hObs _ _ hop) ih
  | raise hr => exact hRaise _ hr
  | act ha => exact hAct _ ha

lemma guards {I : σ → Prop} {E : ε → Prop}
    (hObs : ∀ (α : Type) (x : Prog σ ε α), Obs α x → Guards I E x)
    (hRaise : ∀ x, Raise x → Guards I E x) (hAct : ∀ x, Act x → Guards I E x)
    {x : Prog σ ε Unit} (hx : Body Obs Raise Act x) : Guards I E x := by
  induction hx with
  | look hop _ ih => exact .bind (hObs _ _ hop) ih
  | raise hr => exact hRaise _ hr
  | act ha => exact hAct _ ha

lemma noninterfering {γ : Type} {v : σ → γ}
    (hObs : ∀ (α : Type) (x : Prog σ ε α), Obs α x → Noninterfering v x)
    (hRaise : ∀ x, Raise x → Noninterfering v x) (hAct : ∀ x, Act x → Noninterfering v x)
    {x : Prog σ ε Unit} (hx : Body Obs Raise Act x) : Noninterfering v x := by
  induction hx with
  | look hop _ ih => exact .bind (hObs _ _ hop) ih
  | raise hr => exact hRaise _ hr
  | act ha => exact hAct _ ha

end Body

end Prog

end NgMips
