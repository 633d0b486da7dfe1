import NgMips.Proofs.Elementary
import NgMips.Proofs.Points

/-!
# What nothing looks at

A run does not depend on the parts of the state that `hide` changes: the reports made before it,
the poll counter of the plain interpreter, and the registers of a floating-point unit that is not
connected.  This holds of every operation a handler or an interpreter is made of, and so of a
whole run (`commutes_run`).
-/

namespace NgMips

namespace MipsBase

variable {T δ : Type} {m : MipsSetup δ} (h : Hidden)

/-! ## Operations -/

lemma commutes_read {α : Type} {f : MipsBase T δ → α} (hf : Unseen m f) :
    Prog.Commutes (hide m h) (read f) := by
  intro s
  rw [read_run, read_run, hf]
  rfl

lemma commutes_internalElem (α : Type) (x : CpuM T δ α) (hx : InternalElem m α x) :
    Prog.Commutes (hide m h) x := by
  cases hx with
  | read f hf => exact commutes_read h hf
  | panic α reason _ => exact .of_throw _
  | _ => exact fun _ => rfl

lemma commutes_internals {α : Type} {x : CpuM T δ α} (hx : Internals m x) :
    Prog.Commutes (hide m h) x := hx.commutes (commutes_internalElem h)

/-- The calls a device makes are answered alike. -/
lemma commutes_access {α : Type} (f : δ → Served δ α) :
    Prog.Commutes (hide (T := T) m h) (access f) := by
  have hserve : ∀ (calls : List CpuCall) (s : MipsBase T δ),
      calls.foldl serve (hide m h s) = hide m h (calls.foldl serve s) := by
    intro calls
    induction calls with
    | nil => exact fun _ => rfl
    | cons call calls ih =>
        intro s
        rw [List.foldl_cons, List.foldl_cons, ← ih]
        cases call <;> rfl
  intro s
  have hcalls := hserve (f s.device).calls { s with device := (f s.device).device }
  exact congrArg (fun t => Except.ok ((f s.device).value, t)) hcalls

variable [MipsTlbBase T] {opcode : BitVec 32} {func : MipsInstId}

lemma commutes_portElem (α : Type) (x : CpuM T δ α) (hx : PortElem m opcode func α x) :
    Prog.Commutes (hide m h) x := by
  cases hx with
  | read f hf => exact commutes_read h hf
  | readStatus => exact commutes_internals h (internal_copRead32Internal 12)
  | fault cause _ address =>
      exact commutes_internals h (internal_translationFault internal_triggerException cause address)
  | access f => exact commutes_access h f
  | random =>
      intro s
      simp only [readRandom, hide]
      cases randomLoop s.cop0.wired (2 ^ 32) s.xorshiftState <;> rfl
  | fpu f hslot _ =>
      intro s
      simp only [setFpu, hide, hslot, if_true]
      cases f s.fpu with
      | error e => rfl
      | ok fpu => rfl
  | eret _ _ _ =>
      intro s
      rw [eret_run, eret_run]
      rfl
  | jump _ dst hdst =>
      refine .of_modify fun s => ?_
      rw [hdst]
      rfl
  | panic α reason => exact .of_throw _
  | _ => exact fun _ => rfl

lemma commutes_callInst : Prog.Commutes (hide m h) (callInst (T := T) m opcode func) := by
  refine (callInst_core m opcode func).commutes fun α x hx => ?_
  rcases hx with hinternal | hcore
  · exact commutes_internalElem h α x hinternal
  · cases hcore with
    | port hport => exact commutes_portElem h α x hport
    | writeGpr idx value =>
        rw [writeGpr64]
        split
        · exact .of_pure ()
        · exact fun _ => rfl
    | writeHi value => exact fun _ => rfl
    | writeLo value => exact fun _ => rfl

/-! ## Instructions and blocks -/

lemma commutes_execute : Prog.Commutes (hide m h) (execute (T := T) m opcode func) := by
  have hadvance : Prog.Commutes (hide m h) (advance : CpuM T δ Unit) := by
    refine .of_modify fun s => ?_
    dsimp only [hide]
    split <;> rfl
  exact .bind (fun _ => rfl) fun pc => .bind (fun _ => rfl) fun _ => .bind hadvance fun _ =>
    commutes_callInst h

omit [MipsTlbBase T] in
lemma commutes_countCycles (executed : ℕ) :
    Prog.Commutes (hide (T := T) m h) (countCycles m executed) := fun _ => rfl

lemma commutes_runInst : Prog.Commutes (hide m h) (runInst (T := T) m) :=
  .bind (fun _ => rfl) fun pc => .bind (commutes_internals h (internal_fetch pc)) fun _ =>
    .bind (commutes_execute h) fun _ => .bind (fun _ => rfl) fun _ => commutes_countCycles h 1

lemma commutes_runEntry (entry : MipsCacheEntry) :
    Prog.Commutes (hide m h) (runEntry (T := T) m entry) :=
  .bind (commutes_execute h) fun _ _ => rfl

lemma commutes_runEntries (entries : List MipsCacheEntry) :
    Prog.Commutes (hide m h) (runEntries (T := T) m entries) := by
  induction entries with
  | nil => exact .of_pure 0
  | cons entry rest ih =>
      refine .bind (fun _ => rfl) fun pc => ?_
      split
      · exact .bind (commutes_runEntry h entry) fun _ => .bind ih fun executed => .of_pure _
      · exact .of_pure 0

lemma commutes_runBlock (entries : List MipsCacheEntry) :
    Prog.Commutes (hide m h) (runBlock (T := T) m entries) := by
  cases entries with
  | nil => exact .of_pure 0
  | cons entry rest =>
      exact .bind (commutes_runEntry h entry) fun _ =>
        .bind (commutes_runEntries h rest) fun executed => .of_pure _

lemma commutes_enterBlock : Prog.Commutes (hide m h) (enterBlock (T := T) m) := by
  have hderef : ∀ i, Prog.Commutes (hide (T := T) m h) (derefBlock i) := by
    intro i s
    simp only [derefBlock, hide]
    cases s.cache.deref i <;> rfl
  have hclear : Prog.Commutes (hide m h) (executeCacheClear (T := T) m) := by
    refine .of_modify fun s => ?_
    dsimp only [hide]
    split <;> rfl
  have hnew : ∀ address, Prog.Commutes (hide m h) (onNewBlock (T := T) m address) := fun address =>
    .bind (commutes_internals h (internal_buildBlock _)) fun _ _ => rfl
  have hbuild : Prog.Commutes (hide m h) (getOrBuildBlock (T := T) m) := by
    refine .bind (fun _ => rfl) fun block => ?_
    cases block with
    | some i => exact .of_pure i
    | none =>
        refine .bind (fun _ => rfl) fun pc => .bind (hnew pc) fun _ =>
          .bind (fun _ => rfl) fun block => ?_
        cases block with
        | some i => exact .of_pure i
        | none => exact .of_throw _
  exact .bind hclear fun _ => .bind hbuild hderef

lemma commutes_runCachedBlock : Prog.Commutes (hide m h) (runCachedBlock (T := T) m) := by
  rw [runCachedBlock_eq]
  exact .bind (commutes_enterBlock h) fun block => .bind (commutes_runBlock h block.entries)
    fun executed => commutes_countCycles h executed

/-! ## Runs -/

/-- The cached interpreter looks at its poll counter, which `hide` keeps for it. -/
lemma commutes_poll (hmode : m.config.useCachedInterpreter = true) :
    Prog.Commutes (hide m h) (poll (T := T) m) := by
  have hset : ∀ f : ℕ → ℕ, Prog.Commutes (hide m h) (modify fun s =>
      { s with interruptPollCounter := f s.interruptPollCounter } : CpuM T δ PUnit) := by
    intro f
    refine .of_modify fun s => ?_
    simp [hide, hmode]
  have hread : Prog.Commutes (hide m h) (read MipsBase.interruptPollCounter : CpuM T δ ℕ) :=
    commutes_read h fun h s => by simp [hide, hmode]
  rw [poll]
  split
  · refine .bind (hset (· + 1)) fun _ => .bind hread fun counter => ?_
    split
    · exact .bind (hset fun _ => 0) fun _ => commutes_internals h internal_begin
    · exact .of_pure ()
  · exact .of_pure ()

omit [MipsTlbBase T] in
lemma commutes_runLoop {before step : CpuM T δ Unit} (hbefore : Prog.Commutes (hide m h) before)
    (hstep : Prog.Commutes (hide m h) step) (cycle : ℤ) (n : ℕ) :
    Prog.Commutes (hide m h) (runLoop before step cycle n) := by
  induction n with
  | zero => exact .of_throw _
  | succ n ih =>
      refine .bind (fun _ => rfl) fun spent => ?_
      split
      · refine .bind hbefore fun _ => .bind (fun _ => rfl) fun halt => ?_
        split
        · refine .bind (fun _ => rfl) fun spent' => ?_
          split
          · exact .bind (fun _ => rfl) fun _ => .of_pure _
          · exact .of_pure _
        · exact .bind hstep fun _ => ih
      · exact .of_pure _

/-- **Nothing looks at what `hide` changes.** -/
theorem commutes_run (fuel : ℕ) (cycle : ℤ) :
    Prog.Commutes (hide m h) (run (T := T) m fuel cycle) := by
  rw [run]
  split
  · next hmode =>
      exact .bind (fun _ => rfl) fun _ => commutes_runLoop h (commutes_poll h hmode)
        (commutes_runCachedBlock h) cycle fuel
  · refine .bind (fun _ => rfl) fun _ => ?_
    rw [← bind_assoc]
    exact .bind (commutes_internals h internal_begin) fun _ =>
      commutes_runLoop h (.of_pure ()) (commutes_runInst h) cycle fuel

end MipsBase

end NgMips
