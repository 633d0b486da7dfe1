import NgMips.Proofs.Shape

/-!
# Internal operations

Exceptions, fetches and the checks for interrupts are made of a few operations that change
coprocessor 0, the translation unit, a device or the program counter (`InternalElem`), whatever
sits in the coprocessor slots.  A property of all of them needs one line for each operation.

No operation looks at what is not part of the processor, or not used by it: the reports to the
observer, the poll counter outside the cached interpreter, and the floating-point registers of a
processor without such a unit.  `hide` changes these parts of a state.
-/

namespace NgMips

/-- The execution of an instruction. -/
def Event.isExecute : Event → Bool
  | preExecute _ _ => true
  | _ => false

/-- Reports of one kind, followed by more of that kind. -/
lemma reports_trans {P : Event → Prop} {a b c : List Event}
    (h : ∃ new, b = new ++ a ∧ ∀ e ∈ new, P e) (h' : ∃ new, c = new ++ b ∧ ∀ e ∈ new, P e) :
    ∃ new, c = new ++ a ∧ ∀ e ∈ new, P e := by
  obtain ⟨new, rfl, hnew⟩ := h
  obtain ⟨new', rfl, hnew'⟩ := h'
  exact ⟨new' ++ new, (List.append_assoc _ _ _).symm, List.forall_mem_append.mpr ⟨hnew', hnew⟩⟩

/-- What nothing looks at: earlier reports, a poll counter, floating-point registers. -/
structure Hidden where
  trace : List Event
  interruptPollCounter : ℕ
  fpu : MipsFpu

namespace MipsBase

variable {T δ : Type}

/-- Change what nothing looks at. -/
def hide (m : MipsSetup δ) (h : Hidden) (s : MipsBase T δ) : MipsBase T δ :=
  { s with
    trace := s.trace ++ h.trace
    interruptPollCounter :=
      if m.config.useCachedInterpreter then s.interruptPollCounter else h.interruptPollCounter
    fpu := if m.slot 1 = .fpu then s.fpu else h.fpu }

/-- The value does not depend on what `hide` changes. -/
def Unseen (m : MipsSetup δ) {α : Type} (f : MipsBase T δ → α) : Prop :=
  ∀ h s, f (hide m h s) = f s

variable (m : MipsSetup δ)

/-- The operations exceptions, fetches and checks for interrupts are made of. -/
inductive InternalElem : (α : Type) → CpuM T δ α → Prop
  | read {α : Type} (f : MipsBase T δ → α) (h : Unseen m f) : InternalElem α (read f)
  | emit (e : Event) (h : e.isExecute = false) : InternalElem _ (emit e)
  | onCop0 {α : Type} (f : BitVec 64 → MipsCop0 → α × MipsCop0) : InternalElem α (onCop0 f)
  | cop0 (f : MipsCop0 → MipsCop0) : InternalElem _ (modify fun s => { s with cop0 := f s.cop0 })
  | device (f : δ → δ) : InternalElem _ (modify fun s => { s with device := f s.device })
  | tlb (f : T → T) : InternalElem _ (modifyTlb f)
  | busFetch (address : BitVec 64) : InternalElem _ (busFetch m address)
  | setPc (pc : BitVec 64) : InternalElem _ (setPcDuringInst pc)
  | giveUp : InternalElem _ (modify fun s => { s with hasBranchDelay := false })
  | line : InternalElem _ (modify fun s => { s with compareInterrupt := true })
  | copCause (value : BitVec 32) : InternalElem _ (modify fun s => { s with copCause := value })
  | panic (α : Type) (reason : Panic) (h : reason = .tlbException ∨ reason = .nonBranchOnBd) :
      InternalElem α (throw (.panic reason))

/-- The programs made of internal operations. -/
abbrev Internals {α : Type} : CpuM T δ α → Prop := Prog.Built (InternalElem m)

variable {m}

/-! ## What the operations change -/

/-- Everything an internal operation can change.  The registers, the clock, the halt flag and
the block cache are not among it. -/
def ChangedInternally (s s' : MipsBase T δ) : Prop :=
  ∃ new cop0 device tlb pc nextPc hasBranchDelay compareInterrupt copCause,
    (∀ e ∈ new, e.isExecute = false) ∧ s' =
      { s with
        trace := new ++ s.trace, cop0 := cop0, device := device, tlb := tlb, pc := pc
        nextPc := nextPc, hasBranchDelay := hasBranchDelay
        compareInterrupt := compareInterrupt, copCause := copCause }

lemma ChangedInternally.refl (s : MipsBase T δ) : ChangedInternally s s :=
  ⟨[], _, _, _, _, _, _, _, _, by simp, rfl⟩

lemma ChangedInternally.trans {s t u : MipsBase T δ} (h : ChangedInternally s t)
    (h' : ChangedInternally t u) : ChangedInternally s u := by
  obtain ⟨new, _, _, _, _, _, _, _, _, hnew, rfl⟩ := h
  obtain ⟨new', _, _, _, _, _, _, _, _, hnew', rfl⟩ := h'
  exact ⟨new' ++ new, _, _, _, _, _, _, _, _, List.forall_mem_append.mpr ⟨hnew', hnew⟩,
    by rw [List.append_assoc]⟩

lemma changed_internalElem (α : Type) (x : CpuM T δ α) (hx : InternalElem m α x) :
    Prog.Moves ChangedInternally x := by
  intro s a s' h
  cases hx with
  | emit e he =>
      rw [← Prog.state_eq h]
      refine ⟨[e], _, _, _, _, _, _, _, _, fun e' he' => ?_, rfl⟩
      rwa [List.mem_singleton.mp he']
  | panic α reason _ => exact absurd h (by simp)
  | _ =>
      rw [← Prog.state_eq h]
      exact ⟨[], _, _, _, _, _, _, _, _, by simp, rfl⟩

lemma changed_internals {α : Type} {x : CpuM T δ α} (hx : Internals m x) :
    Prog.Moves ChangedInternally x :=
  hx.moves .refl (fun _ _ _ => .trans) changed_internalElem

/-! ## Internal registers -/

section Registers

lemma internal_copRead32Internal (idx : ℕ) :
    Internals m (copRead32Internal (T := T) m idx) := by
  rw [copRead32Internal]
  split
  · exact .op (.onCop0 _)
  · exact .op (.read _ fun _ _ => rfl)
  · exact .pure _

/-- The registers an exception writes are there. -/
lemma internal_copWrite64Internal {idx : ℕ} (hidx : idx ∈ [8, 12, 13, 14]) (value : BitVec 64) :
    Internals m (copWrite64Internal (T := T) m idx value) := by
  rw [copWrite64Internal]
  split
  · simp only [List.mem_cons, List.not_mem_nil, or_false] at hidx
    rcases hidx with rfl | rfl | rfl | rfl
    · exact .op (.cop0 fun cop0 => { cop0 with badvaddr := value })
    · exact .op (.cop0 fun cop0 => { cop0 with sr := value.setWidth 32 })
    · exact .op (.cop0 fun cop0 => { cop0 with cause := value.setWidth 32 })
    · exact .op (.cop0 fun cop0 => { cop0 with epc := value })
  · exact .op (.device fun d => m.cop.write64Internal d idx value)
  · exact .pure ()

lemma internal_copWrite32Internal {idx : ℕ} (hidx : idx ∈ [12, 13]) (value : BitVec 32) :
    Internals m (copWrite32Internal (T := T) m idx value) := by
  rw [copWrite32Internal]
  split
  · simp only [List.mem_cons, List.not_mem_nil, or_false] at hidx
    rcases hidx with rfl | rfl
    · exact .op (.cop0 fun cop0 => { cop0 with sr := (value.setWidth 64).setWidth 32 })
    · exact .op (.cop0 fun cop0 => { cop0 with cause := (value.setWidth 64).setWidth 32 })
  · exact .op (.device fun d => m.cop.write32Internal d idx value)
  · exact .pure ()

lemma internal_isCopEnabled (copId : BitVec 2) : Internals m (isCopEnabled (T := T) m copId) := by
  rw [isCopEnabled]
  split
  · exact .bind (internal_copRead32Internal 12) fun _ => .pure _
  · exact .pure _

end Registers

/-! ## Exceptions -/

section Exceptions

lemma internal_takeException (cause : ExceptionCause) (epc : BitVec 64) (bd : Bool) :
    Internals m (takeException (T := T) m cause epc bd) := by
  have hend : Internals m (if cause.isTlb then throw (.panic .tlbException)
      else setPcDuringInst vecAddressGeneral : CpuM T δ Unit) := by
    split
    · exact .op (.panic _ _ (.inl rfl))
    · exact .op (.setPc _)
  refine .bind (internal_copRead32Internal 13) fun causeRegOld =>
    .bind (.op (.read _ fun _ _ => rfl)) fun causeRegNew =>
    .bind (internal_copWrite32Internal (by simp) _) fun _ =>
    .bind (internal_copRead32Internal 12) fun sr => ?_
  dsimp only
  split
  · split
    · exact .bind (internal_copWrite32Internal (by simp) _) fun _ => hend
    · exact .bind (internal_copWrite64Internal (by simp) _) fun _ =>
        .bind (internal_copWrite32Internal (by simp) _) fun _ => hend
  · exact .bind (internal_copWrite32Internal (by simp) _) fun _ => hend

lemma internal_triggerNoDelay (cause : ExceptionCause) :
    Internals m (triggerNoDelay (T := T) m cause) := by
  rw [triggerNoDelay]
  split
  · exact .bind (.op (.emit _ rfl)) fun _ => .bind (.op (.read _ fun _ _ => rfl)) fun pc =>
      internal_takeException cause pc false
  · exact .pure ()

variable [MipsTlbBase T]

lemma internal_translationFault {trigger : ExceptionCause → CpuM T δ Unit}
    (htrigger : ∀ cause, Internals m (trigger cause)) (cause : ExceptionCause)
    (address : BitVec 64) : Internals m (translationFault m trigger cause address) :=
  .bind (internal_copWrite64Internal (by simp) _) fun _ =>
    .bind (.op (.tlb fun tlb => informTlbException tlb address)) fun _ => htrigger cause

lemma internal_fetchWith {trigger : ExceptionCause → CpuM T δ Unit}
    (htrigger : ∀ cause, Internals m (trigger cause)) (address : BitVec 64) :
    Internals m (fetchWith m trigger address) := by
  refine .bind (.op (.read _ fun _ _ => rfl)) fun result => ?_
  split
  · exact .op (.busFetch _)
  · exact .bind (internal_translationFault htrigger _ _) fun _ => .pure 0

lemma internal_triggerException (cause : ExceptionCause) :
    Internals m (triggerException (T := T) m cause) := by
  rw [triggerException]
  split
  · refine .bind (.op (.emit _ rfl)) fun _ => .bind (.op (.read _ fun _ _ => rfl)) fun pc =>
      .bind (.op (.read _ fun _ _ => rfl)) fun hasBranchDelay => ?_
    split
    · refine .bind (.op .giveUp) fun _ =>
        .bind (internal_fetchWith internal_triggerNoDelay _) fun opcode => ?_
      split
      · exact internal_takeException cause _ true
      · exact .op (.panic _ _ (.inr rfl))
    · exact internal_takeException cause pc false
  · exact .pure ()

lemma internal_fetch (address : BitVec 64) : Internals m (fetch (T := T) m address) :=
  internal_fetchWith internal_triggerException address

lemma internal_addressError (cause : ExceptionCause) (address : BitVec 64) :
    Internals m (addressError (T := T) m cause address) :=
  .bind (internal_copWrite64Internal (by simp) _) fun _ => internal_triggerException cause

lemma internal_copUnusable (copId : BitVec 2) : Internals m (copUnusable (T := T) m copId) :=
  .bind (.op (.copCause _)) fun _ => internal_triggerException .kCop

end Exceptions

/-! ## Interrupts -/

variable [MipsTlbBase T]

lemma internal_checkInterrupt : Internals m (checkInterrupt (T := T) m) := by
  rw [checkInterrupt]
  split
  · refine .bind (internal_copRead32Internal 12) fun sr =>
      .bind (internal_copRead32Internal 13) fun cause =>
      .bind (.op (.read _ fun _ _ => rfl)) fun ip => ?_
    split
    · exact internal_triggerException .kInt
    · exact .pure ()
  · exact .pure ()

lemma internal_checkCompare : Internals m (checkCompare (T := T) m) := by
  rw [checkCompare]
  split
  · refine .bind (internal_copRead32Internal 13) fun cause =>
      .bind (.op (.read _ fun _ _ => rfl)) fun ip =>
      .bind (internal_copWrite32Internal (by simp) _) fun _ =>
      .bind (internal_copRead32Internal 128) fun crossed => ?_
    split
    · exact .bind (.op .line) fun _ => internal_checkInterrupt
    · exact .pure ()
  · exact .pure ()

/-- The checks before the loop of the plain interpreter. -/
lemma internal_begin : Internals m (do checkInterrupt m; checkCompare m : CpuM T δ Unit) :=
  .bind internal_checkInterrupt fun _ => internal_checkCompare

/-- The poll of the cached interpreter only adds its counter to the checks for interrupts. -/
lemma moves_poll {R : MipsBase T δ → MipsBase T δ → Prop} (hrefl : ∀ s, R s s)
    (htrans : ∀ s t u, R s t → R t u → R s u)
    (hinternal : ∀ {x : CpuM T δ Unit}, Internals m x → Prog.Moves R x)
    (hcounter : ∀ s n, R s { s with interruptPollCounter := n }) :
    Prog.Moves R (poll (T := T) m) := by
  have hread : Prog.Moves R (read MipsBase.interruptPollCounter) := .of_read hrefl _
  rw [poll]
  split
  · refine .bind htrans (.of_modify fun s => hcounter s _) fun _ =>
      .bind htrans hread fun counter => ?_
    split
    · exact .bind htrans (.of_modify fun s => hcounter s 0) fun _ =>
        hinternal internal_begin
    · exact .of_pure hrefl ()
  · exact .of_pure hrefl ()

/-! ## Building a block -/

/-- A block is built by fetches. -/
lemma built_buildBlock {P : (α : Type) → CpuM T δ α → Prop}
    (hfetch : ∀ address, Prog.Built P (fetch (T := T) m address)) (address : BitVec 64) :
    Prog.Built P (buildBlock (T := T) m address) := by
  have hentry : ∀ address, Prog.Built P (fetchEntry (T := T) m address) := fun address =>
    .bind (hfetch address) fun _ => .pure _
  have hcollect : ∀ n address, Prog.Built P (collectEntries (T := T) m n address) := by
    intro n
    induction n with
    | zero => exact fun _ => .pure []
    | succ n ih =>
        intro address
        refine .bind (hentry address) fun entry => ?_
        split
        · -- The block ends here, or with the delay slot.
          split
          · exact .bind (hentry _) fun _ => .pure _
          · exact .pure _
        · exact .bind (ih _) fun rest => .pure _
  exact .bind (hcollect _ _) fun _ => .pure _

lemma internal_buildBlock (address : BitVec 64) :
    Internals m (buildBlock (T := T) m address) := built_buildBlock internal_fetch address

end MipsBase

end NgMips
