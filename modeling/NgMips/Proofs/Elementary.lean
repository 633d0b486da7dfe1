import NgMips.Proofs.Internal
import NgMips.Proofs.Step

/-!
# Elementary operations

The operations a handler is made of are made of fewer and smaller ones, `Elem`: a register is
written, a device is accessed, a jump is made pending.  `act_elem` takes every handler that
acts apart into them.  A property of all instructions then needs one line for each elementary
operation; those that matter to control or to the timer name the instructions that may use
them.
-/

namespace NgMips

/-- The computation can only stop with a `PANIC`, and not with that of an exception in a delay
slot. -/
def Panics {α : Type} (r : Except Stop α) : Prop :=
  ∀ e, r = .error e → ∃ reason, e = .panic reason ∧ reason ≠ .nonBranchOnBd

/-- A load or a store. -/
def Event.isAccess : Event → Bool
  | load _ _ | store _ _ => true
  | _ => false

namespace MipsBase

variable {T δ : Type} [MipsTlbBase T] (m : MipsSetup δ) (opcode : BitVec 32)

/-- The elementary operations. -/
inductive Elem (func : MipsInstId) : (α : Type) → CpuM T δ α → Prop
  | read {α : Type} (f : MipsBase T δ → α) : Elem func α (read f)
  | readStatus : Elem func _ (copRead32Internal m 12)
  | writeGpr (idx : BitVec 5) (value : BitVec 64) : Elem func _ (writeGpr64 idx value)
  | writeHi (value : BitVec 64) : Elem func _ (writeHi value)
  | writeLo (value : BitVec 64) : Elem func _ (writeLo value)
  /-- Memory and devices. -/
  | emit (e : Event) (h : e.isAccess = true) : Elem func _ (emit e)
  | access {α : Type} (f : δ → Served δ α) : Elem func α (access f)
  | busFetch (address : BitVec 64) : Elem func _ (busFetch m address)
  | fault (cause : ExceptionCause) (h : cause.isTlb = true) (address : BitVec 64) :
      Elem func _ (translationFault m (triggerException m) cause address)
  /-- Coprocessors. -/
  | tlb (f : T → T) : Elem func _ (modifyTlb f)
  | cop0 (f : BitVec 64 → MipsCop0 → MipsCop0)
      (h : ∀ ts cop0, (f ts cop0).cause &&& ~~~0x300#32 = cop0.cause &&& ~~~0x300#32) :
      Elem func _ (setCop0 f)
  | getCount : Elem func _ (onCop0 fun ts cop0 => cop0.getCount ts)
  | random : Elem func _ readRandom
  | fpu (f : MipsFpu → Except Stop MipsFpu) : Elem func _ (setFpu f)
  | eret (hcop : copId opcode = 0#2) (hcommand : isCopCommand m opcode func = true)
      (hfunct : functField opcode = 0x18#6) : Elem func _ eret
  | clearCompare (hcop : copId opcode = 0#2) (hcommand : isCopCommand m opcode func = false)
      (hidx : func.copWriteIdx opcode = some 11) : Elem func _ clearCompareInterrupt
  /-- Control. -/
  | jump (h : func.hasDelaySlot = true) (dst : MipsBase T δ → BitVec 64) :
      Elem func _ (setBranchDelay dst)
  | nullify (h : func.hasDelaySlot = true) : Elem func _ nullifyDelaySlot
  | idle (h : func = .kBeq ∨ func = .kJ) : Elem func _ (modify fun s => { s with
      cycleSpent := s.cycleSpent + 100
      cycleSpentTotal := s.cycleSpentTotal + 100 })
  | invalidate (h : func = .kCache) (start end_ : BitVec 64) : Elem func _ (modify fun s =>
      { s with cache := s.cache.invalidateBlockRange m.ord s.tlb start end_ })
  | panic (α : Type) (reason : Panic) (h : reason ≠ .nonBranchOnBd) :
      Elem func α (throw (.panic reason))

/-- The programs made of elementary operations. -/
abbrev Elems (func : MipsInstId) {α : Type} : CpuM T δ α → Prop :=
  Prog.Built (Elem m opcode func)

/-- The elementary operations that leave the general registers, `hi_` and `lo_` alone. -/
inductive PortElem (func : MipsInstId) : (α : Type) → CpuM T δ α → Prop
  | read {α : Type} (f : MipsBase T δ → α) (h : Unseen m f) : PortElem func α (read f)
  | readStatus : PortElem func _ (copRead32Internal m 12)
  | emit (e : Event) (h : e.isAccess = true) : PortElem func _ (emit e)
  | access {α : Type} (f : δ → Served δ α) : PortElem func α (access f)
  | busFetch (address : BitVec 64) : PortElem func _ (busFetch m address)
  | fault (cause : ExceptionCause) (h : cause.isTlb = true) (address : BitVec 64) :
      PortElem func _ (translationFault m (triggerException m) cause address)
  | tlb (f : T → T) : PortElem func _ (modifyTlb f)
  | cop0 (f : BitVec 64 → MipsCop0 → MipsCop0)
      (h : ∀ ts cop0, (f ts cop0).cause &&& ~~~0x300#32 = cop0.cause &&& ~~~0x300#32) :
      PortElem func _ (setCop0 f)
  | getCount : PortElem func _ (onCop0 fun ts cop0 => cop0.getCount ts)
  | random : PortElem func _ readRandom
  | fpu (f : MipsFpu → Except Stop MipsFpu) (hslot : m.slot 1 = .fpu) (h : ∀ fpu, Panics (f fpu)) :
      PortElem func _ (setFpu f)
  | eret (hcop : copId opcode = 0#2) (hcommand : isCopCommand m opcode func = true)
      (hfunct : functField opcode = 0x18#6) : PortElem func _ eret
  | clearCompare (hcop : copId opcode = 0#2) (hcommand : isCopCommand m opcode func = false)
      (hidx : func.copWriteIdx opcode = some 11) : PortElem func _ clearCompareInterrupt
  | jump (h : func.hasDelaySlot = true) (dst : MipsBase T δ → BitVec 64) (hdst : Unseen m dst) :
      PortElem func _ (setBranchDelay dst)
  | nullify (h : func.hasDelaySlot = true) : PortElem func _ nullifyDelaySlot
  | idle (h : func = .kBeq ∨ func = .kJ) : PortElem func _ (modify fun s => { s with
      cycleSpent := s.cycleSpent + 100
      cycleSpentTotal := s.cycleSpentTotal + 100 })
  | invalidate (h : func = .kCache) (start end_ : BitVec 64) : PortElem func _ (modify fun s =>
      { s with cache := s.cache.invalidateBlockRange m.ord s.tlb start end_ })
  | panic (α : Type) (reason : Panic) (h : reason ≠ .nonBranchOnBd) :
      PortElem func α (throw (.panic reason))

/-- The programs made of operations that leave the registers alone. -/
abbrev Ports (func : MipsInstId) {α : Type} : CpuM T δ α → Prop :=
  Prog.Built (PortElem m opcode func)

/-- The elementary operations, read with `PortElem`. -/
inductive CoreElem (func : MipsInstId) : (α : Type) → CpuM T δ α → Prop
  | port {α : Type} {x : CpuM T δ α} (h : PortElem m opcode func α x) : CoreElem func α x
  | writeGpr (idx : BitVec 5) (value : BitVec 64) : CoreElem func _ (writeGpr64 idx value)
  | writeHi (value : BitVec 64) : CoreElem func _ (writeHi value)
  | writeLo (value : BitVec 64) : CoreElem func _ (writeLo value)

/-- The programs made of operations that act. -/
abbrev Cores (func : MipsInstId) {α : Type} : CpuM T δ α → Prop :=
  Prog.Built (CoreElem m opcode func)

variable {m opcode} {func : MipsInstId}

lemma elem_port (α : Type) (x : CpuM T δ α) (hx : PortElem m opcode func α x) :
    Elem m opcode func α x := by
  cases hx with
  | read f _ => exact .read f
  | readStatus => exact .readStatus
  | emit e h => exact .emit e h
  | access f => exact .access f
  | busFetch address => exact .busFetch address
  | fault cause h address => exact .fault cause h address
  | tlb f => exact .tlb f
  | cop0 f h => exact .cop0 f h
  | getCount => exact .getCount
  | random => exact .random
  | fpu f _ _ => exact .fpu f
  | eret hcop hcommand hfunct => exact .eret hcop hcommand hfunct
  | clearCompare hcop hcommand hidx => exact .clearCompare hcop hcommand hidx
  | jump h dst _ => exact .jump h dst
  | nullify h => exact .nullify h
  | idle h => exact .idle h
  | invalidate h start end_ => exact .invalidate h start end_
  | panic α reason h => exact .panic α reason h

lemma elem_core (α : Type) (x : CpuM T δ α) (hx : CoreElem m opcode func α x) :
    Elem m opcode func α x := by
  cases hx with
  | port h => exact elem_port α x h
  | writeGpr idx value => exact .writeGpr idx value
  | writeHi value => exact .writeHi value
  | writeLo value => exact .writeLo value

lemma core_ports {α : Type} {x : CpuM T δ α} (hx : Ports m opcode func x) :
    Cores m opcode func x := hx.mono fun _ _ => .port

/-! ## Coprocessor ports -/

section Ports

omit [MipsTlbBase T] in
lemma slot_cop0 {copId : BitVec 2} (h : m.slot copId = .cop0) : copId = 0#2 := by
  rw [MipsSetup.slot] at h
  split at h
  · exact absurd h (by simp)
  · split at h
    · assumption
    · split at h
      · split at h <;> exact absurd h (by simp)
      · exact absurd h (by simp)

lemma ports_getFr : Ports m opcode func (getFr (T := T) m) :=
  .bind (.op .readStatus) fun _ => .pure _

lemma ports_cop0Command (hcop : copId opcode = 0#2)
    (hcommand : isCopCommand m opcode func = true) :
    Ports m opcode func (cop0Command opcode : CpuM T δ Unit) := by
  rw [cop0Command]
  split
  case h_1 => exact .op (.tlb _)
  case h_2 => exact .op (.tlb _)
  case h_3 => exact .bind (.op .random) fun _ => .op (.tlb _)
  case h_4 => exact .op (.tlb _)
  case h_5 => exact .op (.cop0 _ fun _ _ => rfl)
  case h_6 hfunct => exact .op (.eret hcop hcommand hfunct)
  case h_7 => exact .pure ()

lemma ports_cop0Read64 (idx : ℕ) :
    Ports m opcode func (cop0Read64 idx : CpuM T δ (BitVec 64)) := by
  rw [cop0Read64.eq_def]
  split
  case h_2 => exact .bind (.op .random) fun _ => .pure _
  case h_9 => exact .bind (.op .getCount) fun _ => .pure _
  case h_15 => exact .pure _
  case h_17 => exact .pure _
  all_goals exact .op (.read _ fun _ _ => rfl)

omit [MipsTlbBase T] in
lemma writeCount_cause (cop0 : MipsCop0) (ts : BitVec 64) (value : BitVec 32) :
    (cop0.writeCount ts value).cause = cop0.cause := by
  rw [MipsCop0.writeCount]
  split <;> rfl

lemma ports_cop0Write (hcop : copId opcode = 0#2) (hcommand : isCopCommand m opcode func = false)
    (context : BitVec 64) (idx : ℕ) (value : BitVec 64)
    (hidx : func.copWriteIdx opcode = some idx) :
    Ports m opcode func (cop0Write context idx value : CpuM T δ Unit) := by
  rw [cop0Write.eq_def]
  split
  case h_10 =>
    exact .bind (.op (.cop0 _ fun _ _ => rfl)) fun _ => .op (.clearCompare hcop hcommand hidx)
  case h_8 => exact .op (.cop0 _ fun ts cop0 => by rw [writeCount_cause])
  case h_12 =>
    refine .op (.cop0 _ fun _ cop0 => ?_)
    ext i hi
    simp only [BitVec.getElem_and, BitVec.getElem_or, BitVec.getElem_not]
    cases (0x300#32)[i] <;> simp
  case h_15 => exact .pure ()
  all_goals first
    | exact .op (.tlb _)
    | exact .op (.cop0 _ fun _ _ => rfl)

omit [MipsTlbBase T] in
/-- The floating-point unit sits in slot 1 only. -/
lemma slot_fpu {copId : BitVec 2} (h : m.slot copId = .fpu) : copId = 1#2 ∧ m.slot 1#2 = .fpu := by
  suffices hcop : copId = 1#2 from ⟨hcop, hcop ▸ h⟩
  rw [MipsSetup.slot] at h
  split at h
  · exact absurd h (by simp)
  · split at h
    · split at h <;> exact absurd h (by simp)
    · split at h
      · assumption
      · exact absurd h (by simp)

omit [MipsTlbBase T] in
/-- The registers of a unit that is there are seen. -/
lemma unseen_fpu {copId : BitVec 2} (h : m.slot copId = .fpu) {α : Type} (f : MipsFpu → α) :
    Unseen (T := T) m fun s => f s.fpu := by
  have hslot : m.slot 1#2 = .fpu := (slot_fpu h).2
  intro hidden s
  simp [hide, hslot]

omit [MipsTlbBase T] in
lemma panics_compare {w : ℕ} (ops : FloatOps w) (opcode : BitVec 32) (fs ft : BitVec w) :
    Panics (ops.compare opcode fs ft) := by
  intro e h
  simp only [FloatOps.compare] at h
  split at h
  · exact ⟨_, (Except.error.inj h).symm, by decide⟩
  · exact absurd h (by simp)

omit [MipsTlbBase T] in
/-- A command of the floating-point unit only fails by a comparison. -/
lemma panics_command (host : HostFloat) (fr : Bool) (opcode : BitVec 32) (fpu : MipsFpu) :
    Panics (fpu.command host fr opcode) := by
  have hcompare : Panics (fpu.compareFormats host fr opcode) := by
    rw [MipsFpu.compareFormats.eq_def]
    split
    · exact panics_compare _ _ _ _
    · exact panics_compare _ _ _ _
    · intro e h
      exact absurd h (by simp)
  have hinstC : Panics (fpu.instC host fr opcode) := by
    intro e h
    rw [MipsFpu.instC] at h
    cases hflag : fpu.compareFormats host fr opcode with
    | error e' =>
        rw [hflag] at h
        obtain rfl := Except.error.inj h
        exact hcompare e' hflag
    | ok flag =>
        rw [hflag] at h
        exact absurd h (by simp [bind, Except.bind])
  intro e h
  rw [MipsFpu.command.eq_def] at h
  split at h
  case h_21 =>
    split at h
    · exact hinstC e h
    · exact absurd h (by simp)
  all_goals exact absurd h (by simp)

lemma ports_copCommand (hcommand : isCopCommand m opcode func = true) :
    Ports m opcode func (copCommand (T := T) m (copId opcode) opcode) := by
  rw [copCommand]
  split
  · next hslot => exact ports_cop0Command (slot_cop0 hslot) hcommand
  · next hslot =>
      exact .bind ports_getFr fun _ =>
        .op (.fpu _ (slot_fpu hslot).2 fun _ => panics_command _ _ _ _)
  · exact .op (.access _)
  · exact .pure ()

lemma ports_copRead32 (copId : BitVec 2) (idx : ℕ) :
    Ports m opcode func (copRead32 (T := T) m copId idx) := by
  rw [copRead32]
  split
  · exact .bind (ports_cop0Read64 idx) fun _ => .pure _
  · next hslot =>
      exact .bind ports_getFr fun fr =>
        .op (.read _ (unseen_fpu hslot fun fpu => fpu.read32 fr idx))
  · exact .op (.access _)
  · exact .pure _

lemma ports_copRead64 (copId : BitVec 2) (idx : ℕ) :
    Ports m opcode func (copRead64 (T := T) m copId idx) := by
  rw [copRead64]
  split
  · exact ports_cop0Read64 idx
  · next hslot =>
      exact .bind ports_getFr fun fr =>
        .op (.read _ (unseen_fpu hslot fun fpu => fpu.read64 fr idx))
  · exact .op (.access _)
  · exact .pure _

lemma ports_copWrite32 (hcommand : isCopCommand m opcode func = false) (idx : ℕ)
    (value : BitVec 32) (hidx : func.copWriteIdx opcode = some idx) :
    Ports m opcode func (copWrite32 (T := T) m (copId opcode) idx value) := by
  rw [copWrite32]
  split
  · next hslot => exact ports_cop0Write (slot_cop0 hslot) hcommand _ idx _ hidx
  · next hslot =>
      exact .bind ports_getFr fun _ => .op (.fpu _ (slot_fpu hslot).2 fun _ _ h => by simp at h)
  · exact .op (.access _)
  · exact .pure ()

lemma ports_copWrite64 (hcommand : isCopCommand m opcode func = false) (idx : ℕ)
    (value : BitVec 64) (hidx : func.copWriteIdx opcode = some idx) :
    Ports m opcode func (copWrite64 (T := T) m (copId opcode) idx value) := by
  rw [copWrite64]
  split
  · next hslot => exact ports_cop0Write (slot_cop0 hslot) hcommand _ idx _ hidx
  · next hslot =>
      exact .bind ports_getFr fun _ => .op (.fpu _ (slot_fpu hslot).2 fun _ _ h => by simp at h)
  · exact .op (.access _)
  · exact .pure ()

lemma ports_copGetFlag (copId : BitVec 2) :
    Ports m opcode func (copGetFlag (T := T) m copId) := by
  rw [copGetFlag]
  split
  · next hslot => exact .op (.read _ (unseen_fpu hslot _))
  · exact .op (.read _ fun _ _ => rfl)
  · exact .pure _

end Ports

/-! ## Memory and jumps -/

lemma ports_loadWith {w : ℕ} (load : δ → BitVec 64 → Served δ (Option (BitVec w)))
    (address : BitVec 64) : Ports m opcode func (loadWith (T := T) m load address) := by
  refine .bind (.op (.read _ fun _ _ => rfl)) fun result => ?_
  split
  · refine .bind (.op (.emit _ rfl)) fun _ => .bind (.op (.access _)) fun value => ?_
    split
    · exact .pure value
    · exact .op (.panic _ _ (by decide))
  · exact .bind (.op (.fault _ rfl _)) fun _ => .pure none

lemma ports_storeWith {w : ℕ} (store : δ → BitVec 64 → BitVec w → Served δ Unit)
    (address : BitVec 64) (value : BitVec w) :
    Ports m opcode func (storeWith (T := T) m store address value) := by
  have hisolated : Ports (T := T) m opcode func (isIsolated m) := by
    rw [isIsolated]
    split
    · exact .bind (.op .readStatus) fun _ => .pure _
    · exact .pure _
  refine .bind hisolated fun isolated => ?_
  split
  · exact .pure ()
  · refine .bind (.op (.read _ fun _ _ => rfl)) fun result => ?_
    split
    · split
      · exact .op (.fault _ rfl _)
      · exact .bind (.op (.emit _ rfl)) fun _ => .op (.access _)
    · exact .op (.fault _ rfl _)

lemma ports_fetch (address : BitVec 64) :
    Ports m opcode func (fetch (T := T) m address) := by
  refine .bind (.op (.read _ fun _ _ => rfl)) fun result => ?_
  split
  · exact .op (.busFetch _)
  · exact .bind (.op (.fault _ rfl _)) fun _ => .pure 0

lemma ports_detectIdleLoop (h : func = .kBeq ∨ func = .kJ) :
    Ports m opcode func (detectIdleLoop (T := T) m) := by
  refine .bind (.op (.read _ fun _ _ => rfl)) fun pc => .bind (ports_fetch _) fun delayOp => ?_
  split
  · exact .op (.idle h)
  · exact .pure ()

lemma ports_instJ (h : func = .kJ) : Ports m opcode func (instJ (T := T) m opcode) := by
  refine .bind (.op (.read _ fun _ _ => rfl)) fun pc =>
    .bind (.op (.jump (h ▸ rfl) _ fun _ _ => rfl)) fun _ => ?_
  split
  · exact ports_detectIdleLoop (.inr h)
  · exact .pure ()

lemma ports_instCache (h : func = .kCache) :
    Ports m opcode func (instCache (T := T) m opcode) := by
  refine .bind (.op (.read _ fun _ _ => rfl)) fun base => ?_
  split
  · exact .pure ()
  · split
    · exact .op (.invalidate h _ _)
    · exact .pure ()

lemma core_linkForJump (dstReg : BitVec 5) :
    Cores m opcode func (linkForJump dstReg : CpuM T δ Unit) :=
  .bind (.op (.port (.read _ fun _ _ => rfl))) fun _ => .op (.writeGpr _ _)

/-! ## All operations -/

lemma core_actOp (α : Type) (x : CpuM T δ α) (hx : ActOp m opcode func α x) :
    Cores m opcode func x := by
  cases hx with
  | gpr32 idx => exact .op (.port (.read _ fun _ _ => rfl))
  | gpr64 idx => exact .op (.port (.read _ fun _ _ => rfl))
  | hi => exact .op (.port (.read _ fun _ _ => rfl))
  | lo => exact .op (.port (.read _ fun _ _ => rfl))
  | writeGpr idx value => exact .op (.writeGpr idx value)
  | writeHi value => exact .op (.writeHi value)
  | writeLo value => exact .op (.writeLo value)
  | load load address => exact core_ports (ports_loadWith load address)
  | store store address value => exact core_ports (ports_storeWith store address value)
  | command hcommand => exact core_ports (ports_copCommand hcommand)
  | copRead32 idx _ => exact core_ports (ports_copRead32 _ idx)
  | copRead64 idx _ _ => exact core_ports (ports_copRead64 _ idx)
  | copWrite32 idx value hidx hcommand =>
      exact core_ports (ports_copWrite32 hcommand idx value hidx)
  | copWrite64 idx value hidx hcommand =>
      exact core_ports (ports_copWrite64 hcommand idx value hidx)
  | getFlag => exact core_ports (ports_copGetFlag _)
  | jumpRel h offset => exact .op (.port (.jump h _ fun _ _ => rfl))
  | jump64 h dst => exact .op (.port (.jump h _ fun _ _ => rfl))
  | link h dstReg => exact core_linkForJump dstReg
  | nullify h => exact .op (.port (.nullify h))
  | j h => exact core_ports (ports_instJ h)
  | jal h =>
      exact .bind (.op (.port (.read _ fun _ _ => rfl))) fun pc =>
        .bind (core_linkForJump _) fun _ => .op (.port (.jump (h ▸ rfl) _ fun _ _ => rfl))
  | idle h => exact core_ports (ports_detectIdleLoop (.inl h))
  | cache h => exact core_ports (ports_instCache h)
  | panic reason h => exact .op (.port (.panic _ reason h))

variable (m opcode func) in
/-- Every handler, whether it raises or acts, is made of internal operations and of operations
that act. -/
theorem callInst_core : Prog.Built
    (fun α x => InternalElem m α x ∨ CoreElem m opcode func α x)
    (callInst (T := T) m opcode func) := by
  have hinternal : ∀ {α : Type} {x : CpuM T δ α}, Internals m x →
      Prog.Built (fun α x => InternalElem m α x ∨ CoreElem m opcode func α x) x :=
    fun hx => hx.mono fun _ _ => .inl
  have hbody := callInst_body (T := T) m opcode func
  generalize callInst (T := T) m opcode func = x at hbody
  induction hbody with
  | look hop _ ih =>
      refine .bind ?_ ih
      cases hop with
      | gpr32 idx => exact .op (.inl (.read _ fun _ _ => rfl))
      | gpr64 idx => exact .op (.inl (.read _ fun _ _ => rfl))
      | copEnabled copId => exact hinternal (internal_isCopEnabled copId)
  | raise hr =>
      cases hr with
      | trigger cause _ => exact hinternal (internal_triggerException cause)
      | address cause _ address => exact hinternal (internal_addressError cause address)
      | copUnusable copId => exact hinternal (internal_copUnusable copId)
      | «break» =>
          refine .bind (hinternal (internal_triggerException .kBkpt)) fun _ => ?_
          split
          · exact .pure ()
          · next hno =>
              -- Without coprocessor 0, slot 0 holds a device or nothing.
              rw [copCommand]
              split
              · next hslot =>
                  exact absurd hslot (by
                    cases hgiven : m.connected 0#2 <;> simp [MipsSetup.slot, hno, hgiven])
              · next hslot => exact absurd (slot_fpu hslot).1 (by decide)
              · exact .op (.inr (.port (.access _)))
              · exact .pure ()
  | act ha => exact (ha.refine core_actOp).mono fun _ _ => .inr

lemma elems_actOp (α : Type) (x : CpuM T δ α) (hx : ActOp m opcode func α x) :
    Elems m opcode func x := (core_actOp α x hx).mono elem_core

/-- Every handler that acts is made of elementary operations. -/
theorem act_elem {x : CpuM T δ Unit} (hx : Acts m opcode func x) : Elems m opcode func x :=
  hx.refine elems_actOp

/-- A relation that every elementary operation respects is respected by every handler that
acts. -/
lemma act_moves {R : MipsBase T δ → MipsBase T δ → Prop} (hrefl : ∀ s, R s s)
    (htrans : ∀ s t u, R s t → R t u → R s u)
    (helem : ∀ (α : Type) (x : CpuM T δ α), Elem m opcode func α x → Prog.Moves R x)
    {x : CpuM T δ Unit} (hx : Acts m opcode func x) {s s' : MipsBase T δ}
    (h : x s = .ok ((), s')) : R s s' :=
  (act_elem hx).moves hrefl htrans helem s () s' h

/-! ## What the elementary operations do -/

omit [MipsTlbBase T] in
/-- A device changes itself, halts the processor and queues work for the block cache. -/
lemma access_ok {α : Type} {f : δ → Served δ α} {s s' : MipsBase T δ} {a : α}
    (h : access f s = .ok (a, s')) :
    ∃ device halt cache, s' = { s with device := device, halt := halt, cache := cache } := by
  have hserve : ∀ (calls : List CpuCall) (t : MipsBase T δ), ∃ halt cache,
      calls.foldl serve t = { t with halt := halt, cache := cache } := by
    intro calls
    induction calls with
    | nil => exact fun t => ⟨t.halt, t.cache, rfl⟩
    | cons call calls ih =>
        intro t
        obtain ⟨halt, cache, heq⟩ := ih (t.serve call)
        rw [List.foldl_cons, heq]
        cases call with
        | setHalt halt' => exact ⟨halt, cache, rfl⟩
        | queueCacheClear => exact ⟨halt, cache, rfl⟩
  obtain ⟨halt, cache, heq⟩ := hserve (f s.device).calls { s with device := (f s.device).device }
  exact ⟨_, halt, cache, (Prog.state_eq h).symm.trans heq⟩

omit [MipsTlbBase T] in
lemma readRandom_ok {s s' : MipsBase T δ} {a : BitVec 32} (h : readRandom s = .ok (a, s')) :
    ∃ state, s' = { s with xorshiftState := state } := by
  simp only [readRandom] at h
  split at h
  · exact ⟨_, (Prog.state_eq h).symm⟩
  · exact absurd h (by simp)

omit [MipsTlbBase T] in
lemma setFpu_ok {f : MipsFpu → Except Stop MipsFpu} {s s' : MipsBase T δ}
    (h : setFpu f s = .ok ((), s')) : ∃ fpu, s' = { s with fpu := fpu } := by
  simp only [setFpu] at h
  cases hf : f s.fpu with
  | error e => rw [hf] at h; exact absurd h (by simp [Except.map])
  | ok fpu =>
      rw [hf] at h
      exact ⟨fpu, (Prog.state_eq h).symm⟩

omit [MipsTlbBase T] in
lemma writeGpr64_ok {idx : BitVec 5} {value : BitVec 64} {s s' : MipsBase T δ}
    (h : writeGpr64 idx value s = .ok ((), s')) : ∃ gpr, s' = { s with gpr := gpr } := by
  rw [writeGpr64] at h
  split at h
  · exact ⟨s.gpr, (Prog.state_eq h).symm⟩
  · exact ⟨_, (Prog.state_eq h).symm⟩

omit [MipsTlbBase T] in
/-- `ERET` returns to the error program counter or to that of the exception. -/
lemma eret_run (s : MipsBase T δ) :
    eret s = .ok ((), { s with
      cop0 := { s.cop0 with
        sr := if s.cop0.erl then s.cop0.sr &&& ~~~4#32 else s.cop0.sr &&& ~~~2#32 }
      pc := if s.cop0.erl then s.cop0.errorEpc else s.cop0.epc
      nextPc := if s.cop0.erl then s.cop0.errorEpc else s.cop0.epc
      llbit := false }) := by
  rw [eret, Prog.bind_of_ok (read_run _ _)]
  cases s.cop0.erl <;> rfl

/-- A translation fault that does not end in a `PANIC` only leaves the address behind. -/
lemma translationFault_ok (hm : m.IsN64) {cause : ExceptionCause} (hcause : cause.isTlb = true)
    {address : BitVec 64} {s s' : MipsBase T δ}
    (h : translationFault m (triggerException m) cause address s = .ok ((), s')) :
    m.config.hasException = false ∧ s' = faulted address s := by
  rw [translationFault_run hm] at h
  cases hexc : m.config.hasException with
  | true =>
      obtain ⟨e, -, he⟩ := triggerException_tlb hm hexc hcause (faulted address s)
      exact absurd (h.symm.trans he) (by simp)
  | false =>
      rw [triggerException_off hexc] at h
      exact ⟨rfl, (Prog.state_eq h).symm⟩

/-- An operation at the ports leaves the registers alone, and the clock too unless it skips an
idle loop. -/
lemma portElem_ok {α : Type} {x : CpuM T δ α} (hx : PortElem m opcode func α x)
    {s s' : MipsBase T δ} {a : α} (h : x s = .ok (a, s')) :
    (s'.gpr = s.gpr ∧ s'.hi = s.hi ∧ s'.lo = s.lo) ∧
      (func ≠ .kBeq → func ≠ .kJ → s'.cycleSpent = s.cycleSpent ∧
        s'.cpiCounter = s.cpiCounter ∧ s'.cycleSpentTotal = s.cycleSpentTotal) := by
  have hinternal : Internals m x → _ := fun hx => changed_internals hx s a s' h
  cases hx with
  | readStatus =>
      obtain ⟨_, _, _, _, _, _, _, _, _, -, rfl⟩ := hinternal (internal_copRead32Internal 12)
      exact ⟨⟨rfl, rfl, rfl⟩, fun _ _ => ⟨rfl, rfl, rfl⟩⟩
  | fault cause _ address =>
      obtain ⟨_, _, _, _, _, _, _, _, _, -, rfl⟩ :=
        hinternal (internal_translationFault internal_triggerException cause address)
      exact ⟨⟨rfl, rfl, rfl⟩, fun _ _ => ⟨rfl, rfl, rfl⟩⟩
  | access f =>
      obtain ⟨device, halt, cache, rfl⟩ := access_ok h
      exact ⟨⟨rfl, rfl, rfl⟩, fun _ _ => ⟨rfl, rfl, rfl⟩⟩
  | random =>
      obtain ⟨state, rfl⟩ := readRandom_ok h
      exact ⟨⟨rfl, rfl, rfl⟩, fun _ _ => ⟨rfl, rfl, rfl⟩⟩
  | fpu f _ _ =>
      obtain ⟨fpu, rfl⟩ := setFpu_ok h
      exact ⟨⟨rfl, rfl, rfl⟩, fun _ _ => ⟨rfl, rfl, rfl⟩⟩
  | eret _ _ _ =>
      rw [eret_run] at h
      rw [← Prog.state_eq h]
      exact ⟨⟨rfl, rfl, rfl⟩, fun _ _ => ⟨rfl, rfl, rfl⟩⟩
  | idle hidle =>
      rw [← Prog.state_eq h]
      exact ⟨⟨rfl, rfl, rfl⟩, fun hbeq hj => absurd hidle (not_or.mpr ⟨hbeq, hj⟩)⟩
  | panic α reason => exact absurd h (by simp)
  | _ =>
      rw [← Prog.state_eq h]
      exact ⟨⟨rfl, rfl, rfl⟩, fun _ _ => ⟨rfl, rfl, rfl⟩⟩

end MipsBase

end NgMips
