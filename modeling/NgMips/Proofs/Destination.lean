import NgMips.Proofs.Kept
import NgMips.Source.Machine

/-!
# Destination registers

An instruction writes at most one general register, the one its `destination` names; `hi_` and `lo_`
are written by multiplications, divisions and the moves to them.  So a register keeps its value
through every run that executes no instruction naming it, whatever exceptions and interrupts the
run takes (`run_keeps_gpr`).
-/

namespace NgMips

namespace MipsInstId

/-- The general register an instruction writes. -/
def destination (func : MipsInstId) (opcode : BitVec 32) : Option (BitVec 5) :=
  match func with
  | .kAdd | .kAddu | .kAnd | .kNor | .kOr | .kSll | .kSllv | .kSra | .kSrav | .kSrl | .kSrlv | .kSub
  | .kSubu | .kXor | .kSlt | .kSltu | .kDadd | .kDaddu | .kDsub | .kDsubu | .kDsll | .kDsll32
  | .kDsllv | .kDsra | .kDsra32 | .kDsrav | .kDsrl | .kDsrl32 | .kDsrlv | .kMfhi | .kMflo
  | .kJalr => some (rdField opcode)
  | .kAddi | .kAddiu | .kAndi | .kOri | .kXori | .kLui | .kSlti | .kSltiu | .kDaddi | .kDaddiu
  | .kLb | .kLbu | .kLh | .kLhu | .kLw | .kLwu | .kLd | .kLwl | .kLwr | .kLdl | .kLdr | .kMfc
  | .kCfc | .kDmfc => some (rtField opcode)
  | .kJal | .kBgezal | .kBltzal | .kBgezall | .kBltzall => some 31
  | _ => none

/-- Multiplications and divisions. -/
def isMulDiv (func : MipsInstId) : Bool :=
  match func with
  | .kMult | .kMultu | .kDiv | .kDivu | .kDmult | .kDmultu | .kDdiv | .kDdivu => true
  | _ => false

/-- The instruction writes `hi_`. -/
def writesHi (func : MipsInstId) : Bool := func.isMulDiv || func == .kMthi

/-- The instruction writes `lo_`. -/
def writesLo (func : MipsInstId) : Bool := func.isMulDiv || func == .kMtlo

end MipsInstId

namespace MipsBase

variable {T δ : Type}

/-- The registers an instruction does not name are the same, and so is register 0. -/
structure LeavesOthers (opcode : BitVec 32) (func : MipsInstId) (s s' : MipsBase T δ) : Prop where
  gpr : ∀ idx, (idx ≠ 0 → func.destination opcode ≠ some idx) → s'.gpr idx = s.gpr idx
  hi : func.writesHi = false → s'.hi = s.hi
  lo : func.writesLo = false → s'.lo = s.lo

namespace LeavesOthers

variable {opcode : BitVec 32} {func : MipsInstId}

lemma of_sameRegs {s s' : MipsBase T δ} (h : SameRegs s s') : LeavesOthers opcode func s s' := by
  obtain ⟨hgpr, hhi, hlo⟩ : s'.gpr = s.gpr ∧ s'.hi = s.hi ∧ s'.lo = s.lo := by
    simpa [SameRegs, regs] using h
  exact ⟨fun idx _ => congrFun hgpr idx, fun _ => hhi, fun _ => hlo⟩

lemma refl (s : MipsBase T δ) : LeavesOthers opcode func s s := .of_sameRegs rfl

lemma trans {s t u : MipsBase T δ} (h : LeavesOthers opcode func s t)
    (h' : LeavesOthers opcode func t u) : LeavesOthers opcode func s u where
  gpr idx hidx := (h'.gpr idx hidx).trans (h.gpr idx hidx)
  hi hhi := (h'.hi hhi).trans (h.hi hhi)
  lo hlo := (h'.lo hlo).trans (h.lo hlo)

end LeavesOthers

/-- The program only writes registers that the instruction names. -/
abbrev Confined {α : Type} (opcode : BitVec 32) (func : MipsInstId) (x : CpuM T δ α) : Prop :=
  Prog.Moves (LeavesOthers opcode func) x

namespace Confined

variable {opcode : BitVec 32} {func : MipsInstId} {m : MipsSetup δ}

lemma seq {α β : Type} {x : CpuM T δ α} {f : α → CpuM T δ β} (hx : Confined opcode func x)
    (hf : ∀ a, Confined opcode func (f a)) : Confined opcode func (x >>= f) :=
  .bind (fun _ _ _ => .trans) hx hf

lemma done {α : Type} (a : α) : Confined opcode func (pure a : CpuM T δ α) := .of_pure .refl a

lemma look {α : Type} (f : MipsBase T δ → α) : Confined opcode func (read f : CpuM T δ α) :=
  .of_read .refl f

lemma internals {α : Type} {x : CpuM T δ α} (hx : Internals m x) : Confined opcode func x :=
  (sameRegs_internals hx).mono fun _ _ => .of_sameRegs

/-! ## Writes -/

lemma writeGpr {idx : BitVec 5} (h : func.destination opcode = some idx) (value : BitVec 64) :
    Confined opcode func (writeGpr64 idx value : CpuM T δ Unit) := by
  rw [writeGpr64]
  split
  · exact done ()
  · next hzero =>
      refine .of_modify fun s => ⟨fun i hi => ?_, fun _ => rfl, fun _ => rfl⟩
      have hne : i ≠ idx := by
        rintro rfl
        exact hi hzero h
      exact Function.update_of_ne hne _ _

lemma writeHi (h : func.writesHi = true) (value : BitVec 64) :
    Confined opcode func (writeHi value : CpuM T δ Unit) :=
  .of_modify fun _ => ⟨fun _ _ => rfl, fun hno => absurd (h.symm.trans hno) (by simp), fun _ => rfl⟩

lemma writeLo (h : func.writesLo = true) (value : BitVec 64) :
    Confined opcode func (writeLo value : CpuM T δ Unit) :=
  .of_modify fun _ => ⟨fun _ _ => rfl, fun _ => rfl, fun hno => absurd (h.symm.trans hno) (by simp)⟩

lemma linkForJump {dstReg : BitVec 5} (h : func.destination opcode = some dstReg) :
    Confined opcode func (linkForJump dstReg : CpuM T δ Unit) :=
  seq (look _) fun _ => writeGpr h _

/-! ## Arithmetic -/

lemma arithR32 (h : func.destination opcode = some (rdField opcode))
    (f : BitVec 32 → BitVec 32 → BitVec 32) :
    Confined opcode func (arithR32 opcode f : CpuM T δ Unit) :=
  seq (look _) fun _ => seq (look _) fun _ => writeGpr h _

lemma arithR64 (h : func.destination opcode = some (rdField opcode))
    (f : BitVec 64 → BitVec 64 → BitVec 64) :
    Confined opcode func (arithR64 m opcode f : CpuM T δ Unit) :=
  seq (look _) fun _ => seq (look _) fun _ => writeGpr h _

lemma arithI64 (h : func.destination opcode = some (rtField opcode))
    (f : BitVec 64 → BitVec 64) : Confined opcode func (arithI64 m opcode f : CpuM T δ Unit) :=
  seq (look _) fun _ => writeGpr h _

lemma shift32 (h : func.destination opcode = some (rdField opcode))
    (f : BitVec 32 → ℕ → BitVec 32) : Confined opcode func (shift32 opcode f : CpuM T δ Unit) :=
  seq (look _) fun _ => writeGpr h _

lemma shift64 (h : func.destination opcode = some (rdField opcode)) (offset : ℕ)
    (f : BitVec 64 → ℕ → BitVec 64) :
    Confined opcode func (shift64 m opcode offset f : CpuM T δ Unit) :=
  seq (look _) fun _ => writeGpr h _

lemma mulDiv32 (h : func.isMulDiv = true)
    (f : BitVec 32 → BitVec 32 → BitVec 32 × BitVec 32) :
    Confined opcode func (mulDiv32 opcode f : CpuM T δ Unit) :=
  seq (look _) fun _ => seq (look _) fun _ =>
    seq (writeLo (by simp [MipsInstId.writesLo, h]) _) fun _ =>
      writeHi (by simp [MipsInstId.writesHi, h]) _

lemma mulDiv64 (h : func.isMulDiv = true)
    (f : BitVec 64 → BitVec 64 → BitVec 64 × BitVec 64) :
    Confined opcode func (mulDiv64 m opcode f : CpuM T δ Unit) :=
  seq (look _) fun _ => seq (look _) fun _ =>
    seq (writeLo (by simp [MipsInstId.writesLo, h]) _) fun _ =>
      writeHi (by simp [MipsInstId.writesHi, h]) _

variable [MipsTlbBase T]

lemma ports {α : Type} {x : CpuM T δ α} (hx : Ports m opcode func x) : Confined opcode func x :=
  (sameRegs_ports hx).mono fun _ _ => .of_sameRegs

lemma writeOrTrap {idx : BitVec 5} (h : func.destination opcode = some idx) (overflow : Bool)
    (value : BitVec 64) : Confined (T := T) opcode func (writeOrTrap m overflow idx value) := by
  rw [MipsBase.writeOrTrap]
  split
  · exact internals (internal_triggerException .kOvf)
  · exact writeGpr h value

/-! ## Loads and stores -/

lemma instLoad {w : ℕ} (h : func.destination opcode = some (rtField opcode)) (mask : BitVec 64)
    (load : δ → BitVec 64 → Served δ (Option (BitVec w))) (extend : BitVec w → BitVec 64) :
    Confined (T := T) opcode func (instLoad m opcode mask (loadWith m load) extend) := by
  refine seq (look _) fun rsValue => ?_
  dsimp only
  split
  · exact internals (internal_addressError _ _)
  · refine seq (ports (ports_loadWith load _)) fun loadResult => ?_
    cases loadResult with
    | some value => exact writeGpr h _
    | none => exact done ()

lemma instStore {w : ℕ} (mask : BitVec 64)
    (store : δ → BitVec 64 → BitVec w → Served δ Unit) :
    Confined (T := T) opcode func (instStore m opcode mask (storeWith m store)) := by
  refine seq (look _) fun rsValue => ?_
  dsimp only
  split
  · exact internals (internal_addressError _ _)
  · exact seq (look _) fun _ => ports (ports_storeWith store _ _)

lemma loadBytes {w : ℕ} (address : ℕ → BitVec 64) (shamt : ℕ → ℕ) (count : ℕ)
    (value : BitVec w) : Confined (T := T) opcode func (loadBytes m address shamt count value) := by
  refine .foldlM .refl (fun _ _ _ => .trans) _ (fun value i _ => ?_) value
  refine seq (ports (ports_loadWith m.bus.load8 _)) fun loadResult => ?_
  cases loadResult with
  | some byte => exact done _
  | none => exact done _

lemma storeBytes {w : ℕ} (address : ℕ → BitVec 64) (shamt : ℕ → ℕ) (count : ℕ)
    (value : BitVec w) :
    Confined (T := T) opcode func (storeBytes m address shamt count value) :=
  .forM .refl (fun _ _ _ => .trans) _ fun _ _ => ports (ports_storeWith m.bus.store8 _ _)

/-! ## Coprocessors -/

lemma whenCopEnabled {body : CpuM T δ Unit} (h : Confined opcode func body) :
    Confined opcode func (whenCopEnabled m opcode body) := by
  refine seq (internals (internal_isCopEnabled _)) fun enabled => ?_
  split
  · exact h
  · exact internals (internal_copUnusable _)

lemma unlessOverridden {body : CpuM T δ Unit}
    (hover : isCopCommand m opcode func =
      m.config.copDecodingOverride.getLsbD (copId opcode).toNat)
    (h : isCopCommand m opcode func = false → Confined opcode func body) :
    Confined opcode func (unlessOverridden m opcode body) := by
  rw [MipsBase.unlessOverridden]
  split
  · next hbit => exact whenCopEnabled (ports (ports_copCommand (hover.trans hbit)))
  · next hbit => exact whenCopEnabled (h (hover.trans (by simpa using hbit)))

lemma loadToCop {w : ℕ} (load : δ → BitVec 64 → Served δ (Option (BitVec w)))
    {write : BitVec w → CpuM T δ Unit} (hwrite : ∀ value, Confined opcode func (write value)) :
    Confined opcode func (loadToCop m opcode (loadWith m load) write) := by
  refine seq (look _) fun _ => seq (ports (ports_loadWith load _)) fun loadResult => ?_
  cases loadResult with
  | some value => exact hwrite value
  | none => exact done ()

/-! ## Branches -/

omit [MipsTlbBase T] in
lemma branchIf (likely taken : Bool) :
    Confined opcode func (branchIf opcode likely taken : CpuM T δ Unit) := by
  have hsame : ∀ {f : MipsBase T δ → MipsBase T δ}, (∀ s, SameRegs s (f s)) →
      Confined opcode func (modify f : CpuM T δ PUnit) :=
    fun h => .of_modify fun s => .of_sameRegs (h s)
  rw [MipsBase.branchIf]
  split
  · exact hsame fun _ => rfl
  · split
    · exact hsame fun _ => rfl
    · exact done ()

omit [MipsTlbBase T] in
lemma branchR (likely : Bool) (cond : BitVec 64 → BitVec 64 → Bool) :
    Confined opcode func (branchR m opcode likely cond : CpuM T δ Unit) :=
  seq (look _) fun _ => seq (look _) fun _ => branchIf _ _

omit [MipsTlbBase T] in
lemma branchZ {link : Bool} (h : link = true → func.destination opcode = some 31) (likely : Bool)
    (cond : BitVec 64 → Bool) :
    Confined opcode func (branchZ m opcode link likely cond : CpuM T δ Unit) := by
  refine seq (look _) fun rsValue => ?_
  dsimp only
  split
  · next hlink => exact seq (linkForJump (h hlink)) fun _ => branchIf _ _
  · exact branchIf _ _

lemma branchCop (likely onFlag : Bool) :
    Confined (T := T) opcode func (branchCop m opcode likely onFlag) :=
  whenCopEnabled (seq (ports (ports_copGetFlag _)) fun _ => branchIf _ _)

lemma instBeq : Confined (T := T) opcode .kBeq (instBeq m opcode) := by
  rw [MipsBase.instBeq]
  split
  · have hidle : Ports m opcode .kBeq (detectIdleLoop (T := T) m) := ports_detectIdleLoop (.inl rfl)
    exact seq (ports hidle) fun _ => branchR _ _
  · exact branchR _ _

/-- Without coprocessor 0, slot 0 holds a device or nothing. -/
lemma instBreak : Confined (T := T) opcode func (instBreak m) := by
  refine seq (internals (internal_triggerException .kBkpt)) fun _ => ?_
  split
  · exact done ()
  · next hno =>
      rw [copCommand]
      split
      · next hslot =>
          exact absurd hslot (by cases hgiven : m.connected 0#2 <;> simp [MipsSetup.slot, hno, hgiven])
      · next hslot => exact absurd (slot_fpu hslot).1 (by decide)
      · exact ports (m := m) (.op (.access _))
      · exact done ()

/-! ## All handlers -/

variable (m opcode func) in
/-- **A handler writes no register but those its instruction names.** -/
theorem callInst : Confined (T := T) opcode func (callInst m opcode func) := by
  have hput : ∀ {x : CpuM T δ Unit}, Ports m opcode func x → Confined opcode func x := ports
  cases func
  case kAdd | kSub | kDadd | kDsub =>
    exact seq (look _) fun _ => seq (look _) fun _ => writeOrTrap rfl _ _
  case kAddi | kDaddi => exact seq (look _) fun _ => writeOrTrap rfl _ _
  case kAddu | kSubu | kSllv | kSrlv | kSrav => exact arithR32 rfl _
  case kAnd | kOr | kXor | kNor | kSlt | kSltu | kDaddu | kDsubu | kDsllv | kDsrlv | kDsrav =>
    exact arithR64 rfl _
  case kAndi | kOri | kXori | kSlti | kSltiu | kDaddiu => exact arithI64 rfl _
  case kAddiu => exact seq (look _) fun _ => writeGpr rfl _
  case kLui => exact writeGpr rfl _
  case kSll | kSrl | kSra => exact shift32 rfl _
  case kDsll | kDsrl | kDsra | kDsll32 | kDsrl32 | kDsra32 => exact shift64 rfl _ _
  case kMult | kMultu | kDiv | kDivu => exact mulDiv32 rfl _
  case kDmult | kDmultu | kDdiv | kDdivu => exact mulDiv64 rfl _
  case kMfhi | kMflo => exact seq (look _) fun _ => writeGpr rfl _
  case kMthi => exact seq (look _) fun _ => writeHi rfl _
  case kMtlo => exact seq (look _) fun _ => writeLo rfl _
  case kLb | kLbu | kLh | kLhu | kLw | kLwu | kLd => exact instLoad rfl _ _ _
  case kSb | kSh | kSw | kSd => exact instStore _ _
  case kLwl | kLwr | kLdl | kLdr =>
    exact seq (look _) fun _ => seq (look _) fun _ => seq (loadBytes _ _ _ _) fun _ =>
      writeGpr rfl _
  case kSwl | kSwr | kSdl | kSdr =>
    exact seq (look _) fun _ => seq (look _) fun _ => storeBytes _ _ _ _
  case kBeq => exact instBeq
  case kBne | kBeql | kBnel => exact branchR _ _
  case kBgtz | kBlez | kBgez | kBltz | kBgtzl | kBlezl | kBgezl | kBltzl =>
    exact branchZ (fun h => absurd h (by decide)) _ _
  case kBgezal | kBltzal | kBgezall | kBltzall => exact branchZ (fun _ => rfl) _ _
  case kBcf | kBcfl | kBct | kBctl => exact branchCop _ _
  case kJ => exact hput (ports_instJ rfl)
  case kJal =>
    exact seq (look _) fun _ => seq (linkForJump rfl) fun _ =>
      .of_modify fun _ => .of_sameRegs rfl
  case kJr =>
    refine seq (look _) fun rsValue => ?_
    split
    · exact .of_throw _
    · exact .of_modify fun _ => .of_sameRegs rfl
  case kJalr =>
    refine seq (look _) fun rsValue => ?_
    split
    · exact .of_throw _
    · exact seq (linkForJump rfl) fun _ => .of_modify fun _ => .of_sameRegs rfl
  case kSyscall => exact internals (internal_triggerException .kSyscall)
  case kBreak => exact instBreak
  case kCop => exact whenCopEnabled (hput (ports_copCommand rfl))
  case kMfc | kCfc =>
    exact unlessOverridden rfl fun _ => seq (ports (ports_copRead32 _ _)) fun _ => writeGpr rfl _
  case kMtc | kCtc =>
    exact unlessOverridden rfl fun hcommand => seq (look _) fun _ =>
      ports (ports_copWrite32 hcommand _ _ rfl)
  case kDmfc =>
    exact whenCopEnabled (seq (ports (ports_copRead64 _ _)) fun _ => writeGpr rfl _)
  case kDmtc =>
    exact whenCopEnabled (seq (look _) fun _ => ports (ports_copWrite64 rfl _ _ rfl))
  case kLwc =>
    exact unlessOverridden rfl fun hcommand => loadToCop _ fun _ =>
      ports (ports_copWrite32 hcommand _ _ rfl)
  case kLdc => exact whenCopEnabled (loadToCop _ fun _ => ports (ports_copWrite64 rfl _ _ rfl))
  case kSwc =>
    exact unlessOverridden rfl fun _ => seq (look _) fun _ =>
      seq (ports (ports_copRead32 _ _)) fun _ => ports (ports_storeWith _ _ _)
  case kSdc =>
    exact whenCopEnabled (seq (look _) fun _ => seq (ports (ports_copRead64 _ _)) fun _ =>
      ports (ports_storeWith _ _ _))
  case kCache => exact hput (ports_instCache rfl)
  case kNop | kSync => exact done ()
  all_goals exact .of_throw _

end Confined

/-! ## Runs -/

section Runs

variable [MipsTlbBase T] {m : MipsSetup δ} {s u : MipsBase T δ} {fuel : ℕ} {cycle : ℤ}

variable (m) in
/-- The handler of the instruction does not write general register `idx`. -/
def SparesGpr (idx : BitVec 5) (opcode : BitVec 32) : Prop :=
  idx ≠ 0 → (getInstFuncPtr m.kIs64Bit opcode).destination opcode ≠ some idx

variable (m) in
/-- The handler of the instruction does not write `hi_`. -/
def SparesHi (opcode : BitVec 32) : Prop := (getInstFuncPtr m.kIs64Bit opcode).writesHi = false

variable (m) in
/-- The handler of the instruction does not write `lo_`. -/
def SparesLo (opcode : BitVec 32) : Prop := (getInstFuncPtr m.kIs64Bit opcode).writesLo = false

/-- A part of the registers that the executed instructions leave alone. -/
lemma kept_of_leaves {γ : Type} {P : BitVec 32 → Prop} {v : MipsBase T δ → γ}
    (hregs : ∀ {t t' : MipsBase T δ}, SameRegs t t' → v t' = v t)
    (hleaves : ∀ {opcode : BitVec 32} {t t' : MipsBase T δ}, P opcode →
      LeavesOthers opcode (getInstFuncPtr m.kIs64Bit opcode) t t' → v t' = v t)
    (hu : Visits m fuel cycle s u) : Kept m P (fun t => v t = v s) s u := by
  have hkept : KeptBy m (fun opcode _ => P opcode) fun t => v t = v s := by
    refine .of_sameRegs (fun hsame ht => (hregs hsame).trans ht) fun {opcode t t'} hP hcall ht => ?_
    have hstart : v (started opcode t) = v t := hregs rfl
    exact ((hleaves hP (Confined.callInst _ _ m _ () _ hcall)).trans hstart).trans ht
  exact hkept.visits hu

/-- **Registers that are not named are kept.**  In every state a run goes through, a general
register has its first value when no instruction executed so far has it as its destination, and
`hi_` and `lo_` when none so far writes them; register 0 is never written. -/
theorem run_keeps_gpr (hd : DecodedBlocks m s.cache) (hu : Visits m fuel cycle s u) :
    (∀ idx, ExecutesOnly (SparesGpr m idx) s u → u.gpr idx = s.gpr idx) ∧ u.gpr 0 = s.gpr 0 ∧
      (ExecutesOnly (SparesHi m) s u → u.hi = s.hi) ∧
      (ExecutesOnly (SparesLo m) s u → u.lo = s.lo) := by
  have hgpr : ∀ idx, Kept m (SparesGpr m idx) (fun t => t.gpr idx = s.gpr idx) s u := fun idx =>
    kept_of_leaves (fun hsame => congrArg (fun r => r.1 idx) hsame)
      (fun hP h => h.gpr idx hP) hu
  have hzero : Kept m (fun _ => True) (fun t => t.gpr 0 = s.gpr 0) s u :=
    kept_of_leaves (fun hsame => congrArg (fun r => r.1 0) hsame)
      (fun _ h => h.gpr 0 fun hno => absurd rfl hno) hu
  have hhi : Kept m (SparesHi m) (fun t => t.hi = s.hi) s u :=
    kept_of_leaves (fun hsame => congrArg (fun r => r.2.1) hsame) (fun hP h => h.hi hP) hu
  have hlo : Kept m (SparesLo m) (fun t => t.lo = s.lo) s u :=
    kept_of_leaves (fun hsame => congrArg (fun r => r.2.2) hsame) (fun hP h => h.lo hP) hu
  have hall : ExecutesOnly (fun _ => True) s u := by
    obtain ⟨-, new, htrace, -⟩ := hzero hd
    exact ⟨new, htrace, fun _ _ => trivial⟩
  exact ⟨fun idx hP => (hgpr idx).invariant hd hP rfl, hzero.invariant hd hall rfl,
    fun hP => hhi.invariant hd hP rfl, fun hP => hlo.invariant hd hP rfl⟩

end Runs

/-- A multiplication, and an addition that overflows: `MULT $5, $5`, `ADD $5, $5, $5`. -/
def multiplyingMemory : WordMemory := [(0x1000, 0x00A50018), (0x1004, 0x00A52820)]

/-- The multiplication is next. -/
def multiplying : MipsBase MipsTlbNormal WordMemory :=
  lastState (performAll exceptionSetup [.setGpr 5 0x7FFFFFFF, .setPc 0x80001000])
    { tlb := {}, device := multiplyingMemory }

/-- The exception was taken, and the handler has executed two instructions. -/
def multiplied : MipsBase MipsTlbNormal WordMemory := lastState (run exceptionSetup 10 6) multiplying

/-- `run_keeps_gpr` on this run: it writes `hi_`, and no general register but the destination of the
addition. -/
theorem multiplying_keeps :
    run exceptionSetup 10 6 multiplying = .ok (6, multiplied) ∧ multiplied.hi ≠ multiplying.hi ∧
      ∀ idx : BitVec 5, idx ≠ 5 → multiplied.gpr idx = multiplying.gpr idx := by
  have hrun : run exceptionSetup 10 6 multiplying = .ok (6, multiplied) :=
    run_of_returned (by decide +kernel)
  have hcalls : performAll exceptionSetup [.setGpr 5 0x7FFFFFFF, .setPc 0x80001000]
      { tlb := {}, device := multiplyingMemory } = .ok ([none, none], multiplying) :=
    run_of_returned (by decide +kernel)
  have hd := decodedBlocks_of_calls hcalls
  have hexecuted : multiplied.trace.filterMap Event.executed = [0, 0, 0x00A52820, 0x00A50018] := by
    decide +kernel
  have hnop : (getInstFuncPtr true 0).destination 0 = none := by decide +kernel
  have hadd : (getInstFuncPtr true 0x00A52820).destination 0x00A52820 = some 5 := by decide +kernel
  have hmult : (getInstFuncPtr true 0x00A50018).destination 0x00A50018 = none := by decide +kernel
  refine ⟨hrun, by decide +kernel, fun idx hidx => (run_keeps_gpr hd (.inr ⟨6, hrun⟩)).1 idx ?_⟩
  have htrace : multiplying.trace = [] := by decide +kernel
  refine ⟨multiplied.trace, by rw [htrace, List.append_nil], ?_⟩
  have hspares : ∀ opcode ∈ [0#32, 0#32, 0x00A52820#32, 0x00A50018#32],
      SparesGpr exceptionSetup idx opcode := by
    simp only [List.forall_mem_cons]
    refine ⟨?_, ?_, ?_, ?_, by simp⟩
    · exact fun _ h => absurd (hnop.symm.trans h) (by simp)
    · exact fun _ h => absurd (hnop.symm.trans h) (by simp)
    · exact fun _ h => hidx (Option.some.inj (hadd.symm.trans h)).symm
    · exact fun _ h => absurd (hmult.symm.trans h) (by simp)
  rw [hexecuted]
  exact hspares

end MipsBase

end NgMips
