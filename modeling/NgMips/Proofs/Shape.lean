import NgMips.Source.Run

/-!
# What handlers are made of

Every handler looks at registers and at the coprocessor-usable bit, and then either raises
an exception and ends, or performs a sequence of operations of a fixed list, `ActOp`.
`callInst_body` shows this once for all handlers.  A property of instructions is then shown
by going through the list of operations: each names the instructions that may use it, as far
as this matters.
-/

namespace NgMips

/-- The register an instruction reads from a coprocessor. -/
def MipsInstId.copReadIdx (func : MipsInstId) (opcode : BitVec 32) : Option ℕ :=
  match func with
  | .kMfc | .kDmfc => some (rdField opcode).toNat
  | .kCfc => some ((rdField opcode).toNat + 32)
  | .kSwc | .kSdc => some (rtField opcode).toNat
  | _ => none

/-- The register an instruction writes in a coprocessor. -/
def MipsInstId.copWriteIdx (func : MipsInstId) (opcode : BitVec 32) : Option ℕ :=
  match func with
  | .kMtc | .kDmtc => some (rdField opcode).toNat
  | .kCtc => some ((rdField opcode).toNat + 32)
  | .kLwc | .kLdc => some (rtField opcode).toNat
  | _ => none

namespace MipsBase

variable {T δ : Type} [MipsTlbBase T] (m : MipsSetup δ) (opcode : BitVec 32)

/-- The instruction is a command to its coprocessor. -/
def isCopCommand (func : MipsInstId) : Bool :=
  match func with
  | .kCop => true
  | .kMfc | .kCfc | .kMtc | .kCtc | .kLwc | .kSwc =>
      m.config.copDecodingOverride.getLsbD (copId opcode).toNat
  | _ => false

/-! ## The operations -/

/-- The operations that only look. -/
inductive Look : (α : Type) → CpuM T δ α → Prop
  | gpr32 (idx : BitVec 5) : Look _ (readGpr32 idx)
  | gpr64 (idx : BitVec 5) : Look _ (readGpr64 m idx)
  | copEnabled (copId : BitVec 2) : Look _ (isCopEnabled m copId)

/-- The ways to raise an exception. -/
inductive Raise : CpuM T δ Unit → Prop
  | trigger (cause : ExceptionCause) (h : cause.isSynchronous = true) :
      Raise (triggerException m cause)
  | address (cause : ExceptionCause) (h : cause.isSynchronous = true) (address : BitVec 64) :
      Raise (addressError m cause address)
  | copUnusable (copId : BitVec 2) : Raise (copUnusable m copId)
  | break : Raise (instBreak m)

/-- The operations of a handler that does not raise. -/
inductive ActOp (func : MipsInstId) : (α : Type) → CpuM T δ α → Prop
  | gpr32 (idx : BitVec 5) : ActOp func _ (readGpr32 idx)
  | gpr64 (idx : BitVec 5) : ActOp func _ (readGpr64 m idx)
  | hi : ActOp func _ (read MipsBase.hi)
  | lo : ActOp func _ (read MipsBase.lo)
  | writeGpr (idx : BitVec 5) (value : BitVec 64) : ActOp func _ (writeGpr64 idx value)
  | writeHi (value : BitVec 64) : ActOp func _ (writeHi value)
  | writeLo (value : BitVec 64) : ActOp func _ (writeLo value)
  /-- An access to memory. -/
  | load {w : ℕ} (load : δ → BitVec 64 → Served δ (Option (BitVec w))) (address : BitVec 64) :
      ActOp func _ (loadWith m load address)
  | store {w : ℕ} (store : δ → BitVec 64 → BitVec w → Served δ Unit) (address : BitVec 64)
      (value : BitVec w) : ActOp func _ (storeWith m store address value)
  /-- An access to a coprocessor. -/
  | command (h : isCopCommand m opcode func = true) :
      ActOp func _ (copCommand m (copId opcode) opcode)
  | copRead32 (idx : ℕ) (h : func.copReadIdx opcode = some idx) :
      ActOp func _ (copRead32 m (copId opcode) idx)
  | copRead64 (idx : ℕ) (h : func.copReadIdx opcode = some idx)
      (hfunc : func = .kDmfc ∨ func = .kSdc) : ActOp func _ (copRead64 m (copId opcode) idx)
  | copWrite32 (idx : ℕ) (value : BitVec 32) (h : func.copWriteIdx opcode = some idx)
      (hcommand : isCopCommand m opcode func = false) :
      ActOp func _ (copWrite32 m (copId opcode) idx value)
  | copWrite64 (idx : ℕ) (value : BitVec 64) (h : func.copWriteIdx opcode = some idx)
      (hcommand : isCopCommand m opcode func = false) :
      ActOp func _ (copWrite64 m (copId opcode) idx value)
  | getFlag : ActOp func _ (copGetFlag m (copId opcode))
  /-- The parts of branches and jumps. -/
  | jumpRel (h : func.hasDelaySlot = true) (offset : BitVec 32) : ActOp func _ (jumpRel offset)
  | jump64 (h : func.hasDelaySlot = true) (dst : BitVec 64) : ActOp func _ (jump64 dst)
  | link (h : func.hasDelaySlot = true) (dstReg : BitVec 5) : ActOp func _ (linkForJump dstReg)
  | nullify (h : func.hasDelaySlot = true) : ActOp func _ nullifyDelaySlot
  | j (h : func = .kJ) : ActOp func _ (instJ m opcode)
  | jal (h : func = .kJal) : ActOp func _ (instJal opcode)
  | idle (h : func = .kBeq) : ActOp func _ (detectIdleLoop m)
  /-- Invalidation of a cache line. -/
  | cache (h : func = .kCache) : ActOp func _ (instCache m opcode)
  | panic (reason : Panic) (h : reason ≠ .nonBranchOnBd) : ActOp func Unit (throw (.panic reason))

/-- The handlers that act. -/
abbrev Acts (func : MipsInstId) : CpuM T δ Unit → Prop :=
  Prog.Built (ActOp m opcode func)

/-- The form of every handler. -/
abbrev HandlerBody (func : MipsInstId) : CpuM T δ Unit → Prop :=
  Prog.Body (Look m) (Raise m) (Acts m opcode func)

variable {m opcode} {func : MipsInstId}

/-! ## Arithmetic -/

lemma acts_arithR32 (f : BitVec 32 → BitVec 32 → BitVec 32) :
    Acts m opcode func (arithR32 (T := T) opcode f) :=
  .bind (.op (.gpr32 _)) fun _ => .bind (.op (.gpr32 _)) fun _ => .op (.writeGpr _ _)

lemma acts_arithR64 (f : BitVec 64 → BitVec 64 → BitVec 64) :
    Acts m opcode func (arithR64 (T := T) m opcode f) :=
  .bind (.op (.gpr64 _)) fun _ => .bind (.op (.gpr64 _)) fun _ => .op (.writeGpr _ _)

lemma acts_arithI64 (f : BitVec 64 → BitVec 64) :
    Acts m opcode func (arithI64 (T := T) m opcode f) :=
  .bind (.op (.gpr64 _)) fun _ => .op (.writeGpr _ _)

lemma acts_shift32 (f : BitVec 32 → ℕ → BitVec 32) :
    Acts m opcode func (shift32 (T := T) opcode f) :=
  .bind (.op (.gpr32 _)) fun _ => .op (.writeGpr _ _)

lemma acts_shift64 (offset : ℕ) (f : BitVec 64 → ℕ → BitVec 64) :
    Acts m opcode func (shift64 (T := T) m opcode offset f) :=
  .bind (.op (.gpr64 _)) fun _ => .op (.writeGpr _ _)

lemma acts_mulDiv32 (f : BitVec 32 → BitVec 32 → BitVec 32 × BitVec 32) :
    Acts m opcode func (mulDiv32 (T := T) opcode f) :=
  .bind (.op (.gpr32 _)) fun _ => .bind (.op (.gpr32 _)) fun _ =>
    .bind (.op (.writeLo _)) fun _ => .op (.writeHi _)

lemma acts_mulDiv64 (f : BitVec 64 → BitVec 64 → BitVec 64 × BitVec 64) :
    Acts m opcode func (mulDiv64 (T := T) m opcode f) :=
  .bind (.op (.gpr64 _)) fun _ => .bind (.op (.gpr64 _)) fun _ =>
    .bind (.op (.writeLo _)) fun _ => .op (.writeHi _)

lemma body_writeOrTrap (overflow : Bool) (idx : BitVec 5) (value : BitVec 64) :
    HandlerBody m opcode func (writeOrTrap (T := T) m overflow idx value) := by
  rw [writeOrTrap]
  split
  · exact .raise (.trigger .kOvf rfl)
  · exact .act (.op (.writeGpr _ _))

/-- A trapping operation on two low words. -/
lemma body_trapR32 (f : BitVec 32 → BitVec 32 → CpuM T δ Unit)
    (hf : ∀ a b, HandlerBody m opcode func (f a b)) (rs rt : BitVec 5) :
    HandlerBody m opcode func (readGpr32 rs >>= fun a => readGpr32 rt >>= fun b => f a b) :=
  .look (.gpr32 rs) fun a => .look (.gpr32 rt) fun b => hf a b

/-- A trapping operation on two registers. -/
lemma body_trapR64 (f : BitVec 64 → BitVec 64 → CpuM T δ Unit)
    (hf : ∀ a b, HandlerBody m opcode func (f a b)) (rs rt : BitVec 5) :
    HandlerBody m opcode func (readGpr64 m rs >>= fun a => readGpr64 m rt >>= fun b => f a b) :=
  .look (.gpr64 rs) fun a => .look (.gpr64 rt) fun b => hf a b

/-! ## Loads and stores -/

/-- The end of a load: the value is used when there is one. -/
lemma acts_whenLoaded {w : ℕ} (load : δ → BitVec 64 → Served δ (Option (BitVec w)))
    (address : BitVec 64) {f : BitVec w → CpuM T δ Unit}
    (hf : ∀ value, Acts m opcode func (f value)) :
    Acts m opcode func (loadWith m load address >>= fun loadResult =>
      match loadResult with
      | some value => f value
      | none => pure ()) := by
  refine .bind (.op (.load load address)) fun loadResult => ?_
  cases loadResult with
  | some value => exact hf value
  | none => exact .pure ()

lemma body_instLoad {w : ℕ} (mask : BitVec 64)
    (load : δ → BitVec 64 → Served δ (Option (BitVec w))) (extend : BitVec w → BitVec 64) :
    HandlerBody m opcode func (instLoad (T := T) m opcode mask (loadWith m load) extend) := by
  rw [instLoad]
  refine .look (.gpr64 _) fun rsValue => ?_
  dsimp only
  split
  · exact .raise (.address .kAddrl rfl _)
  · exact .act (acts_whenLoaded load _ fun value => .op (.writeGpr _ _))

lemma body_instStore {w : ℕ} (mask : BitVec 64)
    (store : δ → BitVec 64 → BitVec w → Served δ Unit) :
    HandlerBody m opcode func (instStore (T := T) m opcode mask (storeWith m store)) := by
  rw [instStore]
  refine .look (.gpr64 _) fun rsValue => ?_
  dsimp only
  split
  · exact .raise (.address .kAddrs rfl _)
  · exact .act (.bind (.op (.gpr64 _)) fun _ => .op (.store store _ _))

lemma built_loadBytes {w : ℕ} (address : ℕ → BitVec 64) (shamt : ℕ → ℕ) (count : ℕ)
    (value : BitVec w) :
    Prog.Built (ActOp (T := T) m opcode func) (loadBytes m address shamt count value) := by
  refine .foldlM (fun value _ => ?_) _ _
  refine .bind (.op (.load m.bus.load8 _)) fun loadResult => ?_
  cases loadResult with
  | some byte => exact .pure _
  | none => exact .pure _

lemma acts_storeBytes {w : ℕ} (address : ℕ → BitVec 64) (shamt : ℕ → ℕ) (count : ℕ)
    (value : BitVec w) : Acts (T := T) m opcode func (storeBytes m address shamt count value) :=
  .forM (fun _ => .op (.store m.bus.store8 _ _)) _

/-! ## Coprocessors -/

lemma body_whenCopEnabled {body : CpuM T δ Unit} (h : Acts m opcode func body) :
    HandlerBody m opcode func (whenCopEnabled m opcode body) := by
  refine .look (.copEnabled _) fun enabled => ?_
  cases enabled with
  | true => exact .act h
  | false => exact .raise (.copUnusable _)

lemma body_unlessOverridden {body : CpuM T δ Unit}
    (hover : isCopCommand m opcode func =
      m.config.copDecodingOverride.getLsbD (copId opcode).toNat)
    (h : isCopCommand m opcode func = false → Acts m opcode func body) :
    HandlerBody m opcode func (unlessOverridden m opcode body) := by
  rw [unlessOverridden]
  split
  · next hbit => exact body_whenCopEnabled (.op (.command (hover.trans hbit)))
  · next hbit => exact body_whenCopEnabled (h (hover.trans (by simpa using hbit)))

lemma body_moveFromCop (idx : ℕ) (h : func.copReadIdx opcode = some idx)
    (hover : isCopCommand m opcode func =
      m.config.copDecodingOverride.getLsbD (copId opcode).toNat) :
    HandlerBody m opcode func (moveFromCop (T := T) m opcode idx) :=
  body_unlessOverridden hover fun _ =>
    .bind (.op (.copRead32 idx h)) fun _ => .op (.writeGpr _ _)

lemma body_moveToCop (idx : ℕ) (h : func.copWriteIdx opcode = some idx)
    (hover : isCopCommand m opcode func =
      m.config.copDecodingOverride.getLsbD (copId opcode).toNat) :
    HandlerBody m opcode func (moveToCop (T := T) m opcode idx) :=
  body_unlessOverridden hover fun hcommand =>
    .bind (.op (.gpr32 _)) fun _ => .op (.copWrite32 idx _ h hcommand)

lemma acts_loadToCop {w : ℕ} (load : δ → BitVec 64 → Served δ (Option (BitVec w)))
    {write : BitVec w → CpuM T δ Unit} (hwrite : ∀ value, Acts m opcode func (write value)) :
    Acts m opcode func (loadToCop m opcode (loadWith m load) write) :=
  .bind (.op (.gpr64 _)) fun _ => acts_whenLoaded load _ hwrite

lemma acts_storeFromCop {w : ℕ} {readCop : CpuM T δ (BitVec w)}
    (hread : Prog.Built (ActOp m opcode func) readCop)
    (store : δ → BitVec 64 → BitVec w → Served δ Unit) :
    Acts m opcode func (storeFromCop m opcode readCop (storeWith m store)) :=
  .bind (.op (.gpr64 _)) fun _ => .bind hread fun _ => .op (.store store _ _)

/-! ## Branches -/

lemma acts_branchIf (h : func.hasDelaySlot = true) (likely taken : Bool) :
    Acts m opcode func (branchIf opcode likely taken : CpuM T δ Unit) := by
  rw [branchIf]
  split
  · exact .op (.jumpRel h _)
  · split
    · exact .op (.nullify h)
    · exact .pure ()

lemma acts_branchR (h : func.hasDelaySlot = true) (likely : Bool)
    (cond : BitVec 64 → BitVec 64 → Bool) :
    Acts m opcode func (branchR (T := T) m opcode likely cond) :=
  .bind (.op (.gpr64 _)) fun _ => .bind (.op (.gpr64 _)) fun _ => acts_branchIf h _ _

lemma acts_branchZ (h : func.hasDelaySlot = true) (link likely : Bool)
    (cond : BitVec 64 → Bool) :
    Acts m opcode func (branchZ (T := T) m opcode link likely cond) := by
  refine .bind (.op (.gpr64 _)) fun rsValue => ?_
  dsimp only
  split
  · exact .bind (.op (.link h _)) fun _ => acts_branchIf h _ _
  · exact acts_branchIf h _ _

lemma body_branchCop (h : func.hasDelaySlot = true) (likely onFlag : Bool) :
    HandlerBody m opcode func (branchCop (T := T) m opcode likely onFlag) :=
  body_whenCopEnabled (.bind (.op .getFlag) fun _ => acts_branchIf h _ _)

lemma acts_instBeq (h : func = .kBeq) : Acts m opcode func (instBeq (T := T) m opcode) := by
  have hslot : func.hasDelaySlot = true := h ▸ rfl
  rw [instBeq]
  split
  · exact .bind (.op (.idle h)) fun _ => acts_branchR hslot _ _
  · exact acts_branchR hslot _ _

lemma acts_instJr (h : func.hasDelaySlot = true) :
    Acts m opcode func (instJr (T := T) m opcode) := by
  refine .bind (.op (.gpr64 _)) fun rsValue => ?_
  split
  · exact .op (.panic _ (by decide))
  · exact .op (.jump64 h _)

lemma acts_instJalr (h : func.hasDelaySlot = true) :
    Acts m opcode func (instJalr (T := T) m opcode) := by
  refine .bind (.op (.gpr64 _)) fun rsValue => ?_
  split
  · exact .op (.panic _ (by decide))
  · exact .bind (.op (.link h _)) fun _ => .op (.jump64 h _)

/-! ## All handlers -/

variable (m opcode) in
/-- Every handler looks, and then raises or acts. -/
theorem callInst_body (func : MipsInstId) :
    HandlerBody m opcode func (callInst (T := T) m opcode func) := by
  cases func with
  | kAdd => exact body_trapR32 _ (fun _ _ => body_writeOrTrap _ _ _) _ _
  | kAddu => exact .act (acts_arithR32 _)
  | kAddi => exact .look (.gpr32 _) fun _ => body_writeOrTrap _ _ _
  | kAddiu => exact .act (.bind (.op (.gpr32 _)) fun _ => .op (.writeGpr _ _))
  | kAnd => exact .act (acts_arithR64 _)
  | kAndi => exact .act (acts_arithI64 _)
  | kDiv => exact .act (acts_mulDiv32 _)
  | kDivu => exact .act (acts_mulDiv32 _)
  | kMult => exact .act (acts_mulDiv32 _)
  | kMultu => exact .act (acts_mulDiv32 _)
  | kNor => exact .act (acts_arithR64 _)
  | kOr => exact .act (acts_arithR64 _)
  | kOri => exact .act (acts_arithI64 _)
  | kSll => exact .act (acts_shift32 _)
  | kSllv => exact .act (acts_arithR32 _)
  | kSra => exact .act (acts_shift32 _)
  | kSrav => exact .act (acts_arithR32 _)
  | kSrl => exact .act (acts_shift32 _)
  | kSrlv => exact .act (acts_arithR32 _)
  | kSub => exact body_trapR32 _ (fun _ _ => body_writeOrTrap _ _ _) _ _
  | kSubu => exact .act (acts_arithR32 _)
  | kXor => exact .act (acts_arithR64 _)
  | kXori => exact .act (acts_arithI64 _)
  | kLui => exact .act (.op (.writeGpr _ _))
  | kSlt => exact .act (acts_arithR64 _)
  | kSltu => exact .act (acts_arithR64 _)
  | kSlti => exact .act (acts_arithI64 _)
  | kSltiu => exact .act (acts_arithI64 _)
  | kBeq => exact .act (acts_instBeq rfl)
  | kBne => exact .act (acts_branchR rfl _ _)
  | kBgtz => exact .act (acts_branchZ rfl _ _ _)
  | kBlez => exact .act (acts_branchZ rfl _ _ _)
  | kBgez => exact .act (acts_branchZ rfl _ _ _)
  | kBgezal => exact .act (acts_branchZ rfl _ _ _)
  | kBltz => exact .act (acts_branchZ rfl _ _ _)
  | kBltzal => exact .act (acts_branchZ rfl _ _ _)
  | kJ => exact .act (.op (.j rfl))
  | kJal => exact .act (.op (.jal rfl))
  | kJr => exact .act (acts_instJr rfl)
  | kJalr => exact .act (acts_instJalr rfl)
  | kSyscall => exact .raise (.trigger .kSyscall rfl)
  | kBreak => exact .raise .break
  | kLb => exact body_instLoad _ _ _
  | kLbu => exact body_instLoad _ _ _
  | kLh => exact body_instLoad _ _ _
  | kLhu => exact body_instLoad _ _ _
  | kLw => exact body_instLoad _ _ _
  | kLwl =>
      exact .act (.bind (.op (.gpr64 _)) fun _ => .bind (.op (.gpr32 _)) fun _ =>
        .bind (built_loadBytes _ _ _ _) fun _ => .op (.writeGpr _ _))
  | kLwr =>
      exact .act (.bind (.op (.gpr64 _)) fun _ => .bind (.op (.gpr32 _)) fun _ =>
        .bind (built_loadBytes _ _ _ _) fun _ => .op (.writeGpr _ _))
  | kLwc =>
      exact body_unlessOverridden rfl fun hcommand =>
        acts_loadToCop _ fun _ => .op (.copWrite32 _ _ rfl hcommand)
  | kSb => exact body_instStore _ _
  | kSh => exact body_instStore _ _
  | kSw => exact body_instStore _ _
  | kSwl =>
      exact .act (.bind (.op (.gpr64 _)) fun _ => .bind (.op (.gpr32 _)) fun _ =>
        acts_storeBytes _ _ _ _)
  | kSwr =>
      exact .act (.bind (.op (.gpr64 _)) fun _ => .bind (.op (.gpr32 _)) fun _ =>
        acts_storeBytes _ _ _ _)
  | kSwc =>
      exact body_unlessOverridden rfl fun _ => acts_storeFromCop (.op (.copRead32 _ rfl)) _
  | kMfhi => exact .act (.bind (.op .hi) fun _ => .op (.writeGpr _ _))
  | kMflo => exact .act (.bind (.op .lo) fun _ => .op (.writeGpr _ _))
  | kMthi => exact .act (.bind (.op (.gpr64 _)) fun _ => .op (.writeHi _))
  | kMtlo => exact .act (.bind (.op (.gpr64 _)) fun _ => .op (.writeLo _))
  | kCop => exact body_whenCopEnabled (.op (.command rfl))
  | kMfc => exact body_moveFromCop _ rfl rfl
  | kCfc => exact body_moveFromCop _ rfl rfl
  | kMtc => exact body_moveToCop _ rfl rfl
  | kCtc => exact body_moveToCop _ rfl rfl
  | kNop => exact .act (.pure ())
  | kBcf => exact body_branchCop rfl _ _
  | kBcfl => exact body_branchCop rfl _ _
  | kBct => exact body_branchCop rfl _ _
  | kBctl => exact body_branchCop rfl _ _
  | kBeql => exact .act (acts_branchR rfl _ _)
  | kBnel => exact .act (acts_branchR rfl _ _)
  | kBgezl => exact .act (acts_branchZ rfl _ _ _)
  | kBgezall => exact .act (acts_branchZ rfl _ _ _)
  | kBgtzl => exact .act (acts_branchZ rfl _ _ _)
  | kBlezl => exact .act (acts_branchZ rfl _ _ _)
  | kBltzl => exact .act (acts_branchZ rfl _ _ _)
  | kBltzall => exact .act (acts_branchZ rfl _ _ _)
  | kCache => exact .act (.op (.cache rfl))
  | kDadd => exact body_trapR64 _ (fun _ _ => body_writeOrTrap _ _ _) _ _
  | kDaddu => exact .act (acts_arithR64 _)
  | kDaddi => exact .look (.gpr64 _) fun _ => body_writeOrTrap _ _ _
  | kDaddiu => exact .act (acts_arithI64 _)
  | kDsub => exact body_trapR64 _ (fun _ _ => body_writeOrTrap _ _ _) _ _
  | kDsubu => exact .act (acts_arithR64 _)
  | kDmult => exact .act (acts_mulDiv64 _)
  | kDmultu => exact .act (acts_mulDiv64 _)
  | kDdiv => exact .act (acts_mulDiv64 _)
  | kDdivu => exact .act (acts_mulDiv64 _)
  | kDsll => exact .act (acts_shift64 _ _)
  | kDsll32 => exact .act (acts_shift64 _ _)
  | kDsllv => exact .act (acts_arithR64 _)
  | kDsra => exact .act (acts_shift64 _ _)
  | kDsra32 => exact .act (acts_shift64 _ _)
  | kDsrav => exact .act (acts_arithR64 _)
  | kDsrl => exact .act (acts_shift64 _ _)
  | kDsrl32 => exact .act (acts_shift64 _ _)
  | kDsrlv => exact .act (acts_arithR64 _)
  | kDmfc =>
      exact body_whenCopEnabled
        (.bind (.op (.copRead64 _ rfl (.inl rfl))) fun _ => .op (.writeGpr _ _))
  | kDmtc =>
      exact body_whenCopEnabled (.bind (.op (.gpr64 _)) fun _ => .op (.copWrite64 _ _ rfl rfl))
  | kLd => exact body_instLoad _ _ _
  | kLdc => exact body_whenCopEnabled (acts_loadToCop _ fun _ => .op (.copWrite64 _ _ rfl rfl))
  | kLdl =>
      exact .act (.bind (.op (.gpr64 _)) fun _ => .bind (.op (.gpr64 _)) fun _ =>
        .bind (built_loadBytes _ _ _ _) fun _ => .op (.writeGpr _ _))
  | kLdr =>
      exact .act (.bind (.op (.gpr64 _)) fun _ => .bind (.op (.gpr64 _)) fun _ =>
        .bind (built_loadBytes _ _ _ _) fun _ => .op (.writeGpr _ _))
  | kLwu => exact body_instLoad _ _ _
  | kSd => exact body_instStore _ _
  | kSdc =>
      exact body_whenCopEnabled
        (acts_storeFromCop (.op (.copRead64 _ rfl (.inr rfl))) _)
  | kSdl =>
      exact .act (.bind (.op (.gpr64 _)) fun _ => .bind (.op (.gpr64 _)) fun _ =>
        acts_storeBytes _ _ _ _)
  | kSdr =>
      exact .act (.bind (.op (.gpr64 _)) fun _ => .bind (.op (.gpr64 _)) fun _ =>
        acts_storeBytes _ _ _ _)
  | kSync => exact .act (.pure ())
  | kLl => exact .act (.op (.panic _ (by decide)))
  | kLld => exact .act (.op (.panic _ (by decide)))
  | kSc => exact .act (.op (.panic _ (by decide)))
  | kScd => exact .act (.op (.panic _ (by decide)))
  | kUnknown => exact .act (.op (.panic _ (by decide)))

end MipsBase

end NgMips
