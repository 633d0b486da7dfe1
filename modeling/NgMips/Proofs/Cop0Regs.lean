import NgMips.Lib.Bits
import NgMips.Proofs.Elementary

/-!
# What instructions do to the registers of coprocessor 0

Most instructions leave the registers of coprocessor 0 alone, but for the bad address of a fault.
The others are told apart by the register they name: `RegStep` lists what they do, and `act_regs`
shows that nothing else happens.  A property of a register then needs one line for each way to
change it.
-/

namespace NgMips

/-! ## Decoding -/

/-- The coprocessor number is a part of the operation field. -/
lemma copId_eq (opcode : BitVec 32) : copId opcode = (opField opcode).setWidth 2 := by
  ext i hi
  simp only [copId, opField, BitVec.getElem_setWidth, BitVec.getElem_extractLsb',
    BitVec.getLsbD_extractLsb']
  simp [Nat.lt_of_lt_of_le hi (by decide : 2 ≤ 6)]

/-- No load of a register of coprocessor 0 is decoded. -/
lemma copId_ne_zero_of_load {opcode : BitVec 32}
    (h : decode opcode = .kLwc ∨ decode opcode = .kLdc) : copId opcode ≠ 0#2 := by
  intro hzero
  have hfield : ∀ op : BitVec 6, op.setWidth 2 = 0#2 →
      op ∈ [0x00#6, 0x04#6, 0x08#6, 0x0C#6, 0x10#6, 0x14#6, 0x18#6, 0x1C#6, 0x20#6, 0x24#6,
        0x28#6, 0x2C#6, 0x30#6, 0x34#6, 0x38#6, 0x3C#6] := by decide
  have htypeR : decodeTypeR opcode ≠ .kLwc ∧ decodeTypeR opcode ≠ .kLdc := by
    rw [decodeTypeR]
    split
    · simp
    · split
      · simp
      · split <;> simp
  have hcop : decodeCop opcode ≠ .kLwc ∧ decodeCop opcode ≠ .kLdc := by
    have hflag : decodeCopBranch opcode ≠ .kLwc ∧ decodeCopBranch opcode ≠ .kLdc := by
      rw [decodeCopBranch]
      split <;> simp
    rw [decodeCop]
    split <;> first | exact hflag | simp
  rw [copId_eq] at hzero
  have hmem := hfield _ hzero
  simp only [List.mem_cons, List.not_mem_nil, or_false] at hmem
  -- Only the words with operation field 0 or 0x10 are decoded further.
  rw [decode.eq_def] at h
  rcases hmem with hop | hop | hop | hop | hop | hop | hop | hop | hop | hop | hop | hop | hop |
    hop | hop | hop <;> rw [hop] at h <;>
    first
      | exact h.elim htypeR.1 htypeR.2
      | exact h.elim hcop.1 hcop.2
      | exact h.elim (fun h => nomatch h) fun h => nomatch h

/-- The handler of an instruction that the 64-bit processor has is the one decoded. -/
lemma getInstFuncPtr_of_handled {opcode : BitVec 32} {func : MipsInstId}
    (hdecode : decode opcode = func) (hfunc : func.isUnhandled = false) :
    getInstFuncPtr true opcode = func := by
  simp [getInstFuncPtr, hdecode, hfunc]

/-- The instructions that may skip an idle loop. -/
def MipsInstId.skipsIdle : MipsInstId → Bool
  | kBeq | kJ => true
  | _ => false

namespace MipsBase

variable {T δ : Type} [MipsTlbBase T] {m : MipsSetup δ} {opcode : BitVec 32} {func : MipsInstId}

/-! ## Moves -/

section Moves

variable (m) (idx : BitVec 5) (opcode : BitVec 32)

omit [MipsTlbBase T]

/-- An instruction that writes a register of coprocessor 0: `MTC0`, when it is not turned into a
command, and `DMTC0`. -/
def writesReg : Bool :=
  copId opcode == 0 && rdField opcode == idx &&
    ((decode opcode == .kMtc && !m.config.copDecodingOverride.getLsbD 0) || decode opcode == .kDmtc)

/-- An instruction that reads a register of coprocessor 0: `MFC0`, when it is not turned into a
command, and `DMFC0`. -/
def readsReg : Bool :=
  copId opcode == 0 && rdField opcode == idx &&
    ((decode opcode == .kMfc && !m.config.copDecodingOverride.getLsbD 0) || decode opcode == .kDmfc)

/-- What such an instruction leaves in a general register. -/
def movedValue (value : BitVec 64) : BitVec 64 :=
  if decode opcode = .kMfc then (value.setWidth 32).signExtend 64 else value

variable {opcode} in
/-- Both moves keep the low word, and with it the value of a register of 32 bits. -/
lemma movedValue_inj {x y : BitVec 32}
    (h : movedValue opcode (x.setWidth 64) = movedValue opcode (y.setWidth 64)) : x = y := by
  have hlow : ∀ z : BitVec 32, (movedValue opcode (z.setWidth 64)).setWidth 32 = z := by
    intro z
    have hback : (z.setWidth 64).setWidth 32 = z := by
      rw [BitVec.setWidth_setWidth_of_le _ (by decide), BitVec.setWidth_eq]
    rw [movedValue, hback]
    split
    · exact setWidth_signExtend (by decide) z
    · exact hback
  rw [← hlow x, h, hlow]

/-- An instruction that gives coprocessor 0 a command. -/
def isCop0Command (funct : BitVec 6) : Bool :=
  copId opcode == 0 && functField opcode == funct &&
    isCopCommand m opcode (getInstFuncPtr m.kIs64Bit opcode)

end Moves

section MovesRun

variable {idx : BitVec 5}

/-- Coprocessor 0 is always usable. -/
lemma whenCopEnabled_run (hm : m.IsN64) (hcop : copId opcode = 0#2) (body : CpuM T δ Unit)
    (s : MipsBase T δ) : whenCopEnabled m opcode body s = body s := by
  have henabled : isCopEnabled m (copId opcode) s = .ok (true, s) := by
    rw [isCopEnabled_run hm, hcop]
    rfl
  rw [whenCopEnabled, Prog.bind_of_ok henabled]
  rfl

/-- A move that is not turned into a command. -/
lemma unlessOverridden_run (hm : m.IsN64) (hcop : copId opcode = 0#2)
    (hover : m.config.copDecodingOverride.getLsbD 0 = false) (body : CpuM T δ Unit)
    (s : MipsBase T δ) : unlessOverridden m opcode body s = body s := by
  have hbit : ¬ m.config.copDecodingOverride.getLsbD (copId opcode).toNat = true := by
    rw [hcop, Bool.not_eq_true]
    exact hover
  rw [unlessOverridden, if_neg hbit, whenCopEnabled_run hm hcop]

/-- A move to coprocessor 0 is a write through its port. -/
lemma callInst_writesReg (hm : m.IsN64) (hw : writesReg m idx opcode = true) (s : MipsBase T δ) :
    ∃ context value, value.setWidth 32 = (s.gpr (rtField opcode)).setWidth 32 ∧
      callInst m opcode (getInstFuncPtr m.kIs64Bit opcode) s =
        cop0Write context idx.toNat value s := by
  simp only [writesReg, Bool.and_eq_true, Bool.or_eq_true, beq_iff_eq, Bool.not_eq_true'] at hw
  obtain ⟨⟨hzero, rfl⟩, hdecode⟩ := hw
  have hcop : copId opcode = 0#2 := hzero
  rw [hm.is64Bit]
  rcases hdecode with ⟨hdecode, hover⟩ | hdecode
  · rw [getInstFuncPtr_of_handled hdecode rfl]
    change ∃ context value, _ ∧ instMtc m opcode s = _
    rw [instMtc, moveToCop, unlessOverridden_run hm hcop hover,
      Prog.bind_of_ok (readGpr32_run _ _), copWrite32, hcop, hm.slot_zero]
    refine ⟨_, _, ?_, rfl⟩
    rw [BitVec.setWidth_setWidth_of_le _ (by decide), BitVec.setWidth_eq]
  · rw [getInstFuncPtr_of_handled hdecode rfl]
    change ∃ context value, _ ∧ instDmtc m opcode s = _
    rw [instDmtc, whenCopEnabled_run hm hcop, Prog.bind_of_ok (readGpr64_run hm _ _), copWrite64,
      hcop, hm.slot_zero]
    exact ⟨_, _, rfl, rfl⟩

/-- A move from coprocessor 0 is a read through its port. -/
lemma callInst_readsReg (hm : m.IsN64) (hr : readsReg m idx opcode = true) (s : MipsBase T δ) :
    callInst m opcode (getInstFuncPtr m.kIs64Bit opcode) s =
      (cop0Read64 idx.toNat >>= fun value =>
        writeGpr64 (rtField opcode) (movedValue opcode value)) s := by
  simp only [readsReg, Bool.and_eq_true, Bool.or_eq_true, beq_iff_eq, Bool.not_eq_true'] at hr
  obtain ⟨⟨hzero, rfl⟩, hdecode⟩ := hr
  have hcop : copId opcode = 0#2 := hzero
  rw [hm.is64Bit]
  rcases hdecode with ⟨hdecode, hover⟩ | hdecode
  · rw [getInstFuncPtr_of_handled hdecode rfl]
    change instMfc m opcode s = _
    rw [instMfc, moveFromCop, unlessOverridden_run hm hcop hover, copRead32, hcop, hm.slot_zero]
    simp only [movedValue, hdecode, if_true, cop0Read32, bind_assoc, pure_bind, writeGpr32Sext]
  · rw [getInstFuncPtr_of_handled hdecode rfl]
    change instDmfc m opcode s = _
    rw [instDmfc, whenCopEnabled_run hm hcop, copRead64, hcop, hm.slot_zero]
    simp only [movedValue, hdecode]
    rfl

/-- A command is run by the coprocessor. -/
lemma callInst_isCop0Command (hm : m.IsN64) {funct : BitVec 6}
    (hc : isCop0Command m opcode funct = true) (s : MipsBase T δ) :
    functField opcode = funct ∧ callInst m opcode (getInstFuncPtr m.kIs64Bit opcode) s =
      cop0Command opcode s := by
  simp only [isCop0Command, Bool.and_eq_true, beq_iff_eq] at hc
  obtain ⟨⟨hzero, hfunct⟩, hcommand⟩ := hc
  have hcop : copId opcode = 0#2 := hzero
  have hport : instCop m opcode s = cop0Command opcode s := by
    rw [instCop, whenCopEnabled_run hm hcop, copCommand, hcop, hm.slot_zero]
  have hover : ∀ body : CpuM T δ Unit,
      m.config.copDecodingOverride.getLsbD (copId opcode).toNat = true →
      unlessOverridden m opcode body s = cop0Command opcode s := by
    intro body hbit
    rw [unlessOverridden, if_pos hbit, hport]
  refine ⟨hfunct, ?_⟩
  generalize getInstFuncPtr m.kIs64Bit opcode = func at hcommand ⊢
  cases func <;> simp only [isCopCommand, Bool.false_eq_true] at hcommand
  case kCop => exact hport
  all_goals exact hover _ hcommand

omit [MipsTlbBase T] in
/-- Every other instruction writes some other register, if any. -/
lemma copWriteIdx_ne (hw : writesReg m idx opcode = false) (hcop : copId opcode = 0#2)
    (hcommand : isCopCommand m opcode (getInstFuncPtr true opcode) = false) :
    (getInstFuncPtr true opcode).copWriteIdx opcode ≠ some idx.toNat := by
  have hrd : (rdField opcode).toNat = idx.toNat → rdField opcode = idx := BitVec.eq_of_toNat_eq
  have hload : decode opcode = .kLwc ∨ decode opcode = .kLdc → copId opcode ≠ 0#2 :=
    copId_ne_zero_of_load
  have hover : (copId opcode).toNat = 0 := by rw [hcop]; rfl
  simp only [getInstFuncPtr, Bool.not_true, Bool.false_and, Bool.false_eq_true, if_false]
    at hcommand ⊢
  split
  · simp [MipsInstId.copWriteIdx]
  · next hhandled =>
      rw [if_neg hhandled] at hcommand
      cases hdecode : decode opcode <;> try simp [MipsInstId.copWriteIdx]
      case kMtc =>
        intro hidx
        rw [hdecode, isCopCommand, hover] at hcommand
        have hwrite : writesReg m idx opcode = true := by
          rw [writesReg, hcop, hrd hidx, hdecode, hcommand]
          simp
        exact absurd (hw.symm.trans hwrite) (by simp)
      case kDmtc =>
        intro hidx
        have hwrite : writesReg m idx opcode = true := by
          rw [writesReg, hcop, hrd hidx, hdecode]
          simp
        exact absurd (hw.symm.trans hwrite) (by simp)
      case kCtc =>
        have hlt := idx.isLt
        omega
      case kLwc => exact absurd hcop (hload (.inl hdecode))
      case kLdc => exact absurd hcop (hload (.inr hdecode))

end MovesRun

/-! ## Everything else -/

/-- The registers are the same, but for the bad address, and so are the coprocessor that was not
usable and the time, unless an idle loop is skipped. -/
structure RegsKept (func : MipsInstId) (s s' : MipsBase T δ) : Prop where
  cop0 : s'.cop0 = { s.cop0 with badvaddr := s'.cop0.badvaddr }
  copCause : s'.copCause = s.copCause
  timestamp : func.skipsIdle = false → s'.timestamp = s.timestamp

namespace RegsKept

omit [MipsTlbBase T]

lemma refl (s : MipsBase T δ) : RegsKept func s s := ⟨rfl, rfl, fun _ => rfl⟩

lemma trans {s t u : MipsBase T δ} (h : RegsKept func s t) (h' : RegsKept func t u) :
    RegsKept func s u := by
  refine ⟨?_, h'.copCause.trans h.copCause, fun hidle =>
    (h'.timestamp hidle).trans (h.timestamp hidle)⟩
  rw [h'.cop0, h.cop0]

/-- Something else was changed. -/
lemma of_same {s s' : MipsBase T δ} (hcop0 : s'.cop0 = s.cop0)
    (hcause : s'.copCause = s.copCause) (htime : s'.cycleSpentTotal = s.cycleSpentTotal) :
    RegsKept func s s' :=
  ⟨by rw [hcop0], hcause, fun _ => by rw [MipsBase.timestamp, MipsBase.timestamp, htime]⟩

end RegsKept

section Kept

omit [MipsTlbBase T] in
lemma kept_pure {α : Type} (a : α) : Prog.Moves (RegsKept func) (pure a : CpuM T δ α) :=
  .of_pure .refl a

omit [MipsTlbBase T] in
lemma kept_read {α : Type} (f : MipsBase T δ → α) : Prog.Moves (RegsKept func) (read f) :=
  .of_read .refl f

omit [MipsTlbBase T] in
lemma kept_modify {f : MipsBase T δ → MipsBase T δ}
    (h : ∀ s, (f s).cop0 = s.cop0 ∧ (f s).copCause = s.copCause ∧
      (f s).cycleSpentTotal = s.cycleSpentTotal) :
    Prog.Moves (RegsKept func) (modify f : CpuM T δ PUnit) :=
  .of_modify fun s => .of_same (h s).1 (h s).2.1 (h s).2.2

omit [MipsTlbBase T] in
lemma kept_access {α : Type} (f : δ → Served δ α) :
    Prog.Moves (RegsKept func) (access f : CpuM T δ α) := by
  intro s a s' h
  obtain ⟨device, halt, cache, rfl⟩ := access_ok h
  exact .of_same rfl rfl rfl

omit [MipsTlbBase T] in
lemma kept_writeGpr64 (idx : BitVec 5) (value : BitVec 64) :
    Prog.Moves (RegsKept func) (writeGpr64 idx value : CpuM T δ Unit) := by
  intro s a s' h
  obtain ⟨gpr, rfl⟩ := writeGpr64_ok h
  exact .of_same rfl rfl rfl

omit [MipsTlbBase T] in
lemma kept_readStatus (hm : m.IsN64) :
    Prog.Moves (RegsKept func) (copRead32Internal m 12 : CpuM T δ (BitVec 32)) := by
  intro s a s' h
  rw [copRead32Internal_status hm] at h
  rw [← Prog.state_eq h]
  exact .refl s

lemma kept_fault (hm : m.IsN64) {cause : ExceptionCause} (hcause : cause.isTlb = true)
    (address : BitVec 64) :
    Prog.Moves (RegsKept func)
      (translationFault (T := T) m (triggerException m) cause address) := by
  intro s a s' h
  rw [(translationFault_ok hm hcause h).2]
  exact ⟨rfl, rfl, fun _ => rfl⟩

lemma kept_loadWith (hm : m.IsN64) {w : ℕ} (load : δ → BitVec 64 → Served δ (Option (BitVec w)))
    (address : BitVec 64) : Prog.Moves (RegsKept func) (loadWith (T := T) m load address) := by
  refine .bind (fun _ _ _ => .trans) (kept_read _) fun result => ?_
  split
  · refine .bind (fun _ _ _ => .trans) (kept_modify fun _ => ⟨rfl, rfl, rfl⟩) fun _ =>
      .bind (fun _ _ _ => .trans) (kept_access _) fun value => ?_
    split
    · exact kept_pure value
    · exact .of_throw _
  · exact .bind (fun _ _ _ => .trans) (kept_fault hm rfl address) fun _ => kept_pure none

lemma kept_storeWith (hm : m.IsN64) {w : ℕ} (store : δ → BitVec 64 → BitVec w → Served δ Unit)
    (address : BitVec 64) (value : BitVec w) :
    Prog.Moves (RegsKept func) (storeWith (T := T) m store address value) := by
  have hisolated : Prog.Moves (RegsKept func) (isIsolated (T := T) m) := by
    rw [isIsolated]
    split
    · exact .bind (fun _ _ _ => .trans) (kept_readStatus hm) fun _ => kept_pure _
    · exact kept_pure _
  refine .bind (fun _ _ _ => .trans) hisolated fun isolated => ?_
  split
  · exact kept_pure ()
  · refine .bind (fun _ _ _ => .trans) (kept_read _) fun result => ?_
    split
    · split
      · exact kept_fault hm rfl address
      · exact .bind (fun _ _ _ => .trans) (kept_modify fun _ => ⟨rfl, rfl, rfl⟩) fun _ =>
          kept_access _
    · exact kept_fault hm rfl address

lemma kept_detectIdleLoop (hm : m.IsN64) (hidle : func.skipsIdle = true) :
    Prog.Moves (RegsKept func) (detectIdleLoop (T := T) m) := by
  refine .bind (fun _ _ _ => .trans) (kept_read _) fun pc =>
    .bind (fun _ _ _ => .trans) (.bind (fun _ _ _ => .trans) (kept_read _) fun result => ?_)
      fun delayOp => ?_
  · split
    · intro s a s' h
      rw [← Prog.state_eq h]
      exact .of_same rfl rfl rfl
    · exact .bind (fun _ _ _ => .trans) (kept_fault hm rfl _) fun _ => kept_pure 0
  · split
    · exact .of_modify fun s => ⟨rfl, rfl, fun h => absurd (hidle.symm.trans h) (by simp)⟩
    · exact kept_pure ()

omit [MipsTlbBase T] in
lemma kept_getFr (hm : m.IsN64) : Prog.Moves (RegsKept func) (getFr (T := T) m) :=
  .bind (fun _ _ _ => .trans) (kept_readStatus hm) fun _ => kept_pure _

omit [MipsTlbBase T] in
lemma kept_setFpu (f : MipsFpu → Except Stop MipsFpu) :
    Prog.Moves (RegsKept func) (setFpu f : CpuM T δ Unit) := by
  intro s a s' h
  obtain ⟨fpu, rfl⟩ := setFpu_ok h
  exact .of_same rfl rfl rfl

end Kept

/-! ## The registers -/

variable (m opcode func) in
/-- What an operation of an instruction does to the registers and to the time. -/
inductive RegStep (s s' : MipsBase T δ) : Prop
  | keeps (h : RegsKept func s s')
  /-- `Count` is read. -/
  | reads (hidx : func.copReadIdx opcode = some 9)
      (hcop0 : s'.cop0 = (s.cop0.getCount s.timestamp).2) (hcause : s'.copCause = s.copCause)
      (htime : s'.timestamp = s.timestamp)
  /-- A register is written. -/
  | writes (hcop : copId opcode = 0#2) (hcommand : isCopCommand m opcode func = false) {idx : ℕ}
      (hidx : func.copWriteIdx opcode = some idx) {context value : BitVec 64}
      (hwrite : cop0Write context idx value s = .ok ((), s'))
  /-- `RFE` and `ERET`. -/
  | returns (hcop : copId opcode = 0#2) (hcommand : isCopCommand m opcode func = true)
      (hfunct : functField opcode = 0x10#6 ∨ functField opcode = 0x18#6)
      (hcop0 : s'.cop0 = { s.cop0 with sr := s'.cop0.sr }) (hcause : s'.copCause = s.copCause)
      (htime : s'.timestamp = s.timestamp)

section Operations

variable {R : MipsBase T δ → MipsBase T δ → Prop}
  (hR : ∀ s s', RegStep m opcode func s s' → R s s')

include hR

lemma regs_keeps {α : Type} {x : CpuM T δ α} (h : Prog.Moves (RegsKept func) x) :
    Prog.Moves R x := h.mono fun s s' hkept => hR s s' (.keeps hkept)

lemma regs_cop0Command (hcop : copId opcode = 0#2)
    (hcommand : isCopCommand m opcode func = true) (htrans : ∀ s t u, R s t → R t u → R s u) :
    Prog.Moves R (cop0Command opcode : CpuM T δ Unit) := by
  have htlb : ∀ f : T → T, Prog.Moves R (modifyTlb f : CpuM T δ Unit) := fun f =>
    regs_keeps hR (kept_modify fun _ => ⟨rfl, rfl, rfl⟩)
  rw [cop0Command]
  split
  case h_1 => exact htlb _
  case h_2 => exact htlb _
  case h_3 =>
    refine .bind htrans (regs_keeps hR fun s a s' h => ?_) fun _ => htlb _
    obtain ⟨state, rfl⟩ := readRandom_ok h
    exact .of_same rfl rfl rfl
  case h_4 => exact htlb _
  case h_5 hfunct =>
    exact .of_modify fun s => hR _ _ (.returns hcop hcommand (.inl hfunct) rfl rfl rfl)
  case h_6 hfunct =>
    intro s a s' h
    rw [eret_run] at h
    rw [← Prog.state_eq h]
    exact hR _ _ (.returns hcop hcommand (.inr hfunct) rfl rfl rfl)
  case h_7 => exact regs_keeps hR (kept_pure ())

lemma regs_cop0Read64 {idx : ℕ} (hidx : func.copReadIdx opcode = some idx)
    (htrans : ∀ s t u, R s t → R t u → R s u) :
    Prog.Moves R (cop0Read64 idx : CpuM T δ (BitVec 64)) := by
  rw [cop0Read64.eq_def]
  split
  case h_2 =>
    refine .bind htrans (regs_keeps hR fun s a s' h => ?_) fun _ => regs_keeps hR (kept_pure _)
    obtain ⟨state, rfl⟩ := readRandom_ok h
    exact .of_same rfl rfl rfl
  case h_9 =>
    refine .bind htrans (fun s a s' h => ?_) fun _ => regs_keeps hR (kept_pure _)
    rw [← Prog.state_eq h]
    exact hR _ _ (.reads hidx rfl rfl rfl)
  case h_15 => exact regs_keeps hR (kept_pure _)
  case h_17 => exact regs_keeps hR (kept_pure _)
  all_goals exact regs_keeps hR (kept_read _)

/-- The operations at the ports of the coprocessors. -/
lemma regs_port (hm : m.IsN64) {α : Type}
    {x : CpuM T δ α} {copId' : BitVec 2} {onCop0 : CpuM T δ α} {onFpu : Bool → CpuM T δ α}
    {onDevice : δ → Served δ α} {onDummy : α}
    (hx : x = match m.slot copId' with
      | .cop0 => onCop0
      | .fpu => getFr m >>= onFpu
      | .device => access onDevice
      | .dummy => pure onDummy)
    (hcop0 : copId' = 0#2 → Prog.Moves R onCop0)
    (hfpu : ∀ fr, Prog.Moves (RegsKept func) (onFpu fr)) : Prog.Moves R x := by
  rw [hx]
  split
  · next hslot => exact hcop0 (slot_cop0 hslot)
  · exact regs_keeps hR (.bind (fun _ _ _ => .trans) (kept_getFr hm) hfpu)
  · exact regs_keeps hR (kept_access _)
  · exact regs_keeps hR (kept_pure _)

/-- No operation does anything else. -/
lemma regs_actOp (hm : m.IsN64) (htrans : ∀ s t u, R s t → R t u → R s u) (α : Type)
    (x : CpuM T δ α) (hx : ActOp m opcode func α x) : Prog.Moves R x := by
  have hjump : ∀ dst, Prog.Moves (RegsKept func) (setBranchDelay dst : CpuM T δ Unit) :=
    fun dst => kept_modify fun _ => ⟨rfl, rfl, rfl⟩
  have hlink : ∀ dstReg, Prog.Moves (RegsKept func) (linkForJump dstReg : CpuM T δ Unit) :=
    fun dstReg => .bind (fun _ _ _ => .trans) (kept_read _) fun _ => kept_writeGpr64 _ _
  cases hx with
  | gpr32 idx => exact regs_keeps hR (kept_read _)
  | gpr64 idx => exact regs_keeps hR (kept_read _)
  | hi => exact regs_keeps hR (kept_read _)
  | lo => exact regs_keeps hR (kept_read _)
  | writeGpr idx value => exact regs_keeps hR (kept_writeGpr64 idx value)
  | writeHi value => exact regs_keeps hR (kept_modify fun _ => ⟨rfl, rfl, rfl⟩)
  | writeLo value => exact regs_keeps hR (kept_modify fun _ => ⟨rfl, rfl, rfl⟩)
  | load load address => exact regs_keeps hR (kept_loadWith hm load address)
  | store store address value => exact regs_keeps hR (kept_storeWith hm store address value)
  | command hcommand =>
      exact regs_port hR hm (copCommand.eq_def m _ _)
        (fun hcop => regs_cop0Command hR hcop hcommand htrans) fun _ => kept_setFpu _
  | copRead32 idx hidx =>
      exact regs_port hR hm (copRead32.eq_def m _ _)
        (fun _ => .bind htrans (regs_cop0Read64 hR hidx htrans) fun _ =>
          regs_keeps hR (kept_pure _)) fun _ => kept_read _
  | copRead64 idx hidx _ =>
      exact regs_port hR hm (copRead64.eq_def m _ _)
        (fun _ => regs_cop0Read64 hR hidx htrans) fun _ => kept_read _
  | copWrite32 idx value hidx hcommand =>
      exact regs_port hR hm (copWrite32.eq_def m _ _ _)
        (fun hcop s _ s' h => hR s s' (.writes hcop hcommand hidx h)) fun _ => kept_setFpu _
  | copWrite64 idx value hidx hcommand =>
      exact regs_port hR hm (copWrite64.eq_def m _ _ _)
        (fun hcop s _ s' h => hR s s' (.writes hcop hcommand hidx h)) fun _ => kept_setFpu _
  | getFlag =>
      refine regs_keeps hR ?_
      rw [copGetFlag]
      split
      · exact kept_read _
      · exact kept_read _
      · exact kept_pure _
  | jumpRel _ offset => exact regs_keeps hR (hjump _)
  | jump64 _ dst => exact regs_keeps hR (hjump _)
  | link _ dstReg => exact regs_keeps hR (hlink dstReg)
  | nullify _ => exact regs_keeps hR (kept_modify fun _ => ⟨rfl, rfl, rfl⟩)
  | j hfunc =>
      refine regs_keeps hR (.bind (fun _ _ _ => .trans) (kept_read _) fun pc =>
        .bind (fun _ _ _ => .trans) (hjump _) fun _ => ?_)
      split
      · exact kept_detectIdleLoop hm (by rw [hfunc]; rfl)
      · exact kept_pure ()
  | jal _ =>
      exact regs_keeps hR (.bind (fun _ _ _ => .trans) (kept_read _) fun pc =>
        .bind (fun _ _ _ => .trans) (hlink _) fun _ => hjump _)
  | idle hfunc => exact regs_keeps hR (kept_detectIdleLoop hm (by rw [hfunc]; rfl))
  | cache _ =>
      refine regs_keeps hR (.bind (fun _ _ _ => .trans) (kept_read _) fun base => ?_)
      split
      · exact kept_pure ()
      · split
        · exact kept_modify fun _ => ⟨rfl, rfl, rfl⟩
        · exact kept_pure ()
  | panic reason => exact .of_throw _

/-- A relation that each of these steps respects is respected by every handler that acts. -/
theorem act_regs (hm : m.IsN64) (hrefl : ∀ s, R s s) (htrans : ∀ s t u, R s t → R t u → R s u)
    {x : CpuM T δ Unit} (hx : Acts m opcode func x) {s s' : MipsBase T δ}
    (h : x s = .ok ((), s')) : R s s' :=
  hx.moves hrefl htrans (regs_actOp hR hm htrans) s () s' h

end Operations

end MipsBase

end NgMips
