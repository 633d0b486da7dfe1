import NgMips.Proofs.Coprocessors
import NgMips.Proofs.Kept
import NgMips.Source.Machine

/-!
# Destination registers of the floating-point unit

A command of the floating-point unit writes the register in its `fd` field, a comparison writes the
flag, and the moves and loads write the register they name.  Without `FR` an odd number names the
upper half of the even register before it; with `FR` it names a register of its own.  So a register
keeps its value through every run that executes no instruction naming it under the `FR` in force, and
the control register one that executes no `CTC1`, but for the flag (`run_keeps_fpr`).
-/

namespace NgMips

/-! ## Commands -/

namespace MipsFpu

variable {host : HostFloat} {fr : Bool} {opcode : BitVec 32} {fpu fpu' : MipsFpu}

/-- A write to register `idx` changes register `reg`: with `FR` it is the register itself, and
without it the even one of its pair. -/
def Names (fr : Bool) (idx reg : BitVec 5) : Prop := (if fr then idx else phys idx) = reg

instance (fr : Bool) (idx reg : BitVec 5) : Decidable (Names fr idx reg) :=
  inferInstanceAs (Decidable (_ = _))

/-- The command compares. -/
def isCompare (opcode : BitVec 32) : Bool := decide (0x30#6 ≤ functField opcode)

/-- Only the registers a number names are written. -/
structure Writes (fr : Bool) (idx : BitVec 5) (fpu fpu' : MipsFpu) : Prop where
  fpr : ∀ reg, ¬ Names fr idx reg → fpu'.fpr reg = fpu.fpr reg
  control : fpu'.fcr31 = fpu.fcr31

lemma Writes.refl (idx : BitVec 5) (fpu : MipsFpu) : Writes fr idx fpu fpu :=
  ⟨fun _ _ => rfl, rfl⟩

lemma writes_setFpr {idx reg : BitVec 5} (h : Names fr idx reg) (value : BitVec 64) :
    Writes fr idx fpu (fpu.setFpr reg value) where
  fpr reg' hno := Function.update_of_ne (fun heq => hno (by rw [heq]; exact h)) _ _
  control := rfl

lemma writes_writeI32 (fr : Bool) (fpu : MipsFpu) (idx : BitVec 5) (value : BitVec 32) :
    Writes fr idx fpu (fpu.writeI32 fr idx value) := by
  rw [writeI32]
  split
  · next hfr => exact writes_setFpr (if_pos hfr) _
  · next hfr => split <;> exact writes_setFpr (if_neg hfr) _

lemma writes_writeI64 (fr : Bool) (fpu : MipsFpu) (idx : BitVec 5) (value : BitVec 64) :
    Writes fr idx fpu (fpu.writeI64 fr idx value) := by
  rw [writeI64]
  exact writes_setFpr rfl _

lemma writes_binary (single : BitVec 32 → BitVec 32 → BitVec 32)
    (double : BitVec 64 → BitVec 64 → BitVec 64) :
    Writes fr (fdField opcode) fpu (fpu.binary fr opcode single double) := by
  rw [binary.eq_def]
  split
  · exact writes_writeI32 _ _ _ _
  · exact writes_writeI64 _ _ _ _
  · exact .refl _ _

lemma writes_unary (single : BitVec 32 → BitVec 32) (double : BitVec 64 → BitVec 64) :
    Writes fr (fdField opcode) fpu (fpu.unary fr opcode single double) := by
  rw [unary.eq_def]
  split
  · exact writes_writeI32 _ _ _ _
  · exact writes_writeI64 _ _ _ _
  · exact .refl _ _

lemma writes_toLong (single : BitVec 32 → BitVec 32) (double : BitVec 64 → BitVec 64) :
    Writes fr (fdField opcode) fpu (fpu.toLong host fr opcode single double) := by
  rw [toLong.eq_def]
  split
  · exact writes_writeI64 _ _ _ _
  · exact writes_writeI64 _ _ _ _
  · exact .refl _ _

lemma writes_toWord (single : BitVec 32 → BitVec 32) (double : BitVec 64 → BitVec 64) :
    Writes fr (fdField opcode) fpu (fpu.toWord host fr opcode single double) := by
  rw [toWord.eq_def]
  split
  · exact writes_writeI32 _ _ _ _
  · exact writes_writeI32 _ _ _ _
  · exact .refl _ _

lemma writes_cvtS : Writes fr (fdField opcode) fpu (fpu.instCvtS host fr opcode) := by
  rw [instCvtS.eq_def]
  split
  case h_4 => exact .refl _ _
  all_goals exact writes_writeI32 _ _ _ _

lemma writes_cvtD : Writes fr (fdField opcode) fpu (fpu.instCvtD host fr opcode) := by
  rw [instCvtD.eq_def]
  split
  case h_4 => exact .refl _ _
  all_goals exact writes_writeI64 _ _ _ _

/-- A comparison writes the flag. -/
lemma compare_writes (h : fpu.instC host fr opcode = .ok fpu') :
    fpu'.fpr = fpu.fpr ∧ fpu'.fcr31 &&& ~~~flagBit = fpu.fcr31 &&& ~~~flagBit := by
  rw [instC] at h
  cases hflag : fpu.compareFormats host fr opcode with
  | error e =>
      rw [hflag] at h
      exact absurd h (by simp [bind, Except.bind])
  | ok flag =>
      rw [hflag] at h
      obtain rfl := Except.ok.inj h
      refine ⟨rfl, ?_⟩
      have hset : (if flag then flagBit else 0) &&& ~~~flagBit = 0#32 := by
        cases flag <;> decide
      dsimp only
      rw [BitVec.and_or_distrib_right, hset, BitVec.or_zero, BitVec.and_assoc, BitVec.and_self]

/-- Every other command writes the register in its `fd` field. -/
lemma command_writes (hno : isCompare opcode = false) (h : fpu.command host fr opcode = .ok fpu') :
    Writes fr (fdField opcode) fpu fpu' := by
  have hdone : ∀ {next : MipsFpu}, Except.ok next = (.ok fpu' : Except Stop MipsFpu) →
      Writes fr (fdField opcode) fpu next → Writes fr (fdField opcode) fpu fpu' :=
    fun hnext hwrites => Except.ok.inj hnext ▸ hwrites
  rw [command.eq_def] at h
  split at h
  case h_1 | h_2 | h_3 | h_4 => exact hdone h (writes_binary _ _)
  case h_5 | h_6 | h_7 | h_8 => exact hdone h (writes_unary _ _)
  case h_9 | h_10 | h_11 | h_12 | h_20 => exact hdone h (writes_toLong _ _)
  case h_13 | h_14 | h_15 | h_16 | h_19 => exact hdone h (writes_toWord _ _)
  case h_17 => exact hdone h writes_cvtS
  case h_18 => exact hdone h writes_cvtD
  case h_21 =>
    have hless : ¬ 0x30#6 ≤ functField opcode := of_decide_eq_false hno
    rw [if_neg (show ¬ 0x30#6 ≤ opcode.extractLsb' 0 6 from hless)] at h
    exact hdone h (.refl _ _)

lemma command_compares (hcompare : isCompare opcode = true)
    (h : fpu.command host fr opcode = .ok fpu') :
    fpu'.fpr = fpu.fpr ∧ fpu'.fcr31 &&& ~~~flagBit = fpu.fcr31 &&& ~~~flagBit := by
  have hle : 0x30#6 ≤ opcode.extractLsb' 0 6 := of_decide_eq_true hcompare
  rw [command.eq_def] at h
  split at h
  case h_21 =>
    rw [if_pos hle] at h
    exact compare_writes h
  all_goals
    rename_i hfunct
    rw [hfunct] at hle
    exact absurd hle (by decide)

/-! ## Writes through the ports -/

/-- A write through a port: register numbers from 32 on are those of control registers. -/
structure PortWrites (fr : Bool) (idx : ℕ) (fpu fpu' : MipsFpu) : Prop where
  fpr : ∀ reg, (idx < 32 → ¬ Names fr (BitVec.ofNat 5 idx) reg) → fpu'.fpr reg = fpu.fpr reg
  control : idx < 32 → fpu'.fcr31 = fpu.fcr31

lemma Writes.port {idx : ℕ} (hlt : idx < 32) (h : Writes fr (BitVec.ofNat 5 idx) fpu fpu') :
    PortWrites fr idx fpu fpu' := ⟨fun reg hno => h.fpr reg (hno hlt), fun _ => h.control⟩

lemma PortWrites.of_fpr {idx : ℕ} (hlt : ¬ idx < 32) (h : fpu'.fpr = fpu.fpr) :
    PortWrites fr idx fpu fpu' := ⟨fun _ _ => by rw [h], fun hno => absurd hno hlt⟩

lemma write32_writes (fr : Bool) (fpu : MipsFpu) (idx : ℕ) (value : BitVec 32) :
    PortWrites fr idx fpu (fpu.write32 fr idx value) := by
  rw [write32]
  split
  · next hlt =>
      dsimp only
      split
      · next hfr => exact (writes_setFpr (if_pos hfr) _).port hlt
      · next hfr => split <;> exact (writes_setFpr (if_neg hfr) _).port hlt
  · next hlt => split <;> exact .of_fpr hlt rfl

lemma write64_writes (fr : Bool) (fpu : MipsFpu) (idx : ℕ) (value : BitVec 64) :
    PortWrites fr idx fpu (fpu.write64 fr idx value) := by
  rw [write64]
  split
  · next hlt => exact (writes_setFpr rfl _).port hlt
  · exact write32_writes fr fpu idx _

end MipsFpu

namespace MipsBase

variable {T δ : Type} [MipsTlbBase T] {m : MipsSetup δ} {opcode : BitVec 32}

/-! ## Instructions -/

section Instructions

variable (m opcode)

/-- The instruction is a command to the floating-point unit. -/
def isFpuCommand : Bool :=
  copId opcode == 1 && isCopCommand m opcode (getInstFuncPtr m.kIs64Bit opcode)

/-- The register of the unit an instruction writes; from 32 on they are control registers. -/
def fpuDestination : Option ℕ :=
  if copId opcode = 1 then
    if isCopCommand m opcode (getInstFuncPtr m.kIs64Bit opcode) then
      if MipsFpu.isCompare opcode then none else some (MipsFpu.fdField opcode).toNat
    else (getInstFuncPtr m.kIs64Bit opcode).copWriteIdx opcode
  else none

/-- The instruction does not name the register as its destination, with this `FR`. -/
def SparesFpr (fr : Bool) (reg : BitVec 5) : Prop :=
  ∀ idx ∈ fpuDestination m opcode, idx < 32 → ¬ MipsFpu.Names fr (BitVec.ofNat 5 idx) reg

/-- The instruction is no move to a control register. -/
def SparesControl : Prop := ∀ idx ∈ fpuDestination m opcode, idx < 32

/-- The instruction is no comparison either. -/
def SparesFlag : Prop :=
  SparesControl m opcode ∧ (isFpuCommand m opcode && MipsFpu.isCompare opcode) = false

end Instructions

/-- `FR`, the bit of `SR` that makes 32 registers of the unit. -/
def frFlag (s : MipsBase T δ) : Bool := s.cop0.sr.getLsbD 26

variable (m opcode) in
/-- What an instruction does not name is kept. -/
structure FpuKept (s t : MipsBase T δ) : Prop where
  fpr : ∀ reg, SparesFpr m opcode (frFlag s) reg → t.fpu.fpr reg = s.fpu.fpr reg
  control : SparesControl m opcode →
    t.fpu.fcr31 &&& ~~~MipsFpu.flagBit = s.fpu.fcr31 &&& ~~~MipsFpu.flagBit
  flag : SparesFlag m opcode → t.fpu.fcr31 = s.fpu.fcr31

variable (m opcode) in
/-- So it is by an operation of an instruction, which does not change `FR` behind the unit. -/
structure FpuActs (s t : MipsBase T δ) : Prop extends FpuKept m opcode s t where
  status : copId opcode = 1 → frFlag t = frFlag s

section Kept

omit [MipsTlbBase T]

variable {s t u : MipsBase T δ}

lemma FpuKept.of_same (h : t.fpu = s.fpu) : FpuKept m opcode s t :=
  ⟨fun _ _ => by rw [h], fun _ => by rw [h], fun _ => by rw [h]⟩

/-- A write to the register an instruction names. -/
lemma FpuKept.of_port {idx : ℕ} (hidx : fpuDestination m opcode = some idx)
    (h : MipsFpu.PortWrites (frFlag s) idx s.fpu t.fpu) : FpuKept m opcode s t where
  fpr reg hreg := h.fpr reg (hreg idx hidx)
  control hcontrol := by rw [h.control (hcontrol idx hidx)]
  flag hflag := h.control (hflag.1 idx hidx)

lemma FpuActs.trans (h : FpuActs m opcode s t) (h' : FpuActs m opcode t u) :
    FpuActs m opcode s u where
  fpr reg hreg := by
    refine (h'.fpr reg fun idx hidx => ?_).trans (h.fpr reg hreg)
    -- An instruction that names a register is one of the unit.
    have hcop : copId opcode = 1 := by
      by_contra hno
      rw [fpuDestination, if_neg hno] at hidx
      exact absurd hidx (by simp)
    rw [h.status hcop]
    exact hreg idx hidx
  control hcontrol := (h'.control hcontrol).trans (h.control hcontrol)
  flag hflag := (h'.flag hflag).trans (h.flag hflag)
  status hcop := (h'.status hcop).trans (h.status hcop)

end Kept

/-! ### Steps -/

section Steps

/-- The ports of coprocessor 0 leave the unit alone. -/
lemma cop0Command_fpu (command : BitVec 32) :
    Prog.Moves (fun s t => t.fpu = s.fpu) (cop0Command command : CpuM T δ Unit) := by
  rw [cop0Command]
  split
  case h_3 =>
    intro s a t h
    obtain ⟨rn, u, hrandom, hwrite⟩ := Prog.bind_ok.mp h
    obtain ⟨state, rfl⟩ := readRandom_ok hrandom
    rw [← Prog.state_eq hwrite]
  case h_6 =>
    intro s a t h
    rw [eret_run] at h
    rw [← Prog.state_eq h]
  case h_7 => exact .of_pure (R := fun s t : MipsBase T δ => t.fpu = s.fpu) (fun _ => rfl) ()
  all_goals exact .of_modify fun _ => rfl

lemma cop0Read64_fpu (idx : ℕ) :
    Prog.Moves (fun s t => t.fpu = s.fpu) (cop0Read64 idx : CpuM T δ (BitVec 64)) := by
  intro s a t h
  rw [cop0Read64.eq_def] at h
  split at h
  case h_2 =>
    obtain ⟨rn, u, hrandom, hrest⟩ := Prog.bind_ok.mp h
    obtain ⟨state, rfl⟩ := readRandom_ok hrandom
    rw [← Prog.state_eq hrest]
  all_goals rw [← Prog.state_eq h]

lemma cop0Write_fpu (context : BitVec 64) (idx : ℕ) (value : BitVec 64) :
    Prog.Moves (fun s t => t.fpu = s.fpu) (cop0Write context idx value : CpuM T δ Unit) := by
  intro s a t h
  rw [cop0Write.eq_def] at h
  split at h <;> rw [← Prog.state_eq h]

lemma cop0Read64_sr (idx : ℕ) :
    Prog.Moves (fun s t => t.cop0.sr = s.cop0.sr) (cop0Read64 idx : CpuM T δ (BitVec 64)) := by
  intro s a t h
  rw [cop0Read64.eq_def] at h
  split at h
  case h_2 =>
    obtain ⟨rn, u, hrandom, hrest⟩ := Prog.bind_ok.mp h
    obtain ⟨state, rfl⟩ := readRandom_ok hrandom
    rw [← Prog.state_eq hrest]
  case h_9 =>
    rw [← Prog.state_eq h]
    change (s.cop0.getCount s.timestamp).2.sr = _
    rw [MipsCop0.getCount]
    split <;> rfl
  all_goals rw [← Prog.state_eq h]

lemma fpuActs_step (s t : MipsBase T δ)
    (h : CopStep m opcode (getInstFuncPtr m.kIs64Bit opcode) s t) : FpuActs m opcode s t := by
  have hone : copId opcode = 1#2 → copId opcode = 1 := id
  have hother : copId opcode = 0#2 → copId opcode = 1 → frFlag t = frFlag s :=
    fun hzero hfpu => absurd (hzero.symm.trans hfpu) (by decide)
  cases h with
  | quiet h => exact ⟨.of_same h.fpu, fun _ => by rw [frFlag, h.cop0, frFlag]⟩
  | command hcop _ hrun => exact ⟨.of_same (cop0Command_fpu _ s () t hrun), hother hcop⟩
  | read hrun =>
      refine ⟨.of_same (cop0Read64_fpu _ s _ t hrun), fun _ => ?_⟩
      rw [frFlag, cop0Read64_sr _ s _ t hrun, frFlag]
  | write hcop _ _ hrun => exact ⟨.of_same (cop0Write_fpu _ _ _ s () t hrun), hother hcop⟩
  | @fpuCommand hcop hcommand fpu hrun hstate =>
      have hfpu : t.fpu = fpu := by rw [hstate]
      refine ⟨?_, fun _ => by rw [hstate, frFlag, frFlag]⟩
      cases hcompare : MipsFpu.isCompare opcode with
      | true =>
          obtain ⟨hfpr, hcontrol⟩ := MipsFpu.command_compares hcompare hrun
          refine ⟨fun reg _ => by rw [hfpu, hfpr], fun _ => by rw [hfpu, hcontrol], fun hflag => ?_⟩
          refine absurd hflag.2 ?_
          simp [isFpuCommand, hcop, hcommand, hcompare]
      | false =>
          have hwrites := MipsFpu.command_writes hcompare hrun
          have hdst : fpuDestination m opcode = some (MipsFpu.fdField opcode).toNat := by
            rw [fpuDestination, if_pos (hone hcop), if_pos hcommand, hcompare, if_neg (by simp)]
          refine .of_port hdst (MipsFpu.Writes.port (MipsFpu.fdField opcode).isLt ?_)
          rw [BitVec.ofNat_toNat, BitVec.setWidth_eq, hfpu]
          exact hwrites
  | @fpuWrite32 hcop hcommand idx hidx value hstate =>
      have hdst : fpuDestination m opcode = some idx := by
        rw [fpuDestination, if_pos (hone hcop), if_neg (by simp [hcommand]), hidx]
      rw [hstate]
      exact ⟨.of_port hdst (MipsFpu.write32_writes _ _ _ _), fun _ => rfl⟩
  | @fpuWrite64 hcop hcommand idx hidx value hstate =>
      have hdst : fpuDestination m opcode = some idx := by
        rw [fpuDestination, if_pos (hone hcop), if_neg (by simp [hcommand]), hidx]
      rw [hstate]
      exact ⟨.of_port hdst (MipsFpu.write64_writes _ _ _ _), fun _ => rfl⟩

lemma exception_fpu (hm : m.IsN64) {cause : ExceptionCause} {s t : MipsBase T δ}
    (h : triggerException m cause s = .ok ((), t)) : t.fpu = s.fpu := by
  cases triggerException_outcome hm h <;> rfl

lemma fpuKept_callInst (hm : m.IsN64) {s t : MipsBase T δ}
    (h : callInst m opcode (getInstFuncPtr m.kIs64Bit opcode) s = .ok ((), t)) :
    FpuKept m opcode s t := by
  rcases callInst_cases hm h with ⟨cause, t₀, -, hreport, htrigger⟩ | ⟨x, hx, hact⟩
  · have hstart : t₀.fpu = s.fpu := by cases hreport <;> rfl
    exact .of_same ((exception_fpu hm htrigger).trans hstart)
  · exact (act_cops fpuActs_step (fun _ _ _ => .trans) hm hx hact).toFpuKept

/-- A part of the unit that calls satisfying `Q` keep. -/
lemma keptBy_fpu (hm : m.IsN64) {α : Type} {Q : BitVec 32 → MipsBase T δ → Prop} {f : MipsFpu → α}
    (hQ : ∀ {opcode} {s t : MipsBase T δ}, Q opcode s → FpuKept m opcode s t → f t.fpu = f s.fpu)
    (value : α) : KeptBy (T := T) m Q fun s => f s.fpu = value :=
  .of_registers hm (fun h _ _ hfpu => by rw [hfpu, h]) (fun h => h) (fun _ _ h => h)
    (fun htrigger h => by rw [exception_fpu hm htrigger, h])
    fun {_ s _} hkept hcall h => (hQ hkept (fpuKept_callInst hm hcall)).trans
      (show f (started _ s).fpu = value from h)

end Steps

/-- **What a run leaves alone in the floating-point unit.**  A register keeps its value as long as no
executed instruction names it, with the `FR` its handler finds; so does the control register as long
as no move to it is executed, the flag only as long as nothing is compared. -/
theorem run_keeps_fpr (hm : m.IsN64) {fuel : ℕ} {cycle : ℤ} {s : MipsBase T δ}
    (hd : DecodedBlocks m s.cache) :
    (∀ reg, (∀ d ∈ runCalls m fuel cycle s, SparesFpr m d.opcode (frFlag d.state) reg) →
        Throughout m fuel cycle s fun t => t.fpu.fpr reg = s.fpu.fpr reg) ∧
      ((∀ d ∈ runCalls m fuel cycle s, SparesControl m d.opcode) →
        Throughout m fuel cycle s fun t =>
          t.fpu.fcr31 &&& ~~~MipsFpu.flagBit = s.fpu.fcr31 &&& ~~~MipsFpu.flagBit) ∧
      ((∀ d ∈ runCalls m fuel cycle s, SparesFlag m d.opcode) →
        Throughout m fuel cycle s fun t => t.fpu.fcr31 = s.fpu.fcr31) := by
  refine ⟨fun reg hspares => ?_, fun hspares => ?_, fun hspares => ?_⟩
  · exact (keptBy_fpu (Q := fun opcode t => SparesFpr m opcode (frFlag t) reg)
      (f := fun fpu => fpu.fpr reg) hm (fun hkept h => h.fpr reg hkept) _).throughout
      (fun h => h) hd rfl hspares
  · exact (keptBy_fpu (Q := fun opcode _ => SparesControl m opcode)
      (f := fun fpu => fpu.fcr31 &&& ~~~MipsFpu.flagBit) hm
      (fun hkept h => h.control hkept) _).throughout (fun h => h) hd rfl hspares
  · exact (keptBy_fpu (Q := fun opcode _ => SparesFlag m opcode) (f := fun fpu => fpu.fcr31) hm
      (fun hkept h => h.flag hkept) _).throughout (fun h => h) hd rfl hspares

/-! ## A register that is spared -/

/-- The main processor with a floating-point unit. -/
def floatSetup : MipsSetup WordMemory := n64Setup { hasFpu := true }

/-- `ADD.S $f4, $f2, $f0`, `C.EQ.S $f0, $f2` and `MTC1 $1, $f5`, without `FR`: the move writes the
upper half of register 4. -/
def adding : MipsBase MipsTlbNormal WordMemory :=
  { programState 0x80001000 0x1000 [0x46001100, 0x46020032, 0x44812800] with
    gpr := Function.update (fun _ => 0) 1 5
    cop0 := { sr := 0x30000000 }
    fpu := { fpr := fun idx => if idx = 6 then 7 else 0x100000001, fcr31 := 1 } }

/-- `run_keeps_fpr` on it: only register 4 is new, and the comparison only changes the flag. -/
theorem adding_keeps :
    returnedValue (run floatSetup 10 4) adding = some 4 ∧
      (∀ reg, reg ≠ 4 → (lastState (run floatSetup 10 4) adding).fpu.fpr reg = adding.fpu.fpr reg) ∧
      (lastState (run floatSetup 10 4) adding).fpu.fcr31 &&& ~~~MipsFpu.flagBit =
        adding.fpu.fcr31 &&& ~~~MipsFpu.flagBit ∧
      (lastState (run floatSetup 10 4) adding).fpu.fpr 4 ≠ adding.fpu.fpr 4 ∧
      (lastState (run floatSetup 10 4) adding).fpu.fcr31 ≠ adding.fpu.fcr31 := by
  have hd : DecodedBlocks floatSetup adding.cache := by
    intro e he
    exact absurd he (by simp [adding, programState])
  have hreturned : returnedValue (run floatSetup 10 4) adding = some 4 := by decide +kernel
  have hcalls : (runCalls floatSetup 10 4 adding).map HandlerCall.opcode =
      [0x46001100, 0x46020032, 0x44812800] := by decide +kernel
  have hadd : fpuDestination floatSetup 0x46001100 = some 4 := by decide +kernel
  have hcompare : fpuDestination floatSetup 0x46020032 = none := by decide +kernel
  have hmove : fpuDestination floatSetup 0x44812800 = some 5 := by decide +kernel
  have hdestination : ∀ d ∈ runCalls floatSetup 10 4 adding,
      ∀ idx ∈ fpuDestination floatSetup d.opcode, idx = 4 ∨ idx = 5 := by
    intro d hmem idx hidx
    have hopcode := List.mem_map_of_mem (f := HandlerCall.opcode) hmem
    rw [hcalls] at hopcode
    simp only [List.mem_cons, List.not_mem_nil, or_false] at hopcode
    rcases hopcode with h | h | h <;> rw [h] at hidx
    · exact .inl (Option.some.inj (hidx.symm.trans hadd))
    · exact absurd (hidx.symm.trans hcompare) (by simp)
    · exact .inr (Option.some.inj (hidx.symm.trans hmove))
  have hrun := run_of_returned hreturned
  have hflags : (runCalls floatSetup 10 4 adding).map (fun d => frFlag d.state) =
      [false, false, false] := by decide +kernel
  refine ⟨hreturned, fun reg h4 => ?_, ?_, by decide +kernel, by decide +kernel⟩
  · have hspares : ∀ d ∈ runCalls floatSetup 10 4 adding,
        SparesFpr floatSetup d.opcode (frFlag d.state) reg := by
      intro d hmem idx hidx _ hnames
      have hfr := List.mem_map_of_mem (f := fun d => frFlag d.state) hmem
      rw [hflags] at hfr
      have hclear : frFlag d.state = false := by simpa using hfr
      have hpair : MipsFpu.Names false 4 4 ∧ MipsFpu.Names false 5 4 := by decide
      rw [hclear] at hnames
      rcases hdestination d hmem idx hidx with rfl | rfl
      · exact h4 (hnames.symm.trans hpair.1)
      · exact h4 (hnames.symm.trans hpair.2)
    exact ((run_keeps_fpr (n64Setup_isN64 _) hd).1 reg hspares).2 _ _ hrun
  · have hspares : ∀ d ∈ runCalls floatSetup 10 4 adding, SparesControl floatSetup d.opcode := by
      intro d hmem idx hidx
      rcases hdestination d hmem idx hidx with rfl | rfl <;> decide
    exact ((run_keeps_fpr (n64Setup_isN64 _) hd).2.1 hspares).2 _ _ hrun

end MipsBase

end NgMips
