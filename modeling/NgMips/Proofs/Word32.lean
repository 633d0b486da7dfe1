import NgMips.Lib.Bits
import NgMips.Proofs.Elementary
import NgMips.Proofs.Poll

/-!
# 32-bit code on the 64-bit processor

A register is in 32-bit form when it is the sign extension of its low word.  Every handler
outside the doubleword group keeps all registers in this form (`Form32`), and from registers in
this form it writes the same values as on the processor with 32-bit registers, `narrow`.  Both
follow from one case analysis over the handlers (`callInst_alike`): on such registers the two
processors run alike, up to the status registers of an exception.
-/

namespace NgMips

/-- The doubleword group: 64-bit arithmetic and shifts, loads that fill a register with
something other than a sign-extended word, and the 64-bit move from a coprocessor. -/
def MipsInstId.isDoubleword : MipsInstId → Bool
  | .kDadd | .kDaddu | .kDaddi | .kDaddiu | .kDsub | .kDsubu | .kDmult | .kDmultu | .kDdiv
  | .kDdivu | .kDsll | .kDsll32 | .kDsllv | .kDsra | .kDsra32 | .kDsrav | .kDsrl | .kDsrl32
  | .kDsrlv | .kLd | .kLdl | .kLdr | .kLwu | .kDmfc => true
  | _ => false

/-- The same processor with 32-bit registers. -/
def MipsSetup.narrow {δ : Type} (m : MipsSetup δ) : MipsSetup δ := { m with kIs64Bit := false }

namespace MipsBase

variable {T δ : Type}

/-- Every register is the sign extension of its low word, and register 0 is 0. -/
structure Form32 (s : MipsBase T δ) : Prop where
  zero : s.gpr 0 = 0
  gpr : ∀ idx, IsSext 32 (s.gpr idx)
  hi : IsSext 32 s.hi
  lo : IsSext 32 s.lo

/-- The general registers, `hi_` and `lo_`. -/
def regs (s : MipsBase T δ) : (BitVec 5 → BitVec 64) × BitVec 64 × BitVec 64 :=
  (s.gpr, s.hi, s.lo)

/-- The general registers, `hi_` and `lo_` are the same. -/
def SameRegs (s s' : MipsBase T δ) : Prop := s'.regs = s.regs

section Form32

lemma Form32.of_sameRegs (s s' : MipsBase T δ) (h : SameRegs s s') (hs : Form32 s) :
    Form32 s' := by
  obtain ⟨hgpr, hhi, hlo⟩ : s'.gpr = s.gpr ∧ s'.hi = s.hi ∧ s'.lo = s.lo := by
    simpa [SameRegs, regs] using h
  exact ⟨hgpr ▸ hs.zero, hgpr ▸ hs.gpr, hhi ▸ hs.hi, hlo ▸ hs.lo⟩

lemma Form32.setGpr {s : MipsBase T δ} (hs : Form32 s) {idx : BitVec 5} (hidx : idx ≠ 0)
    {value : BitVec 64} (h : IsSext 32 value) :
    Form32 { s with gpr := Function.update s.gpr idx value } := by
  refine ⟨?_, fun i => ?_, hs.hi, hs.lo⟩
  · exact (Function.update_of_ne hidx.symm _ _).trans hs.zero
  · show IsSext 32 (Function.update s.gpr idx value i)
    rw [Function.update_apply]
    split
    · exact h
    · exact hs.gpr i

lemma SameRegs.refl (s : MipsBase T δ) : SameRegs s s := rfl

lemma SameRegs.trans {s t u : MipsBase T δ} (h : SameRegs s t) (h' : SameRegs t u) :
    SameRegs s u := Eq.trans h' h

end Form32

variable [MipsTlbBase T] {m : MipsSetup δ} {opcode : BitVec 32} {func : MipsInstId}

/-! ## Operations that leave the registers alone -/

omit [MipsTlbBase T] in
lemma sameRegs_internals {α : Type} {x : CpuM T δ α} (hx : Internals m x) :
    Prog.Moves SameRegs x := by
  intro s a s' h
  obtain ⟨_, _, _, _, _, _, _, _, _, -, rfl⟩ := changed_internals hx s a s' h
  exact rfl

lemma sameRegs_portElem (α : Type) (x : CpuM T δ α) (hx : PortElem m opcode func α x) :
    Prog.Moves SameRegs x := by
  intro s a s' h
  obtain ⟨hgpr, hhi, hlo⟩ := (portElem_ok hx h).1
  simp only [SameRegs, regs, hgpr, hhi, hlo]

lemma sameRegs_ports {α : Type} {x : CpuM T δ α} (hx : Ports m opcode func x) :
    Prog.Moves SameRegs x :=
  hx.moves .refl (fun _ _ _ => .trans) sameRegs_portElem

/-- The program runs like itself on registers in 32-bit form. -/
lemma eqOn_ports (opcode : BitVec 32) (func : MipsInstId) {α : Type}
    {x : CpuM T δ α} (hx : Ports m opcode func x) :
    Prog.EqOn Form32 (fun _ => True) x x :=
  .of_moves Form32.of_sameRegs (sameRegs_ports hx)

/-! ## Translation faults

They end in the same way on both processors: in the same `PANIC`, or in nothing. -/

section Faults

omit [MipsTlbBase T] in
/-- An exception on the processor with 32-bit registers leaves them alone. -/
lemma takeException_narrow (hm : m.IsN64) (cause : ExceptionCause) (epc : BitVec 64) (bd : Bool)
    (s : MipsBase T δ) :
    ∃ cop0, takeException m.narrow cause epc bd s =
      if cause.isTlb then .error (.panic .tlbException)
      else .ok ((),
        { s with cop0 := cop0, pc := vecAddressGeneral, nextPc := vecAddressGeneral }) := by
  refine ⟨{ s.cop0 with
    cause := causeReg cause s.cop0.cause s.copCause (m.bus.getInterrupt s.device)
      s.compareInterrupt bd
    sr := pushMode s.cop0.sr }, ?_⟩
  have hread : ∀ (idx : ℕ) (t : MipsBase T δ), copRead32Internal m.narrow idx t =
      copRead32Internal m idx t := fun _ _ => rfl
  have hwrite : ∀ (idx : ℕ) (value : BitVec 32) (t : MipsBase T δ),
      copWrite32Internal m.narrow idx value t = copWrite32Internal m idx value t :=
    fun _ _ _ => rfl
  rw [takeException, Prog.bind_of_ok ((hread _ _).trans (copRead32Internal_cause hm s)),
    Prog.bind_of_ok (read_run _ _),
    Prog.bind_of_ok ((hwrite _ _ _).trans (copWrite32Internal_cause hm _ _)),
    Prog.bind_of_ok ((hread _ _).trans (copRead32Internal_status hm _)),
    if_neg (by simp [MipsSetup.narrow]),
    Prog.bind_of_ok ((hwrite _ _ _).trans (copWrite32Internal_status hm _ _))]
  cases cause.isTlb <;> rfl

omit [MipsTlbBase T] in
lemma takeException_tlb (hm : m.IsN64) {cause : ExceptionCause} (h : cause.isTlb = true)
    (epc : BitVec 64) (bd : Bool) :
    takeException (T := T) m.narrow cause epc bd = takeException m cause epc bd := by
  funext s
  obtain ⟨cop0, hrun⟩ := takeException_narrow hm cause epc bd s
  rw [hrun, takeException_run hm, if_pos h, if_pos h]

omit [MipsTlbBase T] in
lemma triggerNoDelay_tlb (hm : m.IsN64) {cause : ExceptionCause} (h : cause.isTlb = true) :
    triggerNoDelay (T := T) m.narrow cause = triggerNoDelay m cause := by
  simp only [triggerNoDelay, takeException_tlb hm h]
  rfl

lemma fetchWith_narrow (hm : m.IsN64) (address : BitVec 64) :
    fetchWith (T := T) m.narrow (triggerNoDelay m.narrow) address =
      fetchWith m (triggerNoDelay m) address := by
  simp only [fetchWith, translationFault,
    triggerNoDelay_tlb hm (rfl : ExceptionCause.kTlbMissLoad.isTlb = true)]
  rfl

lemma triggerException_narrow (hm : m.IsN64) {cause : ExceptionCause} (h : cause.isTlb = true) :
    triggerException (T := T) m.narrow cause = triggerException m cause := by
  simp only [triggerException, takeException_tlb hm h, fetchWith_narrow hm]
  rfl

lemma fetch_narrow (hm : m.IsN64) (address : BitVec 64) :
    fetch (T := T) m.narrow address = fetch m address := by
  simp only [fetch, fetchWith, translationFault,
    triggerException_narrow hm (rfl : ExceptionCause.kTlbMissLoad.isTlb = true)]
  rfl

lemma loadWith_narrow (hm : m.IsN64) {w : ℕ}
    (load : δ → BitVec 64 → Served δ (Option (BitVec w))) (address : BitVec 64) :
    loadWith (T := T) m.narrow load address = loadWith m load address := by
  simp only [loadWith, translationFault,
    triggerException_narrow hm (rfl : ExceptionCause.kTlbMissLoad.isTlb = true)]
  rfl

lemma storeWith_narrow (hm : m.IsN64) {w : ℕ} (store : δ → BitVec 64 → BitVec w → Served δ Unit)
    (address : BitVec 64) (value : BitVec w) :
    storeWith (T := T) m.narrow store address value = storeWith m store address value := by
  simp only [storeWith, translationFault,
    triggerException_narrow hm (rfl : ExceptionCause.kTlbMod.isTlb = true),
    triggerException_narrow hm (rfl : ExceptionCause.kTlbMissStore.isTlb = true)]
  rfl

end Faults

/-! ## Registers -/

section Registers

omit [MipsTlbBase T]

lemma eqOn_read {α : Type} {Q : α → Prop} {f : MipsBase T δ → α} (h : ∀ s, Form32 s → Q (f s)) :
    Prog.EqOn Form32 Q (read f) (read f) := by
  intro s hs
  refine ⟨rfl, fun a s' hrun => ?_⟩
  obtain ⟨rfl, rfl⟩ := Prog.ok_inj hrun
  exact ⟨hs, h s hs⟩

/-- A low word carries no information about the rest. -/
lemma eqOn_readGpr32 (idx : BitVec 5) :
    Prog.EqOn Form32 (fun _ => True) (readGpr32 idx : CpuM T δ _) (readGpr32 idx) :=
  eqOn_read fun _ _ => trivial

/-- Both processors read the whole register. -/
lemma eqOn_readGpr64 (hm : m.IsN64) (idx : BitVec 5) :
    Prog.EqOn Form32 (IsSext 32) (readGpr64 m idx : CpuM T δ _) (readGpr64 m.narrow idx) := by
  intro s hs
  have hwide : readGpr64 m idx s = .ok (s.gpr idx, s) := by
    rw [readGpr64, read_run, if_pos hm.is64Bit]
  have hnarrow : readGpr64 m.narrow idx s = .ok (s.gpr idx, s) := by
    rw [readGpr64, read_run, if_neg (by simp [MipsSetup.narrow])]
    exact congrArg (fun v => Except.ok (v, s)) (hs.gpr idx)
  refine ⟨hnarrow.trans hwide.symm, fun a s' hrun => ?_⟩
  obtain ⟨rfl, rfl⟩ := Prog.ok_inj (hwide.symm.trans hrun)
  exact ⟨hs, hs.gpr idx⟩

lemma eqOn_writeGpr64 (idx : BitVec 5) {value : BitVec 64} (h : IsSext 32 value) :
    Prog.EqOn Form32 (fun _ => True) (writeGpr64 idx value : CpuM T δ _)
      (writeGpr64 idx value) := by
  rw [writeGpr64]
  split
  · exact .of_pure trivial
  · next hidx => exact .of_modify fun s hs => hs.setGpr hidx h

lemma eqOn_writeGpr32Sext (idx : BitVec 5) (value : BitVec 32) :
    Prog.EqOn Form32 (fun _ => True) (writeGpr32Sext idx value : CpuM T δ _)
      (writeGpr32Sext idx value) :=
  eqOn_writeGpr64 idx (.signExtend (by omega) le_rfl value)

lemma eqOn_writeHi {value : BitVec 64} (h : IsSext 32 value) :
    Prog.EqOn Form32 (fun _ => True) (writeHi value : CpuM T δ _) (writeHi value) :=
  .of_modify fun _ hs => ⟨hs.zero, hs.gpr, h, hs.lo⟩

lemma eqOn_writeLo {value : BitVec 64} (h : IsSext 32 value) :
    Prog.EqOn Form32 (fun _ => True) (writeLo value : CpuM T δ _) (writeLo value) :=
  .of_modify fun _ hs => ⟨hs.zero, hs.gpr, hs.hi, h⟩

end Registers

/-! ## Exceptions -/

section Raising

omit [MipsTlbBase T] in
/-- The two processors take an exception at the same place, with different status registers. -/
lemma alike_takeException (hm : m.IsN64) (cause : ExceptionCause) (epc : BitVec 64) (bd : Bool) :
    Prog.AlikeOn Form32 regs (takeException (T := T) m cause epc bd)
      (takeException m.narrow cause epc bd) := by
  intro s hs
  obtain ⟨cop0, hrun⟩ := takeException_narrow hm cause epc bd s
  rw [hrun, takeException_run hm]
  split
  · exact ⟨rfl, fun s' h => absurd h (by simp)⟩
  · refine ⟨rfl, fun s' h => ?_⟩
    obtain ⟨-, rfl⟩ := Prog.ok_inj h
    exact .of_sameRegs s _ rfl hs

lemma alike_triggerException (hm : m.IsN64) (cause : ExceptionCause) :
    Prog.AlikeOn Form32 regs (triggerException (T := T) m cause)
      (triggerException m.narrow cause) := by
  have hconfig : m.narrow.config = m.config := rfl
  rw [triggerException, triggerException, hconfig]
  by_cases hexc : m.config.hasException = true
  case neg =>
      rw [if_neg hexc, if_neg hexc]
      exact .of_eqOn (.of_pure (Q := fun _ => True) trivial)
  case pos =>
      rw [if_pos hexc, if_pos hexc]
      refine .bind (.of_modify fun s hs => .of_sameRegs s _ rfl hs) fun _ _ =>
        .bind (eqOn_read (Q := fun _ => True) fun _ _ => trivial) fun pc _ =>
        .bind (eqOn_read (Q := fun _ => True) fun _ _ => trivial) fun pending _ => ?_
      split
      · refine .bind (.of_modify fun s hs => .of_sameRegs s _ rfl hs) fun _ _ => ?_
        have hfetch : Prog.EqOn Form32 (fun _ => True)
            (fetchWith (T := T) m (triggerNoDelay m) (pc - 4))
            (fetchWith m.narrow (triggerNoDelay m.narrow) (pc - 4)) := by
          rw [fetchWith_narrow hm]
          refine .of_moves Form32.of_sameRegs fun s word s' h => ?_
          cases hfound : (translateAddress s.tlb (pc - 4)).found with
          | true =>
              rw [fetchWith_found _ hfound] at h
              rw [← Prog.state_eq h]
              exact rfl
          | false =>
              rw [fetchWith_fault hm _ hfound, triggerNoDelay_run hm hexc] at h
              exact absurd h (by simp [ExceptionCause.isTlb, Except.map])
        refine .bind hfetch fun word _ => ?_
        split
        · exact alike_takeException hm cause _ true
        · exact .of_eqOn (.of_throw (Q := fun _ => True) _)
      · exact alike_takeException hm cause _ false

lemma alike_addressError (hm : m.IsN64) (cause : ExceptionCause) (address : BitVec 64) :
    Prog.AlikeOn Form32 regs (addressError (T := T) m cause address)
      (addressError m.narrow cause address) := by
  have hwrite : Prog.EqOn Form32 (fun _ => True) (copWrite64Internal (T := T) m 8 address)
      (copWrite64Internal m.narrow 8 address) := by
    refine .of_moves Form32.of_sameRegs fun s a s' h => ?_
    rw [copWrite64Internal_badvaddr hm] at h
    rw [← Prog.state_eq h]
    exact rfl
  exact .bind hwrite fun _ _ => alike_triggerException hm cause

lemma alike_instBreak (hm : m.IsN64) :
    Prog.AlikeOn Form32 regs (instBreak (T := T) m) (instBreak m.narrow) := by
  have hcop : m.narrow.kHasCop0 = true := hm.hasCop0
  have hplain : ∀ m' : MipsSetup δ, m'.kHasCop0 = true →
      instBreak (T := T) m' = triggerException m' .kBkpt := by
    intro m' h
    simp only [instBreak, h, if_true]
    exact bind_pure (triggerException m' .kBkpt)
  rw [hplain m hm.hasCop0, hplain m.narrow hcop]
  exact alike_triggerException hm _

lemma alike_writeOrTrap (hm : m.IsN64) (overflow : Bool) (idx : BitVec 5) {value : BitVec 64}
    (h : IsSext 32 value) : Prog.AlikeOn Form32 regs (writeOrTrap (T := T) m overflow idx value)
      (writeOrTrap m.narrow overflow idx value) := by
  rw [writeOrTrap, writeOrTrap]
  split
  · exact alike_triggerException hm _
  · exact .of_eqOn (eqOn_writeGpr64 idx h)

/-- A body behind the test for a usable coprocessor. -/
lemma alike_whenCopEnabled (hm : m.IsN64) {x y : CpuM T δ Unit}
    (h : Prog.EqOn Form32 (fun _ => True) x y) :
    Prog.AlikeOn Form32 regs (whenCopEnabled m opcode x) (whenCopEnabled m.narrow opcode y) := by
  have henabled : Prog.EqOn Form32 (fun _ => True) (isCopEnabled (T := T) m (copId opcode))
      (isCopEnabled m.narrow (copId opcode)) := by
    refine .of_moves Form32.of_sameRegs fun s a s' hrun => ?_
    rw [isCopEnabled_run hm] at hrun
    rw [← Prog.state_eq hrun]
    exact .refl s
  refine .bind henabled fun enabled _ => ?_
  split
  · exact .of_eqOn h
  · exact .bind (.of_modify fun s hs => .of_sameRegs s _ rfl hs) fun _ _ =>
      alike_triggerException hm _

end Raising

/-! ## Handlers that do not raise -/

section Acting

omit [MipsTlbBase T] in
lemma eqOn_arithR32 (f : BitVec 32 → BitVec 32 → BitVec 32) :
    Prog.EqOn Form32 (fun _ => True) (arithR32 (T := T) (δ := δ) opcode f) (arithR32 opcode f) :=
  (eqOn_readGpr32 _).bind fun _ _ => (eqOn_readGpr32 _).bind fun _ _ => eqOn_writeGpr32Sext _ _

omit [MipsTlbBase T] in
/-- The operation has to keep the form. -/
lemma eqOn_arithR64 (hm : m.IsN64) {f : BitVec 64 → BitVec 64 → BitVec 64}
    (hf : ∀ rs rt, IsSext 32 rs → IsSext 32 rt → IsSext 32 (f rs rt)) :
    Prog.EqOn Form32 (fun _ => True) (arithR64 (T := T) m opcode f) (arithR64 m.narrow opcode f) :=
  (eqOn_readGpr64 hm _).bind fun rs hrs => (eqOn_readGpr64 hm _).bind fun rt hrt =>
    eqOn_writeGpr64 _ (hf rs rt hrs hrt)

omit [MipsTlbBase T] in
lemma eqOn_arithI64 (hm : m.IsN64) {f : BitVec 64 → BitVec 64}
    (hf : ∀ rs, IsSext 32 rs → IsSext 32 (f rs)) :
    Prog.EqOn Form32 (fun _ => True) (arithI64 (T := T) m opcode f) (arithI64 m.narrow opcode f) :=
  (eqOn_readGpr64 hm _).bind fun rs hrs => eqOn_writeGpr64 _ (hf rs hrs)

omit [MipsTlbBase T] in
lemma eqOn_shift32 (f : BitVec 32 → ℕ → BitVec 32) :
    Prog.EqOn Form32 (fun _ => True) (shift32 (T := T) (δ := δ) opcode f) (shift32 opcode f) :=
  (eqOn_readGpr32 _).bind fun _ _ => eqOn_writeGpr32Sext _ _

omit [MipsTlbBase T] in
lemma eqOn_mulDiv32 (f : BitVec 32 → BitVec 32 → BitVec 32 × BitVec 32) :
    Prog.EqOn Form32 (fun _ => True) (mulDiv32 (T := T) (δ := δ) opcode f) (mulDiv32 opcode f) :=
  (eqOn_readGpr32 _).bind fun _ _ => (eqOn_readGpr32 _).bind fun _ _ =>
    (eqOn_writeLo (.signExtend (by omega) le_rfl _)).bind fun _ _ =>
    eqOn_writeHi (.signExtend (by omega) le_rfl _)

/-- A truth value is in 32-bit form. -/
lemma isSext_flag (p : Prop) [Decidable p] : IsSext 32 (if p then (1 : BitVec 64) else 0) := by
  split
  · rw [IsSext]; decide
  · rw [IsSext]; decide

lemma isSext_immField : IsSext 32 ((immField opcode).setWidth 64) := .setWidth (by omega) _

lemma isSext_ones : IsSext 32 (0xFFFFFFFFFFFFFFFF : BitVec 64) := by
  rw [IsSext]
  decide

lemma eqOn_loadWith (hm : m.IsN64) {w : ℕ} (load : δ → BitVec 64 → Served δ (Option (BitVec w)))
    (address : BitVec 64) : Prog.EqOn Form32 (fun _ => True) (loadWith (T := T) m load address)
      (loadWith m.narrow load address) := by
  rw [loadWith_narrow hm]
  exact eqOn_ports 0 .kNop (ports_loadWith load address)

lemma eqOn_storeWith (hm : m.IsN64) {w : ℕ} (store : δ → BitVec 64 → BitVec w → Served δ Unit)
    (address : BitVec 64) (value : BitVec w) :
    Prog.EqOn Form32 (fun _ => True) (storeWith (T := T) m store address value)
      (storeWith m.narrow store address value) := by
  rw [storeWith_narrow hm]
  exact eqOn_ports 0 .kNop (ports_storeWith store address value)

/-- The end of a load: the value is used when there is one. -/
lemma eqOn_whenLoaded (hm : m.IsN64) {w : ℕ}
    (load : δ → BitVec 64 → Served δ (Option (BitVec w))) (address : BitVec 64)
    {f g : BitVec w → CpuM T δ Unit}
    (h : ∀ value, Prog.EqOn Form32 (fun _ => True) (f value) (g value)) :
    Prog.EqOn Form32 (fun _ => True)
      (loadWith m load address >>= fun loadResult =>
        match loadResult with
        | some value => f value
        | none => pure ())
      (loadWith m.narrow load address >>= fun loadResult =>
        match loadResult with
        | some value => g value
        | none => pure ()) := by
  refine (eqOn_loadWith hm load address).bind fun loadResult _ => ?_
  cases loadResult with
  | some value => exact h value
  | none => exact .of_pure trivial

lemma alike_instLoad (hm : m.IsN64) {w : ℕ} (mask : BitVec 64)
    (load : δ → BitVec 64 → Served δ (Option (BitVec w))) {extend : BitVec w → BitVec 64}
    (h : ∀ value, IsSext 32 (extend value)) :
    Prog.AlikeOn Form32 regs (instLoad (T := T) m opcode mask (loadWith m load) extend)
      (instLoad m.narrow opcode mask (loadWith m.narrow load) extend) := by
  have hmisaligned : isMisaligned m.narrow mask = isMisaligned m mask := rfl
  rw [instLoad, instLoad, hmisaligned]
  refine .bind (eqOn_readGpr64 hm _) fun rsValue _ => ?_
  dsimp only
  split
  · exact alike_addressError hm _ _
  · exact .of_eqOn (eqOn_whenLoaded hm load _ fun value => eqOn_writeGpr64 _ (h value))

lemma alike_instStore (hm : m.IsN64) {w : ℕ} (mask : BitVec 64)
    (store : δ → BitVec 64 → BitVec w → Served δ Unit) :
    Prog.AlikeOn Form32 regs (instStore (T := T) m opcode mask (storeWith m store))
      (instStore m.narrow opcode mask (storeWith m.narrow store)) := by
  have hmisaligned : isMisaligned m.narrow mask = isMisaligned m mask := rfl
  rw [instStore, instStore, hmisaligned]
  refine .bind (eqOn_readGpr64 hm _) fun rsValue _ => ?_
  dsimp only
  split
  · exact alike_addressError hm _ _
  · exact .of_eqOn ((eqOn_readGpr64 hm _).bind fun rtValue _ => eqOn_storeWith hm store _ _)

lemma eqOn_loadBytes (hm : m.IsN64) {w : ℕ} (address : ℕ → BitVec 64) (shamt : ℕ → ℕ)
    (count : ℕ) (value : BitVec w) :
    Prog.EqOn Form32 (fun _ => True) (loadBytes (T := T) m address shamt count value)
      (loadBytes m.narrow address shamt count value) := by
  refine .foldlM (fun value i => ?_) _ _
  refine (eqOn_loadWith hm m.bus.load8 _).bind fun loadResult _ => ?_
  cases loadResult with
  | some byte => exact .of_pure trivial
  | none => exact .of_pure trivial

lemma eqOn_storeBytes (hm : m.IsN64) {w : ℕ} (address : ℕ → BitVec 64) (shamt : ℕ → ℕ)
    (count : ℕ) (value : BitVec w) :
    Prog.EqOn Form32 (fun _ => True) (storeBytes (T := T) m address shamt count value)
      (storeBytes m.narrow address shamt count value) :=
  .forM (fun _ => eqOn_storeWith hm m.bus.store8 _ _) _

/-! ## Coprocessor instructions -/

/-- The ports are the same on both processors. -/
lemma alike_instCop (hm : m.IsN64) :
    Prog.AlikeOn Form32 regs (instCop (T := T) m opcode) (instCop m.narrow opcode) :=
  alike_whenCopEnabled hm (eqOn_ports opcode .kCop (ports_copCommand rfl))

lemma alike_unlessOverridden (hm : m.IsN64) {x y : CpuM T δ Unit}
    (h : m.config.copDecodingOverride.getLsbD (copId opcode).toNat = false →
      Prog.EqOn Form32 (fun _ => True) x y) :
    Prog.AlikeOn Form32 regs (unlessOverridden m opcode x)
      (unlessOverridden m.narrow opcode y) := by
  have hconfig : m.narrow.config = m.config := rfl
  rw [unlessOverridden, unlessOverridden, hconfig]
  split
  · exact alike_instCop hm
  · next hbit => exact alike_whenCopEnabled hm (h (by simpa using hbit))

lemma alike_moveFromCop (hm : m.IsN64) (idx : ℕ) :
    Prog.AlikeOn Form32 regs (moveFromCop (T := T) m opcode idx)
      (moveFromCop m.narrow opcode idx) :=
  alike_unlessOverridden hm fun _ =>
    (eqOn_ports 0 .kNop (ports_copRead32 (copId opcode) idx)).bind fun _ _ =>
      eqOn_writeGpr32Sext _ _

/-- A write through a port, by an instruction that writes register `idx`. -/
lemma eqOn_copWrite32 (hcommand : isCopCommand m opcode func = false) {idx : ℕ}
    (hidx : func.copWriteIdx opcode = some idx) (value : BitVec 32) :
    Prog.EqOn Form32 (fun _ => True) (copWrite32 (T := T) m (copId opcode) idx value)
      (copWrite32 m.narrow (copId opcode) idx value) :=
  eqOn_ports opcode func (ports_copWrite32 hcommand idx value hidx)

lemma eqOn_copWrite64 (hcommand : isCopCommand m opcode func = false) {idx : ℕ}
    (hidx : func.copWriteIdx opcode = some idx) (value : BitVec 64) :
    Prog.EqOn Form32 (fun _ => True) (copWrite64 (T := T) m (copId opcode) idx value)
      (copWrite64 m.narrow (copId opcode) idx value) :=
  eqOn_ports opcode func (ports_copWrite64 hcommand idx value hidx)

lemma eqOn_copRead32 (copId : BitVec 2) (idx : ℕ) :
    Prog.EqOn Form32 (fun _ => True) (copRead32 (T := T) m copId idx)
      (copRead32 m.narrow copId idx) :=
  eqOn_ports 0 .kNop (ports_copRead32 copId idx)

lemma eqOn_copRead64 (copId : BitVec 2) (idx : ℕ) :
    Prog.EqOn Form32 (fun _ => True) (copRead64 (T := T) m copId idx)
      (copRead64 m.narrow copId idx) :=
  eqOn_ports 0 .kNop (ports_copRead64 copId idx)

lemma eqOn_loadToCop (hm : m.IsN64) {w : ℕ}
    (load : δ → BitVec 64 → Served δ (Option (BitVec w))) {f g : BitVec w → CpuM T δ Unit}
    (h : ∀ value, Prog.EqOn Form32 (fun _ => True) (f value) (g value)) :
    Prog.EqOn Form32 (fun _ => True) (loadToCop m opcode (loadWith m load) f)
      (loadToCop m.narrow opcode (loadWith m.narrow load) g) :=
  (eqOn_readGpr64 hm _).bind fun _ _ => eqOn_whenLoaded hm load _ h

lemma eqOn_storeFromCop (hm : m.IsN64) {w : ℕ} {x y : CpuM T δ (BitVec w)}
    (h : Prog.EqOn Form32 (fun _ => True) x y)
    (store : δ → BitVec 64 → BitVec w → Served δ Unit) :
    Prog.EqOn Form32 (fun _ => True) (storeFromCop m opcode x (storeWith m store))
      (storeFromCop m.narrow opcode y (storeWith m.narrow store)) :=
  (eqOn_readGpr64 hm _).bind fun _ _ => h.bind fun _ _ => eqOn_storeWith hm store _ _

/-! ## Branches and jumps -/

omit [MipsTlbBase T] in
lemma eqOn_branchIf (likely taken : Bool) :
    Prog.EqOn Form32 (fun _ => True) (branchIf (T := T) (δ := δ) opcode likely taken)
      (branchIf opcode likely taken) := by
  rw [branchIf]
  split
  · exact .of_modify fun s hs => .of_sameRegs s _ rfl hs
  · split
    · exact .of_modify fun s hs => .of_sameRegs s _ rfl hs
    · exact .of_pure trivial

omit [MipsTlbBase T] in
lemma eqOn_branchR (hm : m.IsN64) (likely : Bool) (cond : BitVec 64 → BitVec 64 → Bool) :
    Prog.EqOn Form32 (fun _ => True) (branchR (T := T) m opcode likely cond)
      (branchR m.narrow opcode likely cond) :=
  (eqOn_readGpr64 hm _).bind fun _ _ => (eqOn_readGpr64 hm _).bind fun _ _ => eqOn_branchIf _ _

omit [MipsTlbBase T] in
lemma eqOn_linkForJump (dstReg : BitVec 5) :
    Prog.EqOn Form32 (fun _ => True) (linkForJump (T := T) (δ := δ) dstReg) (linkForJump dstReg) :=
  (eqOn_read (Q := fun _ => True) fun _ _ => trivial).bind fun _ _ =>
    eqOn_writeGpr64 _ (.signExtend (by omega) le_rfl _)

omit [MipsTlbBase T] in
lemma eqOn_branchZ (hm : m.IsN64) (link likely : Bool) (cond : BitVec 64 → Bool) :
    Prog.EqOn Form32 (fun _ => True) (branchZ (T := T) m opcode link likely cond)
      (branchZ m.narrow opcode link likely cond) := by
  refine (eqOn_readGpr64 hm _).bind fun rsValue _ => ?_
  cases link with
  | true => exact (eqOn_linkForJump 31).bind fun _ _ => eqOn_branchIf _ _
  | false => exact eqOn_branchIf _ _

lemma alike_branchCop (hm : m.IsN64) (likely onFlag : Bool) :
    Prog.AlikeOn Form32 regs (branchCop (T := T) m opcode likely onFlag)
      (branchCop m.narrow opcode likely onFlag) :=
  alike_whenCopEnabled hm
    ((eqOn_ports 0 .kNop (ports_copGetFlag _)).bind fun _ _ => eqOn_branchIf _ _)

lemma eqOn_detectIdleLoop (hm : m.IsN64) :
    Prog.EqOn Form32 (fun _ => True) (detectIdleLoop (T := T) m) (detectIdleLoop m.narrow) := by
  have heq : detectIdleLoop (T := T) m.narrow = detectIdleLoop m := by
    simp only [detectIdleLoop, fetch_narrow hm]
  rw [heq]
  exact eqOn_ports 0 .kJ (ports_detectIdleLoop (.inr rfl))

lemma eqOn_instBeq (hm : m.IsN64) :
    Prog.EqOn Form32 (fun _ => True) (instBeq (T := T) m opcode) (instBeq m.narrow opcode) := by
  rw [instBeq, instBeq]
  split
  · exact (eqOn_detectIdleLoop hm).bind fun _ _ => eqOn_branchR hm _ _
  · exact eqOn_branchR hm _ _

lemma eqOn_instJ (hm : m.IsN64) :
    Prog.EqOn Form32 (fun _ => True) (instJ (T := T) m opcode) (instJ m.narrow opcode) := by
  refine (eqOn_read (Q := fun _ => True) fun _ _ => trivial).bind fun pc _ => ?_
  refine (Prog.EqOn.of_modify fun s hs => .of_sameRegs s _ rfl hs).bind fun _ _ => ?_
  split
  · exact eqOn_detectIdleLoop hm
  · exact .of_pure trivial

omit [MipsTlbBase T] in
lemma eqOn_instJal :
    Prog.EqOn Form32 (fun _ => True) (instJal (T := T) (δ := δ) opcode) (instJal opcode) :=
  (eqOn_read (Q := fun _ => True) fun _ _ => trivial).bind fun _ _ =>
    (eqOn_linkForJump 31).bind fun _ _ => .of_modify fun s hs => .of_sameRegs s _ rfl hs

omit [MipsTlbBase T] in
lemma eqOn_instJr (hm : m.IsN64) :
    Prog.EqOn Form32 (fun _ => True) (instJr (T := T) m opcode) (instJr m.narrow opcode) := by
  refine (eqOn_readGpr64 hm _).bind fun rsValue _ => ?_
  split
  · exact .of_throw _
  · exact .of_modify fun s hs => .of_sameRegs s _ rfl hs

omit [MipsTlbBase T] in
lemma eqOn_instJalr (hm : m.IsN64) :
    Prog.EqOn Form32 (fun _ => True) (instJalr (T := T) m opcode) (instJalr m.narrow opcode) := by
  refine (eqOn_readGpr64 hm _).bind fun rsValue _ => ?_
  split
  · exact .of_throw _
  · exact (eqOn_linkForJump _).bind fun _ _ => .of_modify fun s hs => .of_sameRegs s _ rfl hs

lemma eqOn_instCache (hm : m.IsN64) :
    Prog.EqOn Form32 (fun _ => True) (instCache (T := T) m opcode) (instCache m.narrow opcode) := by
  have hconfig : m.narrow.config = m.config := rfl
  rw [instCache, instCache, hconfig]
  refine (eqOn_readGpr64 hm _).bind fun baseValue _ => ?_
  split
  · exact .of_pure trivial
  · split
    · exact .of_modify fun s hs => .of_sameRegs s _ rfl hs
    · exact .of_pure trivial

end Acting

/-! ## All handlers -/

/-- A handler outside the doubleword group keeps the registers in 32-bit form, and the handler
of the processor with 32-bit registers leaves the same values in them. -/
theorem callInst_alike (hm : m.IsN64) (opcode : BitVec 32) {func : MipsInstId}
    (hfunc : func.isDoubleword = false) :
    Prog.AlikeOn Form32 regs (callInst (T := T) m opcode func) (callInst m.narrow opcode func) := by
  cases func with
  | kAdd =>
      exact .bind (eqOn_readGpr32 _) fun _ _ => .bind (eqOn_readGpr32 _) fun _ _ =>
        alike_writeOrTrap hm _ _ (.signExtend (by omega) le_rfl _)
  | kAddu => exact .of_eqOn (eqOn_arithR32 _)
  | kAddi =>
      exact .bind (eqOn_readGpr32 _) fun _ _ =>
        alike_writeOrTrap hm _ _ (.signExtend (by omega) le_rfl _)
  | kAddiu => exact .of_eqOn ((eqOn_readGpr32 _).bind fun _ _ => eqOn_writeGpr32Sext _ _)
  | kAnd => exact .of_eqOn (eqOn_arithR64 hm fun _ _ => .and (by omega))
  | kAndi => exact .of_eqOn (eqOn_arithI64 hm fun _ hrs => .and (by omega) hrs isSext_immField)
  | kDiv => exact .of_eqOn (eqOn_mulDiv32 _)
  | kDivu => exact .of_eqOn (eqOn_mulDiv32 _)
  | kMult => exact .of_eqOn (eqOn_mulDiv32 _)
  | kMultu => exact .of_eqOn (eqOn_mulDiv32 _)
  | kNor =>
      exact .of_eqOn (eqOn_arithR64 hm fun _ _ hrs hrt =>
        .xor (by omega) isSext_ones (.or (by omega) hrs hrt))
  | kOr => exact .of_eqOn (eqOn_arithR64 hm fun _ _ => .or (by omega))
  | kOri => exact .of_eqOn (eqOn_arithI64 hm fun _ hrs => .or (by omega) hrs isSext_immField)
  | kSll => exact .of_eqOn (eqOn_shift32 _)
  | kSllv => exact .of_eqOn (eqOn_arithR32 _)
  | kSra => exact .of_eqOn (eqOn_shift32 _)
  | kSrav => exact .of_eqOn (eqOn_arithR32 _)
  | kSrl => exact .of_eqOn (eqOn_shift32 _)
  | kSrlv => exact .of_eqOn (eqOn_arithR32 _)
  | kSub =>
      exact .bind (eqOn_readGpr32 _) fun _ _ => .bind (eqOn_readGpr32 _) fun _ _ =>
        alike_writeOrTrap hm _ _ (.signExtend (by omega) le_rfl _)
  | kSubu => exact .of_eqOn (eqOn_arithR32 _)
  | kXor => exact .of_eqOn (eqOn_arithR64 hm fun _ _ => .xor (by omega))
  | kXori => exact .of_eqOn (eqOn_arithI64 hm fun _ hrs => .xor (by omega) hrs isSext_immField)
  | kLui => exact .of_eqOn (eqOn_writeGpr32Sext _ _)
  | kSlt => exact .of_eqOn (eqOn_arithR64 hm fun _ _ _ _ => isSext_flag _)
  | kSltu => exact .of_eqOn (eqOn_arithR64 hm fun _ _ _ _ => isSext_flag _)
  | kSlti => exact .of_eqOn (eqOn_arithI64 hm fun _ _ => isSext_flag _)
  | kSltiu => exact .of_eqOn (eqOn_arithI64 hm fun _ _ => isSext_flag _)
  | kBeq => exact .of_eqOn (eqOn_instBeq hm)
  | kBne => exact .of_eqOn (eqOn_branchR hm _ _)
  | kBgtz => exact .of_eqOn (eqOn_branchZ hm _ _ _)
  | kBlez => exact .of_eqOn (eqOn_branchZ hm _ _ _)
  | kBgez => exact .of_eqOn (eqOn_branchZ hm _ _ _)
  | kBgezal => exact .of_eqOn (eqOn_branchZ hm _ _ _)
  | kBltz => exact .of_eqOn (eqOn_branchZ hm _ _ _)
  | kBltzal => exact .of_eqOn (eqOn_branchZ hm _ _ _)
  | kJ => exact .of_eqOn (eqOn_instJ hm)
  | kJal => exact .of_eqOn (eqOn_instJal)
  | kJr => exact .of_eqOn (eqOn_instJr hm)
  | kJalr => exact .of_eqOn (eqOn_instJalr hm)
  | kSyscall => exact alike_triggerException hm _
  | kBreak => exact alike_instBreak hm
  | kLb => exact alike_instLoad hm _ _ fun _ => .signExtend (by omega) (by omega) _
  | kLbu => exact alike_instLoad hm _ _ fun _ => .setWidth (by omega) _
  | kLh => exact alike_instLoad hm _ _ fun _ => .signExtend (by omega) (by omega) _
  | kLhu => exact alike_instLoad hm _ _ fun _ => .setWidth (by omega) _
  | kLw => exact alike_instLoad hm _ _ fun _ => .signExtend (by omega) (by omega) _
  | kLwl =>
      exact .of_eqOn ((eqOn_readGpr64 hm _).bind fun _ _ => (eqOn_readGpr32 _).bind fun _ _ =>
        (eqOn_loadBytes hm _ _ _ _).bind fun _ _ => eqOn_writeGpr32Sext _ _)
  | kLwr =>
      exact .of_eqOn ((eqOn_readGpr64 hm _).bind fun _ _ => (eqOn_readGpr32 _).bind fun _ _ =>
        (eqOn_loadBytes hm _ _ _ _).bind fun _ _ => eqOn_writeGpr32Sext _ _)
  | kLwc =>
      exact alike_unlessOverridden hm fun hbit => eqOn_loadToCop hm _ fun _ =>
        eqOn_copWrite32 (show isCopCommand m opcode .kLwc = false from hbit) rfl _
  | kSb => exact alike_instStore hm _ _
  | kSh => exact alike_instStore hm _ _
  | kSw => exact alike_instStore hm _ _
  | kSwl =>
      exact .of_eqOn ((eqOn_readGpr64 hm _).bind fun _ _ => (eqOn_readGpr32 _).bind fun _ _ =>
        eqOn_storeBytes hm _ _ _ _)
  | kSwr =>
      exact .of_eqOn ((eqOn_readGpr64 hm _).bind fun _ _ => (eqOn_readGpr32 _).bind fun _ _ =>
        eqOn_storeBytes hm _ _ _ _)
  | kSwc =>
      exact alike_unlessOverridden hm fun _ =>
        eqOn_storeFromCop hm (eqOn_copRead32 _ _) _
  | kMfhi => exact .of_eqOn ((eqOn_read fun _ hs => hs.hi).bind fun _ hv => eqOn_writeGpr64 _ hv)
  | kMflo => exact .of_eqOn ((eqOn_read fun _ hs => hs.lo).bind fun _ hv => eqOn_writeGpr64 _ hv)
  | kMthi => exact .of_eqOn ((eqOn_readGpr64 hm _).bind fun _ hv => eqOn_writeHi hv)
  | kMtlo => exact .of_eqOn ((eqOn_readGpr64 hm _).bind fun _ hv => eqOn_writeLo hv)
  | kCop => exact alike_instCop hm
  | kMfc => exact alike_moveFromCop hm _
  | kCfc => exact alike_moveFromCop hm _
  | kMtc =>
      exact alike_unlessOverridden hm fun hbit => (eqOn_readGpr32 _).bind fun _ _ =>
        eqOn_copWrite32 (show isCopCommand m opcode .kMtc = false from hbit) rfl _
  | kCtc =>
      exact alike_unlessOverridden hm fun hbit => (eqOn_readGpr32 _).bind fun _ _ =>
        eqOn_copWrite32 (show isCopCommand m opcode .kCtc = false from hbit) rfl _
  | kNop => exact .of_eqOn (.of_pure (Q := fun _ => True) trivial)
  | kBcf => exact alike_branchCop hm _ _
  | kBcfl => exact alike_branchCop hm _ _
  | kBct => exact alike_branchCop hm _ _
  | kBctl => exact alike_branchCop hm _ _
  | kBeql => exact .of_eqOn (eqOn_branchR hm _ _)
  | kBnel => exact .of_eqOn (eqOn_branchR hm _ _)
  | kBgezl => exact .of_eqOn (eqOn_branchZ hm _ _ _)
  | kBgezall => exact .of_eqOn (eqOn_branchZ hm _ _ _)
  | kBgtzl => exact .of_eqOn (eqOn_branchZ hm _ _ _)
  | kBlezl => exact .of_eqOn (eqOn_branchZ hm _ _ _)
  | kBltzl => exact .of_eqOn (eqOn_branchZ hm _ _ _)
  | kBltzall => exact .of_eqOn (eqOn_branchZ hm _ _ _)
  | kCache => exact .of_eqOn (eqOn_instCache hm)
  | kDmtc =>
      exact alike_whenCopEnabled hm ((eqOn_readGpr64 hm _).bind fun _ _ =>
        eqOn_copWrite64 (rfl : isCopCommand m opcode .kDmtc = false) rfl _)
  | kLdc =>
      exact alike_whenCopEnabled hm (eqOn_loadToCop hm _ fun _ =>
        eqOn_copWrite64 (rfl : isCopCommand m opcode .kLdc = false) rfl _)
  | kSd => exact alike_instStore hm _ _
  | kSdc => exact alike_whenCopEnabled hm (eqOn_storeFromCop hm (eqOn_copRead64 _ _) _)
  | kSdl =>
      exact .of_eqOn ((eqOn_readGpr64 hm _).bind fun _ _ => (eqOn_readGpr64 hm _).bind fun _ _ =>
        eqOn_storeBytes hm _ _ _ _)
  | kSdr =>
      exact .of_eqOn ((eqOn_readGpr64 hm _).bind fun _ _ => (eqOn_readGpr64 hm _).bind fun _ _ =>
        eqOn_storeBytes hm _ _ _ _)
  | kSync => exact .of_eqOn (.of_pure (Q := fun _ => True) trivial)
  | kLl => exact .of_eqOn (.of_throw (Q := fun _ => True) _)
  | kLld => exact .of_eqOn (.of_throw (Q := fun _ => True) _)
  | kSc => exact .of_eqOn (.of_throw (Q := fun _ => True) _)
  | kScd => exact .of_eqOn (.of_throw (Q := fun _ => True) _)
  | kUnknown => exact .of_eqOn (.of_throw (Q := fun _ => True) _)
  -- The doubleword group is left.
  | _ => exact absurd hfunc (by decide)

end MipsBase

end NgMips
