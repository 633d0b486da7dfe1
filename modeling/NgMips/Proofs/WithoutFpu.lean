import NgMips.Proofs.Hide
import NgMips.Proofs.Lockstep
import NgMips.Source.Machine

/-!
# A floating-point unit that is not enabled

Until `Status.CU1` is set, a program cannot tell whether the processor has a floating-point unit.
A run at whose instruction boundaries the bit is clear is the run of the processor built without the
unit (`run_withoutFpu`); so it leaves the floating-point registers alone, and what it does does not
depend on them.
-/

namespace NgMips

variable {δ : Type}

/-- The processor built without a floating-point unit. -/
def MipsSetup.withoutFpu (m : MipsSetup δ) : MipsSetup δ :=
  { m with config := { m.config with hasFpu := false } }

namespace MipsSetup

variable {m : MipsSetup δ}

lemma slot_withoutFpu {copId : BitVec 2} (h : copId ≠ 1#2) :
    m.withoutFpu.slot copId = m.slot copId := by
  have hne : ¬ copId = 1 := h
  rw [slot, slot, if_neg hne, if_neg hne]
  rfl

lemma slot_one_withoutFpu : m.withoutFpu.slot 1 ≠ .fpu := by
  rw [slot]
  split
  · decide
  · simp [withoutFpu]

lemma IsN64.withoutFpu (hm : m.IsN64) : m.withoutFpu.IsN64 := ⟨hm.is64Bit, hm.hasCop0, hm.cop0_free⟩

end MipsSetup

namespace MipsBase

variable {T : Type} {m : MipsSetup δ}

/-! ## Programs that do not use the unit -/

section Same

lemma copRead32Internal_withoutFpu (idx : ℕ) :
    copRead32Internal (T := T) m.withoutFpu idx = copRead32Internal m idx := by
  rw [copRead32Internal, copRead32Internal, MipsSetup.slot_withoutFpu (by decide)]
  rfl

lemma copWrite64Internal_withoutFpu (idx : ℕ) (value : BitVec 64) :
    copWrite64Internal (T := T) m.withoutFpu idx value = copWrite64Internal m idx value := by
  rw [copWrite64Internal, copWrite64Internal, MipsSetup.slot_withoutFpu (by decide)]
  rfl

lemma copWrite32Internal_withoutFpu (idx : ℕ) (value : BitVec 32) :
    copWrite32Internal (T := T) m.withoutFpu idx value = copWrite32Internal m idx value := by
  rw [copWrite32Internal, copWrite32Internal, MipsSetup.slot_withoutFpu (by decide)]
  rfl

lemma isCopEnabled_withoutFpu (copId : BitVec 2) :
    isCopEnabled (T := T) m.withoutFpu copId = isCopEnabled m copId := by
  rw [isCopEnabled, isCopEnabled, copRead32Internal_withoutFpu]
  rfl

lemma takeException_withoutFpu (cause : ExceptionCause) (epc : BitVec 64) (bd : Bool) :
    takeException (T := T) m.withoutFpu cause epc bd = takeException m cause epc bd := by
  simp only [takeException, copRead32Internal_withoutFpu, copWrite32Internal_withoutFpu,
    copWrite64Internal_withoutFpu]
  rfl

lemma triggerNoDelay_withoutFpu (cause : ExceptionCause) :
    triggerNoDelay (T := T) m.withoutFpu cause = triggerNoDelay m cause := by
  rw [triggerNoDelay, triggerNoDelay]
  simp only [takeException_withoutFpu]
  rfl

variable [MipsTlbBase T]

lemma translationFault_withoutFpu (trigger : ExceptionCause → CpuM T δ Unit)
    (cause : ExceptionCause) (address : BitVec 64) :
    translationFault m.withoutFpu trigger cause address =
      translationFault m trigger cause address := by
  rw [translationFault, translationFault, copWrite64Internal_withoutFpu]

lemma triggerException_withoutFpu :
    triggerException (T := T) m.withoutFpu = triggerException m := by
  funext cause
  have htrigger : triggerNoDelay (T := T) m.withoutFpu = triggerNoDelay m :=
    funext triggerNoDelay_withoutFpu
  simp only [triggerException, fetchWith, htrigger, translationFault_withoutFpu,
    takeException_withoutFpu]
  rfl

lemma fetch_withoutFpu : fetch (T := T) m.withoutFpu = fetch m := by
  funext address
  rw [fetch, fetch, fetchWith, fetchWith, triggerException_withoutFpu]
  simp only [translationFault_withoutFpu]
  rfl

lemma addressError_withoutFpu (cause : ExceptionCause) (address : BitVec 64) :
    addressError (T := T) m.withoutFpu cause address = addressError m cause address := by
  rw [addressError, addressError, copWrite64Internal_withoutFpu, triggerException_withoutFpu]

lemma loadWith_withoutFpu {w : ℕ} (load : δ → BitVec 64 → Served δ (Option (BitVec w))) :
    loadWith (T := T) m.withoutFpu load = loadWith m load := by
  funext address
  rw [loadWith, loadWith, triggerException_withoutFpu]
  simp only [translationFault_withoutFpu]

lemma storeWith_withoutFpu {w : ℕ} (store : δ → BitVec 64 → BitVec w → Served δ Unit) :
    storeWith (T := T) m.withoutFpu store = storeWith m store := by
  funext address value
  simp only [storeWith, isIsolated, copRead32Internal_withoutFpu, triggerException_withoutFpu,
    translationFault_withoutFpu]
  rfl

lemma checkInterrupt_withoutFpu : checkInterrupt (T := T) m.withoutFpu = checkInterrupt m := by
  rw [checkInterrupt, checkInterrupt]
  simp only [copRead32Internal_withoutFpu, triggerException_withoutFpu]
  rfl

lemma checkCompare_withoutFpu : checkCompare (T := T) m.withoutFpu = checkCompare m := by
  rw [checkCompare, checkCompare]
  simp only [copRead32Internal_withoutFpu, copWrite32Internal_withoutFpu, checkInterrupt_withoutFpu]
  rfl

lemma poll_withoutFpu : poll (T := T) m.withoutFpu = poll m := by
  rw [poll, poll, checkInterrupt_withoutFpu, checkCompare_withoutFpu]
  rfl

lemma writeOrTrap_withoutFpu (overflow : Bool) (idx : BitVec 5) (value : BitVec 64) :
    writeOrTrap (T := T) m.withoutFpu overflow idx value = writeOrTrap m overflow idx value := by
  rw [writeOrTrap, writeOrTrap, triggerException_withoutFpu]

variable (opcode : BitVec 32)

lemma instLoad_withoutFpu {w : ℕ} (mask : BitVec 64)
    (load : δ → BitVec 64 → Served δ (Option (BitVec w))) (extend : BitVec w → BitVec 64) :
    instLoad (T := T) m.withoutFpu opcode mask (loadWith m.withoutFpu load) extend =
      instLoad m opcode mask (loadWith m load) extend := by
  simp only [instLoad, loadWith_withoutFpu, addressError_withoutFpu]
  rfl

lemma instStore_withoutFpu {w : ℕ} (mask : BitVec 64)
    (store : δ → BitVec 64 → BitVec w → Served δ Unit) :
    instStore (T := T) m.withoutFpu opcode mask (storeWith m.withoutFpu store) =
      instStore m opcode mask (storeWith m store) := by
  simp only [instStore, storeWith_withoutFpu, addressError_withoutFpu]
  rfl

lemma loadBytes_withoutFpu {w : ℕ} (address : ℕ → BitVec 64) (shamt : ℕ → ℕ) (count : ℕ)
    (value : BitVec w) :
    loadBytes (T := T) m.withoutFpu address shamt count value =
      loadBytes m address shamt count value := by
  simp only [loadBytes, load8, loadWith_withoutFpu]
  rfl

lemma storeBytes_withoutFpu {w : ℕ} (address : ℕ → BitVec 64) (shamt : ℕ → ℕ) (count : ℕ)
    (value : BitVec w) :
    storeBytes (T := T) m.withoutFpu address shamt count value =
      storeBytes m address shamt count value := by
  simp only [storeBytes, store8, storeWith_withoutFpu]
  rfl

lemma detectIdleLoop_withoutFpu : detectIdleLoop (T := T) m.withoutFpu = detectIdleLoop m := by
  rw [detectIdleLoop, detectIdleLoop, fetch_withoutFpu]

/-! ## Coprocessor instructions -/

lemma copUnusable_withoutFpu (copId : BitVec 2) :
    copUnusable (T := T) m.withoutFpu copId = copUnusable m copId := by
  rw [copUnusable, copUnusable, triggerException_withoutFpu]

/-- `Status.CU1` is clear. -/
def FpuDisabled (s : MipsBase T δ) : Prop := s.cop0.sr.getLsbD 29 = false

variable {opcode}

/-- An instruction that asks whether its coprocessor is enabled does the same without the unit,
when its body does so for any other coprocessor. -/
lemma whenCopEnabled_withoutFpu (hm : m.IsN64) {body body' : CpuM T δ Unit}
    (hbody : copId opcode ≠ 1#2 → body' = body) {s : MipsBase T δ} (hs : FpuDisabled s) :
    whenCopEnabled m.withoutFpu opcode body' s = whenCopEnabled m opcode body s := by
  rw [whenCopEnabled, whenCopEnabled, isCopEnabled_withoutFpu, copUnusable_withoutFpu]
  by_cases hcop : copId opcode = 1#2
  · have henabled : isCopEnabled m (copId opcode) s = .ok (false, s) := by
      rw [isCopEnabled, if_pos hm.hasCop0, Prog.bind_of_ok (copRead32Internal_status hm s), hcop]
      have hbit : s.cop0.sr.getLsbD ((1#2).toNat + 28) = false := hs
      rw [hbit]
      rfl
    rw [Prog.bind_of_ok henabled, Prog.bind_of_ok henabled]
    rfl
  · rw [hbody hcop]

lemma unlessOverridden_withoutFpu (hm : m.IsN64) {body body' : CpuM T δ Unit}
    (hbody : copId opcode ≠ 1#2 → body' = body) {s : MipsBase T δ} (hs : FpuDisabled s) :
    unlessOverridden m.withoutFpu opcode body' s = unlessOverridden m opcode body s := by
  have hcommand : copId opcode ≠ 1#2 →
      copCommand (T := T) m.withoutFpu (copId opcode) opcode =
        copCommand m (copId opcode) opcode := by
    intro hcop
    rw [copCommand, copCommand, MipsSetup.slot_withoutFpu hcop]
    rfl
  rw [unlessOverridden, unlessOverridden, instCop, instCop]
  change (if m.config.copDecodingOverride.getLsbD (copId opcode).toNat then _ else _ : CpuM T δ Unit) s
    = _
  split
  · exact whenCopEnabled_withoutFpu hm hcommand hs
  · exact whenCopEnabled_withoutFpu hm hbody hs

/-- **While the unit is disabled no handler needs it.** -/
lemma callInst_withoutFpu (hm : m.IsN64) (func : MipsInstId) {s : MipsBase T δ}
    (hs : FpuDisabled s) : callInst m.withoutFpu opcode func s = callInst m opcode func s := by
  have hslot : copId opcode ≠ 1#2 → m.withoutFpu.slot (copId opcode) = m.slot (copId opcode) :=
    MipsSetup.slot_withoutFpu
  cases func
  case kAdd | kAddi | kSub | kDadd | kDaddi | kDsub =>
    simp only [callInst, instAdd, instAddi, instSub, instDadd, instDaddi, instDsub,
      writeOrTrap_withoutFpu]
    rfl
  case kLb | kLbu | kLh | kLhu | kLw | kLwu | kLd =>
    exact congrFun (instLoad_withoutFpu opcode _ _ _) s
  case kSb | kSh | kSw | kSd => exact congrFun (instStore_withoutFpu opcode _ _) s
  case kLwl | kLwr | kLdl | kLdr =>
    simp only [callInst, instLwl, instLwr, instLdl, instLdr, loadBytes_withoutFpu]
    rfl
  case kSwl | kSwr | kSdl | kSdr =>
    simp only [callInst, instSwl, instSwr, instSdl, instSdr, storeBytes_withoutFpu]
    rfl
  case kBeq =>
    change instBeq m.withoutFpu opcode s = instBeq m opcode s
    rw [instBeq, instBeq, detectIdleLoop_withoutFpu]
    rfl
  case kJ =>
    change instJ m.withoutFpu opcode s = instJ m opcode s
    rw [instJ, instJ, detectIdleLoop_withoutFpu]
  case kSyscall =>
    change triggerException m.withoutFpu .kSyscall s = triggerException m .kSyscall s
    rw [triggerException_withoutFpu]
  case kBreak =>
    change instBreak m.withoutFpu s = instBreak m s
    rw [instBreak, instBreak, triggerException_withoutFpu, if_pos hm.hasCop0,
      if_pos hm.withoutFpu.hasCop0]
  case kCop =>
    refine whenCopEnabled_withoutFpu hm (fun hcop => ?_) hs
    rw [copCommand, copCommand, hslot hcop]
    rfl
  case kMfc | kCfc =>
    refine unlessOverridden_withoutFpu hm (fun hcop => ?_) hs
    rw [copRead32, copRead32, hslot hcop]
    rfl
  case kMtc | kCtc =>
    refine unlessOverridden_withoutFpu hm (fun hcop => ?_) hs
    simp only [copWrite32, hslot hcop]
    rfl
  case kDmfc =>
    refine whenCopEnabled_withoutFpu hm (fun hcop => ?_) hs
    rw [copRead64, copRead64, hslot hcop]
    rfl
  case kDmtc =>
    refine whenCopEnabled_withoutFpu hm (fun hcop => ?_) hs
    simp only [copWrite64, hslot hcop]
    rfl
  case kLwc =>
    refine unlessOverridden_withoutFpu hm (fun hcop => ?_) hs
    simp only [loadToCop, load32, loadWith_withoutFpu, copWrite32, hslot hcop]
    rfl
  case kLdc =>
    refine whenCopEnabled_withoutFpu hm (fun hcop => ?_) hs
    simp only [loadToCop, load64, loadWith_withoutFpu, copWrite64, hslot hcop]
    rfl
  case kSwc =>
    refine unlessOverridden_withoutFpu hm (fun hcop => ?_) hs
    simp only [storeFromCop, store32, storeWith_withoutFpu, copRead32, hslot hcop]
    rfl
  case kSdc =>
    refine whenCopEnabled_withoutFpu hm (fun hcop => ?_) hs
    simp only [storeFromCop, store64, storeWith_withoutFpu, copRead64, hslot hcop]
    rfl
  case kBcf | kBcfl | kBct | kBctl =>
    refine whenCopEnabled_withoutFpu hm (fun hcop => ?_) hs
    rw [copGetFlag, copGetFlag, hslot hcop]
    rfl
  all_goals rfl

/-! ## Runs -/

lemma collectEntries_withoutFpu (n : ℕ) (address : BitVec 64) :
    collectEntries (T := T) m.withoutFpu n address = collectEntries m n address := by
  induction n generalizing address with
  | zero => rfl
  | succ n ih =>
      simp only [collectEntries, fetchEntry, fetch_withoutFpu, ih]
      rfl

lemma enterBlock_withoutFpu : enterBlock (T := T) m.withoutFpu = enterBlock m := by
  have hbuild : ∀ address, buildBlock (T := T) m.withoutFpu address = buildBlock m address := by
    intro address
    rw [buildBlock, buildBlock, collectEntries_withoutFpu]
  simp only [enterBlock, getOrBuildBlock, onNewBlock, hbuild]
  rfl

lemma beginRun_withoutFpu : beginRun (T := T) m.withoutFpu = beginRun m := by
  funext s
  rw [beginRun, beginRun, checkInterrupt_withoutFpu, checkCompare_withoutFpu]
  rfl

/-- Outside of its handlers the processor does not use the unit. -/
lemma lockstep_withoutFpu : Lockstep (T := T) m m.withoutFpu id 0 where
  mode := rfl
  width := rfl
  pc _ := rfl
  halt _ := rfl
  cycleSpent _ := rfl
  cycleSpentTotal _ _ := rfl
  started _ _ := rfl
  stepped _ _ := rfl
  counted _ _ := rfl
  poll _ s := .of_eq (congrFun poll_withoutFpu s)
  enterBlock s := .of_eq (congrFun enterBlock_withoutFpu s)
  fetch address s := .of_eq (congrFun (congrFun fetch_withoutFpu address) s)

end Same

section Run

variable [MipsTlbBase T]

lemma commutes_beginRun (h : Hidden) : Prog.Commutes (hide m h) (beginRun (T := T) m) := by
  intro s
  cases hmode : m.config.useCachedInterpreter with
  | true =>
      simp only [beginRun, hmode, if_true]
      rfl
  | false =>
      have hchecks := commutes_internals (m := m) (T := T) h internal_begin
      simp only [beginRun, hmode]
      exact hchecks { s with cycleSpent := 0 }

/-- The registers of a unit that is not used can be changed. -/
lemma lockstep_hide (h : Hidden) : Lockstep (T := T) m m (hide m.withoutFpu h) 0 where
  mode := rfl
  width := rfl
  pc _ := rfl
  halt _ := rfl
  cycleSpent _ := rfl
  cycleSpentTotal _ _ := rfl
  started _ s := by
    rw [MipsBase.started, MipsBase.started]
    dsimp only [hide]
    split <;> rfl
  stepped _ _ := rfl
  counted _ _ := rfl
  poll hmode s := by
    rw [← poll_withoutFpu]
    exact .of_commutes (commutes_poll h hmode)
  enterBlock s := by
    rw [← enterBlock_withoutFpu]
    exact .of_commutes (commutes_enterBlock h)
  fetch address s := by
    rw [← fetch_withoutFpu]
    exact .of_commutes (commutes_internals h (internal_fetch address))

/-- **A unit that is not enabled is not there.**  When `Status.CU1` is clear whenever a handler is
called, a run is that of the processor without the floating-point unit.  It keeps the registers of
the unit, and from other registers of the unit it does the same. -/
theorem run_withoutFpu (hm : m.IsN64) {fuel : ℕ} {cycle : ℤ} {s : MipsBase T δ}
    (hdisabled : ∀ d ∈ runCalls m fuel cycle s, FpuDisabled d.state) :
    run m.withoutFpu fuel cycle s = run m fuel cycle s ∧
      (∀ r s', run m fuel cycle s = .ok (r, s') → s'.fpu = s.fpu) ∧
      ∀ fpu, run m fuel cycle { s with fpu := fpu } =
        (run m fuel cycle s).map fun r => (r.1, { r.2 with fpu := fpu }) := by
  have hsame : run m.withoutFpu fuel cycle s = run m fuel cycle s := by
    have hrun := lockstep_withoutFpu.run (.of_eq (congrFun beginRun_withoutFpu s))
      fun d hd => .of_eq (callInst_withoutFpu hm d.func (hdisabled d hd))
    rw [Prog.Carries, id_eq] at hrun
    rw [hrun]
    cases run m fuel cycle s <;> rfl
  have hhide : ∀ fpu (t : MipsBase T δ), hide m.withoutFpu ⟨[], s.interruptPollCounter, fpu⟩ t =
      { t with
        interruptPollCounter := if m.config.useCachedInterpreter then t.interruptPollCounter
          else s.interruptPollCounter
        fpu := fpu } := by
    intro fpu t
    rw [hide, if_neg MipsSetup.slot_one_withoutFpu, List.append_nil]
    rfl
  have hchanged : ∀ fpu, run m fuel cycle { s with fpu := fpu } =
      (run m fuel cycle s).map fun r =>
        (r.1, hide m.withoutFpu ⟨[], s.interruptPollCounter, fpu⟩ r.2) := by
    intro fpu
    have hstart : hide m.withoutFpu ⟨[], s.interruptPollCounter, fpu⟩ s =
        { s with fpu := fpu } := by
      rw [hhide, ite_self]
    rw [← hstart]
    refine (lockstep_hide _).run ?_ fun d hd => ?_
    · rw [← beginRun_withoutFpu]
      exact .of_commutes (commutes_beginRun _)
    · have hcommutes : Prog.Commutes _ (callInst (T := T) m.withoutFpu d.opcode d.func) :=
        commutes_callInst ⟨[], s.interruptPollCounter, fpu⟩
      specialize hcommutes d.state
      have hother : FpuDisabled (hide m.withoutFpu ⟨[], s.interruptPollCounter, fpu⟩ d.state) :=
        hdisabled d hd
      rw [callInst_withoutFpu hm d.func (hdisabled d hd), callInst_withoutFpu hm d.func hother]
        at hcommutes
      exact hcommutes
  -- From its own registers the run ends in a state that the change leaves as it is.
  have hkept : ∀ r s', run m fuel cycle s = .ok (r, s') →
      hide m.withoutFpu ⟨[], s.interruptPollCounter, s.fpu⟩ s' = s' := by
    intro r s' hrun
    have hsecond := hchanged s.fpu
    rw [hrun] at hsecond
    exact (Prog.state_eq hsecond).symm
  refine ⟨hsame, fun r s' hrun => ?_, fun fpu => ?_⟩
  · rw [← hkept r s' hrun, hhide]
  · rw [hchanged fpu]
    cases hrun : run m fuel cycle s with
    | error e => rfl
    | ok r =>
        have hstate := (hhide s.fpu r.2).symm.trans (hkept r.1 r.2 hrun)
        have hcounter := congrArg MipsBase.interruptPollCounter hstate
        dsimp only at hcounter
        refine congrArg (fun t => Except.ok (r.1, t)) ?_
        rw [hhide, hcounter]

end Run

instance (s : MipsBase T δ) : Decidable (FpuDisabled s) := inferInstanceAs (Decidable (_ = false))

/-- The main processor with exceptions and a floating-point unit. -/
def fpuSetup : MipsSetup WordMemory := n64Setup { hasException := true, hasFpu := true }

/-- `MTC1 $1, $f0`, without asking for the unit first. -/
def fpuWithoutAsking : MipsBase MipsTlbNormal WordMemory :=
  { programState 0x80001000 0x1000 [0x44810000] with
    gpr := Function.update (fun _ => 0) 1 1
    cop0 := { sr := 0x10000000 } }

/-- `run_withoutFpu` on a program that writes to the unit: it ends in the exception handler, and
the register is not written. -/
theorem fpuWithoutAsking_withoutFpu :
    fpuSetup.slot 1 = .fpu ∧
      run fpuSetup.withoutFpu 10 3 fpuWithoutAsking = run fpuSetup 10 3 fpuWithoutAsking ∧
      returnedValue (run fpuSetup 10 3) fpuWithoutAsking = some 3 ∧
      (lastState (run fpuSetup 10 3) fpuWithoutAsking).fpu = fpuWithoutAsking.fpu := by
  have hreturned : returnedValue (run fpuSetup 10 3) fpuWithoutAsking = some 3 := by decide +kernel
  have hdisabled : ∀ d ∈ runCalls fpuSetup 10 3 fpuWithoutAsking, FpuDisabled d.state := by
    decide +kernel
  obtain ⟨hsame, hkept, -⟩ := run_withoutFpu (n64Setup_isN64 _) hdisabled
  exact ⟨rfl, hsame, hreturned, hkept _ _ (run_of_returned hreturned)⟩

end MipsBase

end NgMips
