import NgMips.Proofs.Atomic
import NgMips.Proofs.Unaligned

/-!
# Misaligned accesses

A load or a store of two, four or eight bytes checks its address before it does anything else,
and an address error is all that is left of it.  The loads and stores of coprocessor registers
do not check: `checkedAccess_iff` says that they behave as the others do exactly at aligned
addresses.
-/

namespace NgMips

namespace MipsInstId

/-- The number of bytes a load or a store accesses at once. -/
def accessSize : MipsInstId → Option ℕ
  | kLh | kLhu | kSh => some 2
  | kLw | kLwu | kSw | kLwc | kSwc => some 4
  | kLd | kSd | kLdc | kSdc => some 8
  | _ => none

/-- The loads and stores of coprocessor registers. -/
def isCopAccess : MipsInstId → Bool
  | kLwc | kSwc | kLdc | kSdc => true
  | _ => false

/-- The address error of a load or of a store. -/
def addressCause : MipsInstId → ExceptionCause
  | kSh | kSw | kSd | kSwc | kSdc => .kAddrs
  | _ => .kAddrl

end MipsInstId

namespace MipsBase

variable {T δ : Type} [MipsTlbBase T] {m : MipsSetup δ} {opcode : BitVec 32} {func : MipsInstId}
  {s : MipsBase T δ}

/-- The coprocessor an instruction names is usable. -/
def CopUsable (opcode : BitVec 32) (s : MipsBase T δ) : Prop :=
  copId opcode = 0#2 ∨ s.cop0.sr.getLsbD ((copId opcode).toNat + 28) = true

/-- An address error, and nothing else: neither the bus nor a device was accessed, and of the
registers only those that describe the exception are new. -/
structure AddressFault (opcode : BitVec 32) (cause : ExceptionCause) (address : BitVec 64)
    (s s' : MipsBase T δ) : Prop where
  raised : s'.trace = .exception cause :: .preExecute s.pc opcode :: s.trace
  vector : s'.pc = vecAddressGeneral ∧ s'.nextPc = vecAddressGeneral
  code : s'.cop0.cause &&& 0x7C#32 = cause.code <<< 2
  badvaddr : s'.cop0.badvaddr = address
  gpr : s'.gpr = s.gpr
  hi : s'.hi = s.hi
  lo : s'.lo = s.lo
  fpu : s'.fpu = s.fpu
  tlb : s'.tlb = s.tlb
  device : s'.device = s.device
  cop0 : s'.cop0 = { s.cop0 with
    sr := s'.cop0.sr, cause := s'.cop0.cause, epc := s'.cop0.epc, badvaddr := s'.cop0.badvaddr }

/-- No address error was raised. -/
def NoAddressError (s s' : MipsBase T δ) : Prop :=
  ∃ new, s'.trace = new ++ s.trace ∧ ∀ e ∈ new, e ≠ .exception .kAddrl ∧ e ≠ .exception .kAddrs

/-- What a load or a store of `n` bytes does with its address. -/
structure CheckedAccess (m : MipsSetup δ) (opcode : BitVec 32) (func : MipsInstId) (n : ℕ)
    (s : MipsBase T δ) : Prop where
  misaligned : (effectiveAddress m opcode s).toNat % n ≠ 0 →
    ∃ s', execute m opcode func s = .ok ((), s') ∧
      AddressFault opcode func.addressCause (effectiveAddress m opcode s) s s'
  aligned : (effectiveAddress m opcode s).toNat % n = 0 →
    ∀ s', execute m opcode func s = .ok ((), s') → NoAddressError s s'

/-! ## Both outcomes -/

omit [MipsTlbBase T] in
lemma causeReg_code (cause : ExceptionCause) (hcause : cause ≠ .kCop)
    (causeRegOld copCause : BitVec 32) (interrupt compareInterrupt bd : Bool) :
    causeReg cause causeRegOld copCause interrupt compareInterrupt bd &&& 0x7C#32 =
      cause.code <<< 2 := by
  have hold : causeRegOld &&& ((0x0300 : ℕ) : BitVec 32) &&& 0x7C#32 = 0#32 := by
    rw [BitVec.and_assoc]
    exact BitVec.and_zero
  rw [causeReg, if_neg hcause, BitVec.and_or_distrib_right, BitVec.and_or_distrib_right,
    BitVec.and_or_distrib_right, BitVec.and_or_distrib_right, BitVec.and_or_distrib_right, hold]
  cases cause <;> cases interrupt <;> cases compareInterrupt <;> cases bd <;> rfl

/-- The exception of a misaligned access. -/
lemma addressFault_run (hm : m.IsN64) (hexc : m.config.hasException = true)
    {cause : ExceptionCause} (hcause : cause = .kAddrl ∨ cause = .kAddrs) (address : BitVec 64) :
    ∃ s', addressError m cause address (started opcode s) = .ok ((), s') ∧
      AddressFault opcode cause address s s' := by
  have htlb : ¬cause.isTlb = true := by rcases hcause with rfl | rfl <;> decide
  have hcop : cause ≠ .kCop := by rcases hcause with rfl | rfl <;> decide
  rw [addressError, Prog.bind_of_ok (copWrite64Internal_badvaddr hm _ _),
    triggerException_run hm hexc cause rfl, if_neg htlb]
  exact ⟨_, rfl, rfl, ⟨rfl, rfl⟩, causeReg_code cause hcop _ _ _ _ _, rfl, rfl, rfl, rfl, rfl, rfl,
    rfl, rfl⟩

/-- A handler that acts reports accesses only. -/
lemma noAddressError_of_acts (hm : m.IsN64) {x : CpuM T δ Unit} (hx : Acts m opcode func x)
    {s' : MipsBase T δ} (h : x (started opcode s) = .ok ((), s')) : NoAddressError s s' := by
  obtain ⟨new, htrace, hnew⟩ := (act_effect hm hx h).trace
  refine ⟨new ++ [.preExecute s.pc opcode], by rw [htrace]; simp [started_spec], fun e he => ?_⟩
  rcases List.mem_append.mp he with hmem | hmem
  · have haccess := hnew e hmem
    constructor <;> rintro rfl <;> exact absurd haccess (by simp [Event.isAccess])
  · obtain rfl := List.mem_singleton.mp hmem
    constructor <;> simp

omit [MipsTlbBase T] in
/-- An address error is one of the new reports. -/
lemma AddressFault.not_noAddressError {cause : ExceptionCause} {address : BitVec 64}
    {s' : MipsBase T δ} (hcause : cause = .kAddrl ∨ cause = .kAddrs)
    (h : AddressFault opcode cause address s s') : ¬ NoAddressError s s' := by
  rintro ⟨new, htrace, hnew⟩
  have hsplit : new = [.exception cause, .preExecute s.pc opcode] :=
    List.append_cancel_right (htrace.symm.trans h.raised)
  obtain ⟨hload, hstore⟩ := hnew (.exception cause) (by simp [hsplit])
  rcases hcause with rfl | rfl
  · exact hload rfl
  · exact hstore rfl

/-! ## Checked and unchecked accesses -/

section Checked

variable (hm : m.IsN64) (hexc : m.config.hasException = true)
  (hcheck : m.config.allowMisalignedAccess = false)

include hcheck in
omit [MipsTlbBase T] in
/-- The check finds the addresses that are no multiple of the size. -/
lemma isMisaligned_iff {b : ℕ} (hb : b < 64) (address : BitVec 64) :
    isMisaligned m (BitVec.ofNat 64 (2 ^ b - 1)) address = true ↔ address.toNat % 2 ^ b ≠ 0 := by
  rw [isMisaligned, hcheck, ← low_toNat b hb, bne, Bool.not_false, Bool.true_and,
    Bool.not_eq_true', beq_eq_false_iff_ne, ne_eq, ne_eq, ← BitVec.toNat_inj]
  rfl

include hm hexc hcheck

/-- Either the address is checked and refused, or the rest of the handler acts. -/
lemma checked_of_guard {b : ℕ} (hb : b < 64) {cause : ExceptionCause}
    (hcause : cause = .kAddrl ∨ cause = .kAddrs) (hfunc : func.addressCause = cause)
    {x : CpuM T δ Unit} (hx : Acts m opcode func x)
    (hrun : callInst m opcode func (started opcode s) =
      (if isMisaligned m (BitVec.ofNat 64 (2 ^ b - 1)) (effectiveAddress m opcode s) then
        addressError m cause (effectiveAddress m opcode s) else x) (started opcode s)) :
    CheckedAccess m opcode func (2 ^ b) s := by
  have hguard := isMisaligned_iff hcheck hb (effectiveAddress m opcode s)
  constructor
  · intro hmis
    rw [execute_run, hrun, if_pos (hguard.mpr hmis), hfunc]
    exact addressFault_run hm hexc hcause _
  · intro halign s' hs'
    rw [execute_run, hrun, if_neg fun h => hguard.mp h halign] at hs'
    exact noAddressError_of_acts hm hx hs'

lemma checked_load {b w : ℕ} (hb : b < 64) (load : δ → BitVec 64 → Served δ (Option (BitVec w)))
    (extend : BitVec w → BitVec 64)
    (hinst : callInst m opcode func =
      instLoad (T := T) m opcode (BitVec.ofNat 64 (2 ^ b - 1)) (loadWith m load) extend)
    (hfunc : func.addressCause = .kAddrl) : CheckedAccess m opcode func (2 ^ b) s := by
  refine checked_of_guard hm hexc hcheck hb (.inl rfl) hfunc
    (acts_whenLoaded load (effectiveAddress m opcode s) fun value =>
      .op (.writeGpr (rtField opcode) (extend value))) ?_
  rw [hinst, instLoad, Prog.bind_of_ok (readGpr64_value _ _)]
  rfl

lemma checked_store {b w : ℕ} (hb : b < 64) (store : δ → BitVec 64 → BitVec w → Served δ Unit)
    (hinst : callInst m opcode func =
      instStore (T := T) m opcode (BitVec.ofNat 64 (2 ^ b - 1)) (storeWith m store))
    (hfunc : func.addressCause = .kAddrs) : CheckedAccess m opcode func (2 ^ b) s := by
  refine checked_of_guard hm hexc hcheck hb (.inr rfl) hfunc
    (.bind (.op (.gpr64 (rtField opcode))) fun rtValue =>
      .op (.store store (effectiveAddress m opcode s) (rtValue.setWidth w))) ?_
  rw [hinst, instStore, Prog.bind_of_ok (readGpr64_value _ _)]
  rfl

omit hexc hcheck in
/-- With its coprocessor usable, the handler of a coprocessor load or store acts at once. -/
lemma copAccess_acts (hcop : func.isCopAccess = true) (husable : CopUsable opcode s) :
    ∃ x : CpuM T δ Unit, Acts m opcode func x ∧
      callInst m opcode func (started opcode s) = x (started opcode s) := by
  have hwhen : ∀ body : CpuM T δ Unit,
      whenCopEnabled m opcode body (started opcode s) = body (started opcode s) := by
    intro body
    have henabled :
        (copId opcode == 0 || s.cop0.sr.getLsbD ((copId opcode).toNat + 28)) = true := by
      rcases husable with h | h
      · simp [h]
      · simp [h]
    rw [whenCopEnabled, Prog.bind_of_ok (isCopEnabled_run hm _ _)]
    exact congrFun (if_pos henabled) _
  have hunless : ∀ body : CpuM T δ Unit,
      (isCopCommand m opcode func = m.config.copDecodingOverride.getLsbD (copId opcode).toNat) →
      (isCopCommand m opcode func = false → Acts m opcode func body) →
      ∃ x, Acts m opcode func x ∧
        unlessOverridden m opcode body (started opcode s) = x (started opcode s) := by
    intro body hover hbody
    rw [unlessOverridden]
    split
    · next hbit => exact ⟨_, .op (.command (hover.trans hbit)), hwhen _⟩
    · next hbit => exact ⟨body, hbody (hover.trans (by simpa using hbit)), hwhen _⟩
  cases func <;> simp only [MipsInstId.isCopAccess, Bool.false_eq_true] at hcop
  case kLwc =>
    exact hunless _ rfl fun hcommand =>
      acts_loadToCop _ fun _ => .op (.copWrite32 _ _ rfl hcommand)
  case kSwc => exact hunless _ rfl fun _ => acts_storeFromCop (.op (.copRead32 _ rfl)) _
  case kLdc =>
    exact ⟨_, acts_loadToCop _ fun _ => .op (.copWrite64 _ _ rfl rfl), hwhen _⟩
  case kSdc =>
    exact ⟨_, acts_storeFromCop (.op (.copRead64 _ rfl (.inr rfl))) _, hwhen _⟩

/-- The loads and stores of general registers check their address. -/
lemma checkedAccess_of_gpr {n : ℕ} (hsize : func.accessSize = some n)
    (hgpr : func.isCopAccess = false) : CheckedAccess m opcode func n s := by
  cases func <;> simp only [MipsInstId.accessSize, Option.some.injEq, reduceCtorEq] at hsize <;>
    simp only [MipsInstId.isCopAccess, Bool.true_eq_false] at hgpr <;> subst hsize
  case kLh => exact checked_load hm hexc hcheck (b := 1) (by decide) _ _ rfl rfl
  case kLhu => exact checked_load hm hexc hcheck (b := 1) (by decide) _ _ rfl rfl
  case kLw => exact checked_load hm hexc hcheck (b := 2) (by decide) _ _ rfl rfl
  case kLwu => exact checked_load hm hexc hcheck (b := 2) (by decide) _ _ rfl rfl
  case kLd => exact checked_load hm hexc hcheck (b := 3) (by decide) _ _ rfl rfl
  case kSh => exact checked_store hm hexc hcheck (b := 1) (by decide) _ rfl rfl
  case kSw => exact checked_store hm hexc hcheck (b := 2) (by decide) _ rfl rfl
  case kSd => exact checked_store hm hexc hcheck (b := 3) (by decide) _ rfl rfl

/-- A load or a store whose address is no multiple of its size raises the address error and does
nothing else, and at a multiple it raises none: of the coprocessor accesses only the second part
is true. -/
theorem checkedAccess_iff {n : ℕ} (hsize : func.accessSize = some n)
    (husable : func.isCopAccess = true → CopUsable opcode s) :
    CheckedAccess m opcode func n s ↔
      (func.isCopAccess = true → (effectiveAddress m opcode s).toNat % n = 0) := by
  cases hcop : func.isCopAccess with
  | false => exact ⟨fun _ h => absurd h (by simp),
      fun _ => checkedAccess_of_gpr hm hexc hcheck hsize hcop⟩
  | true =>
      obtain ⟨x, hx, hrun⟩ := copAccess_acts hm hcop (husable hcop)
      have hnone : ∀ s', execute m opcode func s = .ok ((), s') → NoAddressError s s' := by
        intro s' hs'
        rw [execute_run, hrun] at hs'
        exact noAddressError_of_acts hm hx hs'
      constructor
      · intro h _
        by_contra hmis
        obtain ⟨s', hs', hfault⟩ := h.misaligned hmis
        refine hfault.not_noAddressError ?_ (hnone s' hs')
        cases func <;> simp [MipsInstId.addressCause]
      · intro halign
        exact ⟨fun hmis => absurd (halign rfl) hmis, fun _ => hnone⟩

end Checked

theorem unalignedLoad_checked :
    unalignedLoad.trace = [] ∧ CheckedAccess exceptionSetup 0x8C020002 .kLw 4 unalignedLoad :=
  ⟨rfl, (checkedAccess_iff (n64Setup_isN64 _) rfl rfl rfl fun h => absurd h (by decide)).mpr
    fun h => absurd h (by decide)⟩

/-- `LWC1 $f2, 0(r1)` at an address that is no multiple of four. -/
def unalignedCopLoad : MipsBase MipsTlbNormal WordMemory :=
  { programState 0x80001000 0x1000 [0xC4220000] with
    gpr := fun idx => if idx = 1 then 0x80001002 else 0 }

/-- The word is loaded all the same. -/
theorem unalignedCopLoad_unchecked :
    CopUsable 0xC4220000 unalignedCopLoad ∧
      (effectiveAddress exceptionSetup 0xC4220000 unalignedCopLoad).toNat % 4 ≠ 0 ∧
      ¬ CheckedAccess exceptionSetup 0xC4220000 .kLwc 4 unalignedCopLoad := by
  refine ⟨.inr (by decide), by decide, fun h => ?_⟩
  obtain ⟨s', hrun, hfault⟩ := h.misaligned (by decide)
  have hs' : s' = lastState (execute exceptionSetup 0xC4220000 .kLwc) unalignedCopLoad := by
    rw [lastState, hrun]
  have hraised := hfault.raised
  rw [hs'] at hraised
  exact absurd hraised (by decide +kernel)

end MipsBase

end NgMips
