import Mathlib.Algebra.Order.Ring.Abs
import NgMips.Proofs.Alignment

/-!
# Trapping arithmetic, multiplication and division

The overflow tests are bit tricks; `getOverflowAdd_eq` and `getOverflowSub_eq` say which integers
they test.  The trapping instructions differ from the others in that test only
(`trapForm`), and `trapsExactly_iff` says when that is all the difference there is: the 64-bit
ones forget to ask whether the processor has exceptions.  Products and quotients are stated with
integers too; no handler divides in a way the host does not define.
-/

namespace NgMips

/-! ## Overflow -/

section Overflow

variable {w : ℕ} (x y : BitVec w)

/-- The integer is one a signed word holds. -/
def Fits (w : ℕ) (r : ℤ) : Prop := -2 ^ (w - 1) ≤ r ∧ r < 2 ^ (w - 1)

instance (r : ℤ) : Decidable (Fits w r) := inferInstanceAs (Decidable (_ ∧ _))

lemma getOverflowAdd_eq : getOverflowAdd (x + y) x y = !decide (Fits w (x.toInt + y.toInt)) := by
  have hbits : getOverflowAdd (x + y) x y = x.saddOverflow y := by
    rw [getOverflowAdd, BitVec.msb_and, BitVec.msb_xor, BitVec.msb_xor, BitVec.saddOverflow_eq]
    cases x.msb <;> cases y.msb <;> cases (x + y).msb <;> rfl
  have hiff : x.saddOverflow y = true ↔ ¬ Fits w (x.toInt + y.toInt) := by
    rw [BitVec.saddOverflow, Fits, Bool.or_eq_true, decide_eq_true_eq, decide_eq_true_eq]
    omega
  rw [hbits, Bool.eq_iff_iff, hiff, Bool.not_eq_true', decide_eq_false_iff_not]

lemma getOverflowSub_eq : getOverflowSub (x - y) x y = !decide (Fits w (x.toInt - y.toInt)) := by
  have hbits : getOverflowSub (x - y) x y = x.ssubOverflow y := by
    rw [getOverflowSub, BitVec.msb_and, BitVec.msb_xor, BitVec.msb_xor, BitVec.ssubOverflow_eq]
    cases x.msb <;> cases y.msb <;> cases (x - y).msb <;> rfl
  have hiff : x.ssubOverflow y = true ↔ ¬ Fits w (x.toInt - y.toInt) := by
    rw [BitVec.ssubOverflow, Fits, Bool.or_eq_true, decide_eq_true_eq, decide_eq_true_eq]
    omega
  rw [hbits, Bool.eq_iff_iff, hiff, Bool.not_eq_true', decide_eq_false_iff_not]

/-- Sums and differences of words are those of the integers. -/
lemma add_eq_ofInt : x + y = BitVec.ofInt w (x.toInt + y.toInt) := by
  rw [BitVec.ofInt_add, BitVec.ofInt_toInt, BitVec.ofInt_toInt]

lemma sub_eq_ofInt : x - y = BitVec.ofInt w (x.toInt - y.toInt) := by
  rw [Int.sub_eq_add_neg, BitVec.ofInt_add, BitVec.ofInt_neg, BitVec.ofInt_toInt,
    BitVec.ofInt_toInt, BitVec.sub_eq_add_neg]

end Overflow

namespace MipsInstId

def isTrapping : MipsInstId → Bool
  | kAdd | kAddi | kSub | kDadd | kDaddi | kDsub => true
  | _ => false

/-- The trapping instructions on whole registers. -/
def isWide : MipsInstId → Bool
  | kDadd | kDaddi | kDsub => true
  | _ => false

/-- The instruction that computes the same without trapping. -/
def wrapping : MipsInstId → MipsInstId
  | kAdd => kAddu
  | kAddi => kAddiu
  | kSub => kSubu
  | kDadd => kDaddu
  | kDaddi => kDaddiu
  | kDsub => kDsubu
  | func => func

/-- The register the result goes to. -/
def destField (func : MipsInstId) (opcode : BitVec 32) : BitVec 5 :=
  match func with
  | kAddi | kDaddi => rtField opcode
  | _ => rdField opcode

end MipsInstId

namespace MipsBase

variable {T δ : Type}

/-- The result of a trapping instruction as an integer. -/
def exactResult (func : MipsInstId) (opcode : BitVec 32) (s : MipsBase T δ) : ℤ :=
  let low idx := ((s.gpr idx).setWidth 32).toInt
  let whole idx := (s.gpr idx).toInt
  match func with
  | .kAdd => low (rsField opcode) + low (rtField opcode)
  | .kAddi => low (rsField opcode) + (immField opcode).toInt
  | .kSub => low (rsField opcode) - low (rtField opcode)
  | .kDadd => whole (rsField opcode) + whole (rtField opcode)
  | .kDaddi => whole (rsField opcode) + (immField opcode).toInt
  | .kDsub => whole (rsField opcode) - whole (rtField opcode)
  | _ => 0

/-- The integer result is one the instruction can write. -/
def ResultFits (func : MipsInstId) (opcode : BitVec 32) (s : MipsBase T δ) : Prop :=
  Fits (if func.isWide then 64 else 32) (exactResult func opcode s)

instance (func : MipsInstId) (opcode : BitVec 32) (s : MipsBase T δ) :
    Decidable (ResultFits func opcode s) := inferInstanceAs (Decidable (Fits _ _))

/-- An overflow exception, which leaves the registers alone. -/
structure OverflowTrap (opcode : BitVec 32) (s s' : MipsBase T δ) : Prop where
  raised : s'.trace = .exception .kOvf :: .preExecute s.pc opcode :: s.trace
  vector : s'.pc = vecAddressGeneral ∧ s'.nextPc = vecAddressGeneral
  code : s'.cop0.cause &&& 0x7C#32 = ExceptionCause.kOvf.code <<< 2
  gpr : s'.gpr = s.gpr

variable [MipsTlbBase T] {m : MipsSetup δ} {opcode : BitVec 32} {func : MipsInstId}
  {s : MipsBase T δ}

/-- The instruction raises the overflow exception, or it does what the one without a trap
does. -/
structure TrapsExactly (m : MipsSetup δ) (opcode : BitVec 32) (func : MipsInstId)
    (s : MipsBase T δ) : Prop where
  trap : m.config.hasException = true → ¬ ResultFits func opcode s →
    ∃ s', execute m opcode func s = .ok ((), s') ∧ OverflowTrap opcode s s'
  wrap : m.config.hasException = false ∨ ResultFits func opcode s →
    execute m opcode func s = execute m opcode func.wrapping s

/-- The two instructions of a kind write the same value, one of them unless it traps. -/
lemma trapForm (opcode : BitVec 32) (hm : m.IsN64) (htrap : func.isTrapping = true)
    (t : MipsBase T δ) :
    ∃ value, callInst m opcode func t =
        writeOrTrap m ((m.config.hasException || func.isWide) &&
          !decide (ResultFits func opcode t)) (func.destField opcode) value t ∧
      callInst m opcode func.wrapping t = writeGpr64 (func.destField opcode) value t ∧
      (func.isWide = true → value = BitVec.ofInt 64 (exactResult func opcode t)) := by
  have himm32 : (sextItypeImmI32 opcode).toInt = (immField opcode).toInt :=
    BitVec.toInt_signExtend_of_le (by decide)
  have himm64 : (sextItypeImmI64 opcode).toInt = (immField opcode).toInt :=
    BitVec.toInt_signExtend_of_le (by decide)
  cases func <;> simp only [MipsInstId.isTrapping, Bool.false_eq_true] at htrap
  case kAdd =>
    refine ⟨_, ?_, rfl, fun h => absurd h (by decide)⟩
    change instAdd m opcode t = _
    rw [instAdd, Prog.bind_of_ok (readGpr32_run _ _), Prog.bind_of_ok (readGpr32_run _ _),
      getOverflowAdd_eq]
    simp [ResultFits, exactResult, MipsInstId.isWide, MipsInstId.destField]
  case kAddi =>
    refine ⟨_, ?_, rfl, fun h => absurd h (by decide)⟩
    change instAddi m opcode t = _
    rw [instAddi, Prog.bind_of_ok (readGpr32_run _ _), getOverflowAdd_eq, himm32]
    simp [ResultFits, exactResult, MipsInstId.isWide, MipsInstId.destField]
  case kSub =>
    refine ⟨_, ?_, rfl, fun h => absurd h (by decide)⟩
    change instSub m opcode t = _
    rw [instSub, Prog.bind_of_ok (readGpr32_run _ _), Prog.bind_of_ok (readGpr32_run _ _),
      getOverflowSub_eq]
    simp [ResultFits, exactResult, MipsInstId.isWide, MipsInstId.destField]
  case kDadd =>
    refine ⟨t.gpr (rsField opcode) + t.gpr (rtField opcode), ?_, ?_, fun _ => add_eq_ofInt _ _⟩
    · change instDadd m opcode t = _
      rw [instDadd, Prog.bind_of_ok (readGpr64_run hm _ _), Prog.bind_of_ok (readGpr64_run hm _ _),
        getOverflowAdd_eq]
      simp [ResultFits, exactResult, MipsInstId.isWide, MipsInstId.destField]
    · change instDaddu m opcode t = _
      rw [instDaddu, arithR64, Prog.bind_of_ok (readGpr64_run hm _ _),
        Prog.bind_of_ok (readGpr64_run hm _ _)]
      rfl
  case kDaddi =>
    refine ⟨t.gpr (rsField opcode) + sextItypeImmI64 opcode, ?_, ?_, fun _ => ?_⟩
    · change instDaddi m opcode t = _
      rw [instDaddi, Prog.bind_of_ok (readGpr64_run hm _ _), getOverflowAdd_eq, himm64]
      simp [ResultFits, exactResult, MipsInstId.isWide, MipsInstId.destField]
    · change instDaddiu m opcode t = _
      rw [instDaddiu, arithI64, Prog.bind_of_ok (readGpr64_run hm _ _)]
      rfl
    · rw [add_eq_ofInt, himm64]
      rfl
  case kDsub =>
    refine ⟨t.gpr (rsField opcode) - t.gpr (rtField opcode), ?_, ?_, fun _ => sub_eq_ofInt _ _⟩
    · change instDsub m opcode t = _
      rw [instDsub, Prog.bind_of_ok (readGpr64_run hm _ _), Prog.bind_of_ok (readGpr64_run hm _ _),
        getOverflowSub_eq]
      simp [ResultFits, exactResult, MipsInstId.isWide, MipsInstId.destField]
    · change instDsubu m opcode t = _
      rw [instDsubu, arithR64, Prog.bind_of_ok (readGpr64_run hm _ _),
        Prog.bind_of_ok (readGpr64_run hm _ _)]
      rfl

/-- The exception that is raised when the result does not fit. -/
lemma overflowTrap_run (hm : m.IsN64) (hexc : m.config.hasException = true) :
    ∃ s', triggerException m .kOvf (started opcode s) = .ok ((), s') ∧
      OverflowTrap opcode s s' := by
  rw [triggerException_run hm hexc .kOvf rfl, if_neg (by decide)]
  exact ⟨_, rfl, rfl, ⟨rfl, rfl⟩, causeReg_code .kOvf (by decide) _ _ _ _ _, rfl⟩

omit [MipsTlbBase T] in
/-- A write that is dropped shows unless the register was to keep its value. -/
lemma writeGpr64_keeps_iff (idx : BitVec 5) (value : BitVec 64) (t : MipsBase T δ) :
    writeGpr64 idx value t = .ok ((), t) ↔ idx = 0 ∨ t.gpr idx = value := by
  by_cases hidx : idx = 0
  · rw [writeGpr64, if_pos hidx]
    exact iff_of_true rfl (.inl hidx)
  · rw [writeGpr64, if_neg hidx, or_iff_right hidx]
    constructor
    · intro h
      have hgpr := congrFun (congrArg MipsBase.gpr (Prog.state_eq h)) idx
      exact hgpr.symm.trans (Function.update_self (β := fun _ : BitVec 5 => BitVec 64) _ _ _)
    · intro h
      have hgpr : Function.update t.gpr idx value = t.gpr := Function.update_eq_self_iff.mpr h.symm
      rw [Prog.modify_run, hgpr]

/-- Every trapping instruction traps exactly when it must, except that without exceptions the
64-bit ones drop a result that does not fit, which shows unless the register was to keep its
value anyway. -/
theorem trapsExactly_iff (hm : m.IsN64) (htrap : func.isTrapping = true) :
    TrapsExactly m opcode func s ↔
      (m.config.hasException = true ∨ func.isWide = false ∨ ResultFits func opcode s ∨
        func.destField opcode = 0 ∨
        s.gpr (func.destField opcode) = BitVec.ofInt 64 (exactResult func opcode s)) := by
  obtain ⟨value, hcall, hwrap, hvalue⟩ := trapForm opcode hm htrap (started opcode s)
  have hfits : decide (ResultFits func opcode (started opcode s)) =
      decide (ResultFits func opcode s) := rfl
  rw [hfits] at hcall
  rw [← execute_run] at hcall hwrap
  cases hexc : m.config.hasException with
  | true =>
      refine iff_of_true ⟨fun _ hover => ?_, fun hnone => ?_⟩ (.inl rfl)
      · rw [hcall, hexc, decide_eq_false hover, writeOrTrap, if_pos (by simp)]
        exact overflowTrap_run hm hexc
      · have hfit : ResultFits func opcode s := hnone.resolve_left (by simp [hexc])
        rw [hcall, hwrap, decide_eq_true hfit, writeOrTrap, if_neg (by simp)]
  | false =>
      have hsame : TrapsExactly m opcode func s ↔
          execute m opcode func s = execute m opcode func.wrapping s := by
        refine ⟨fun h => h.wrap (.inl hexc), fun h => ⟨fun hon => ?_, fun _ => h⟩⟩
        exact absurd (hexc.symm.trans hon) (by simp)
      rw [hsame, hcall, hwrap, hexc, Bool.false_or]
      by_cases hdrop : func.isWide = true ∧ ¬ ResultFits func opcode s
      · -- The exception that is not there leaves the register alone, the other instruction does
        -- not.
        obtain ⟨hwide, hover⟩ := hdrop
        rw [hwide, decide_eq_false hover, writeOrTrap, if_pos (by simp), triggerException_off hexc,
          eq_comm, writeGpr64_keeps_iff, hvalue hwide]
        simp only [hover, Bool.false_eq_true, Bool.true_eq_false, false_or]
        rfl
      · have hkeep : (func.isWide && !decide (ResultFits func opcode s)) = false := by
          simpa using hdrop
        rw [hkeep, writeOrTrap, if_neg (by simp)]
        refine iff_of_true rfl (.inr ?_)
        by_cases hwide : func.isWide = true
        · exact .inr (.inl (not_not.mp fun hover => hdrop ⟨hwide, hover⟩))
        · exact .inl (by simpa using hwide)

/-- `ADD $3, $1, $2` of two large numbers. -/
def overflowingAdd : MipsBase MipsTlbNormal WordMemory :=
  { programState 0x80001000 0x1000 [0x00221820] with gpr := fun _ => 0x7FFFFFFF }

theorem overflowingAdd_traps :
    ¬ ResultFits .kAdd 0x00221820 overflowingAdd ∧
      TrapsExactly exceptionSetup 0x00221820 .kAdd overflowingAdd :=
  ⟨by decide, (trapsExactly_iff (n64Setup_isN64 _) rfl).mpr (.inl rfl)⟩

/-- `DADD $3, $1, $2` of two large numbers. -/
def overflowingDadd : MipsBase MipsTlbNormal WordMemory :=
  { programState 0x80001000 0x1000 [0x0022182C] with
    gpr := fun idx => if idx = 3 then 0 else 0x7FFFFFFFFFFFFFFF }

/-- Without exceptions the sum is lost. -/
theorem overflowingDadd_dropped :
    (n64Setup {}).config.hasException = false ∧
      ¬ TrapsExactly (n64Setup {}) 0x0022182C .kDadd overflowingDadd := by
  refine ⟨rfl, fun h => ?_⟩
  have hsame := congrArg (fun r => r.map fun p => p.2.gpr 3) (h.wrap (.inl rfl))
  exact absurd hsame (by decide +kernel)

/-! ## Quotients and products -/

section Exact

variable {w : ℕ} {rs rt : BitVec w}

/-- A word as an integer. -/
def intOf (signed : Bool) (x : BitVec w) : ℤ := if signed then x.toInt else x.toNat

/-- The division of the host, as remainder and quotient: it is not defined for a divisor of
zero, nor for a quotient that is too large. -/
def hostDivide (signed : Bool) (x y : BitVec w) : Option (BitVec w × BitVec w) :=
  if y = 0 then none
  else if signed then
    if x = BitVec.intMin w ∧ y = BitVec.allOnes w then none else some (x.srem y, x.sdiv y)
  else some (x % y, x / y)

/-- The division handlers with the division of the host in them. -/
def guardedDivide (signed : Bool) (rs rt : BitVec w) : Option (BitVec w × BitVec w) :=
  if rt = 0 then some (rs, if signed && rs.msb then 1 else BitVec.allOnes w)
  else if signed = true ∧ rs = BitVec.intMin w ∧ rt = BitVec.allOnes w then
    some (0, BitVec.intMin w)
  else hostDivide signed rs rt

/-- `hi` and `lo` are the remainder and the quotient of `rs` by `rt`. -/
structure ExactQuotient (signed : Bool) (rs rt hi lo : BitVec w) : Prop where
  sum : rs = lo * rt + hi
  small : |intOf signed hi| < |intOf signed rt|
  sign : intOf signed hi = 0 ∨ (intOf signed hi).sign = (intOf signed rs).sign
  quotient : lo = BitVec.ofInt w ((intOf signed rs).tdiv (intOf signed rt))
  exact : ¬ (signed = true ∧ rs = BitVec.intMin w ∧ rt = BitVec.allOnes w) →
    intOf signed lo = (intOf signed rs).tdiv (intOf signed rt)

lemma guardedDivide_signed (rs rt : BitVec w) :
    guardedDivide true rs rt = some (divSigned rs rt) := by
  rw [guardedDivide, divSigned, hostDivide]
  split_ifs <;> simp_all

lemma guardedDivide_unsigned (rs rt : BitVec w) :
    guardedDivide false rs rt = some (divUnsigned rs rt) := by
  rw [guardedDivide, divUnsigned, hostDivide]
  split_ifs <;> simp_all

/-- The case the handler singles out is no exception to the rule, but for the wrapping. -/
lemma divSigned_of_ne (h : rt ≠ 0) : divSigned rs rt = (rs.srem rt, rs.sdiv rt) := by
  rw [divSigned, if_neg h]
  split
  · next hmin =>
    obtain ⟨rfl, rfl⟩ := hmin
    have hrem : ((BitVec.intMin w).srem (BitVec.allOnes w)).toInt = (0 : BitVec w).toInt := by
      rw [BitVec.toInt_srem, BitVec.toInt_allOnes]
      split
      · simp
      · next hw =>
        obtain rfl : w = 0 := by omega
        exact absurd rfl h
    rw [BitVec.eq_of_toInt_eq hrem, ← BitVec.neg_one_eq_allOnes, BitVec.intMin_sdiv_neg_one]
  · rfl

lemma exactQuotient_signed (h : rt ≠ 0) :
    ExactQuotient true rs rt (divSigned rs rt).1 (divSigned rs rt).2 := by
  have hne : rt.toInt ≠ 0 :=
    fun hzero => h (BitVec.eq_of_toInt_eq (hzero.trans BitVec.toInt_zero.symm))
  have hquot : rs.sdiv rt = BitVec.ofInt w (rs.toInt.tdiv rt.toInt) :=
    BitVec.eq_of_toInt_eq ((BitVec.toInt_sdiv rs rt).trans (BitVec.toInt_ofInt _).symm)
  have hrem : rs.srem rt = BitVec.ofInt w (rs.toInt.tmod rt.toInt) := by
    rw [← BitVec.toInt_srem, BitVec.ofInt_toInt]
  rw [divSigned_of_ne h]
  refine ⟨?_, ?_, ?_, hquot, fun hmin => ?_⟩
  · calc rs = BitVec.ofInt w (rs.toInt.tdiv rt.toInt * rt.toInt + rs.toInt.tmod rt.toInt) := by
          rw [Int.mul_comm, Int.mul_tdiv_add_tmod, BitVec.ofInt_toInt]
      _ = rs.sdiv rt * rt + rs.srem rt := by
          rw [BitVec.ofInt_add, BitVec.ofInt_mul, ← hquot, ← hrem, BitVec.ofInt_toInt]
  · change |(rs.srem rt).toInt| < |rt.toInt|
    rw [BitVec.toInt_srem, Int.abs_eq_natAbs, Int.abs_eq_natAbs, Int.natAbs_tmod]
    exact_mod_cast Nat.mod_lt _ (Int.natAbs_pos.mpr hne)
  · change (rs.srem rt).toInt = 0 ∨ (rs.srem rt).toInt.sign = rs.toInt.sign
    rw [BitVec.toInt_srem, Int.sign_tmod]
    split
    · next hdvd => exact .inl (Int.tmod_eq_zero_of_dvd hdvd)
    · exact .inr rfl
  · refine BitVec.toInt_sdiv_of_ne_or_ne rs rt ?_
    rw [BitVec.neg_one_eq_allOnes]
    by_cases hrs : rs = BitVec.intMin w
    · exact .inr fun hrt => hmin ⟨rfl, hrs, hrt⟩
    · exact .inl hrs

lemma exactQuotient_unsigned (h : rt ≠ 0) :
    ExactQuotient false rs rt (divUnsigned rs rt).1 (divUnsigned rs rt).2 := by
  have hpos : 0 < rt.toNat := Nat.pos_of_ne_zero fun hzero => h (BitVec.eq_of_toNat_eq hzero)
  have hdiv : (rs.toNat : ℤ).tdiv rt.toNat = ((rs / rt).toNat : ℤ) := by
    rw [BitVec.toNat_udiv]
    rfl
  rw [divUnsigned, if_neg h]
  refine ⟨?_, ?_, ?_, ?_, fun _ => hdiv.symm⟩
  · refine BitVec.eq_of_toNat_eq ?_
    rw [BitVec.toNat_add, BitVec.toNat_mul, BitVec.toNat_udiv, BitVec.toNat_umod, Nat.mod_add_mod,
      Nat.div_add_mod', Nat.mod_eq_of_lt rs.isLt]
  · change |((rs % rt).toNat : ℤ)| < |(rt.toNat : ℤ)|
    rw [BitVec.toNat_umod, Nat.abs_cast, Nat.abs_cast]
    exact_mod_cast Nat.mod_lt _ hpos
  · change ((rs % rt).toNat : ℤ) = 0 ∨ ((rs % rt).toNat : ℤ).sign = (rs.toNat : ℤ).sign
    rw [BitVec.toNat_umod]
    rcases Nat.eq_zero_or_pos (rs.toNat % rt.toNat) with hzero | hmod
    · exact .inl (by exact_mod_cast hzero)
    · have hrs : 0 < rs.toNat := lt_of_lt_of_le hmod (Nat.mod_le _ _)
      rw [Int.sign_eq_one_of_pos (by exact_mod_cast hmod),
        Int.sign_eq_one_of_pos (by exact_mod_cast hrs)]
      exact .inr rfl
  · change rs / rt = BitVec.ofInt w ((rs.toNat : ℤ).tdiv rt.toNat)
    rw [hdiv, BitVec.ofInt_natCast, BitVec.ofNat_toNat, BitVec.setWidth_eq]

/-- A product of two words fits twice their width. -/
lemma toInt_product (rs rt : BitVec w) :
    (rs.signExtend (w + w) * rt.signExtend (w + w)).toInt = rs.toInt * rt.toInt := by
  have hle : ∀ x : BitVec w, |2 * x.toInt| ≤ (2 ^ w : ℤ) := by
    intro x
    have hlow := BitVec.le_two_mul_toInt (x := x)
    have hhigh := BitVec.two_mul_toInt_lt (x := x)
    exact abs_le.mpr ⟨hlow, hhigh.le⟩
  have hbound : |2 * rs.toInt * (2 * rt.toInt)| ≤ (2 ^ (w + w) : ℤ) := by
    rw [abs_mul, pow_add]
    exact mul_le_mul (hle rs) (hle rt) (abs_nonneg _) (by positivity)
  have hpos : (0 : ℤ) < 2 ^ (w + w) := by positivity
  have hfour : 2 * rs.toInt * (2 * rt.toInt) = 4 * (rs.toInt * rt.toInt) := by
    rw [Int.mul_assoc, Int.mul_left_comm rs.toInt, ← Int.mul_assoc]
    rfl
  rw [hfour] at hbound
  obtain ⟨hlow, hhigh⟩ := abs_le.mp hbound
  rw [BitVec.toInt_mul, BitVec.toInt_signExtend_of_le (Nat.le_add_left w w),
    BitVec.toInt_signExtend_of_le (Nat.le_add_left w w)]
  refine Int.bmod_eq_of_le_mul_two ?_ ?_
  · push_cast
    omega
  · push_cast
    omega

lemma toNat_product (rs rt : BitVec w) :
    ((rs.setWidth (w + w) * rt.setWidth (w + w)).toNat : ℤ) = rs.toNat * rt.toNat := by
  have hlt : rs.toNat * rt.toNat < 2 ^ (w + w) := by
    rw [pow_add]
    exact Nat.mul_lt_mul'' rs.isLt rt.isLt
  rw [BitVec.toNat_mul, BitVec.toNat_setWidth_of_le (Nat.le_add_left w w),
    BitVec.toNat_setWidth_of_le (Nat.le_add_left w w), Nat.mod_eq_of_lt hlt, Nat.cast_mul]

end Exact

/-! ## The handlers -/

/-- What a multiplication or a division computes. -/
structure MulDivForm where
  divides : Bool
  signed : Bool
  width : ℕ

def mulDivForm : MipsInstId → Option MulDivForm
  | .kMult => some ⟨false, true, 32⟩
  | .kMultu => some ⟨false, false, 32⟩
  | .kDiv => some ⟨true, true, 32⟩
  | .kDivu => some ⟨true, false, 32⟩
  | .kDmult => some ⟨false, true, 64⟩
  | .kDmultu => some ⟨false, false, 64⟩
  | .kDdiv => some ⟨true, true, 64⟩
  | .kDdivu => some ⟨true, false, 64⟩
  | _ => none

/-- The result of a multiplication or a division in `hi` and `lo`. -/
structure MulDivResult (divides signed : Bool) {w : ℕ} (rs rt hi lo : BitVec w) : Prop where
  product : divides = false → intOf signed (hi ++ lo) = intOf signed rs * intOf signed rt
  quotient : divides = true → rt ≠ 0 → ExactQuotient signed rs rt hi lo
  zero : divides = true → rt = 0 →
    hi = rs ∧ lo = if signed && rs.msb then 1 else BitVec.allOnes w
  host : divides = true → guardedDivide signed rs rt = some (hi, lo)

section Results

variable {w : ℕ} (rs rt : BitVec w)

lemma result_divSigned : MulDivResult true true rs rt (divSigned rs rt).1 (divSigned rs rt).2 := by
  refine ⟨fun h => absurd h (by decide), fun _ => exactQuotient_signed, fun _ hzero => ?_,
    fun _ => guardedDivide_signed rs rt⟩
  rw [divSigned, if_pos hzero]
  exact ⟨rfl, rfl⟩

lemma result_divUnsigned :
    MulDivResult true false rs rt (divUnsigned rs rt).1 (divUnsigned rs rt).2 := by
  refine ⟨fun h => absurd h (by decide), fun _ => exactQuotient_unsigned, fun _ hzero => ?_,
    fun _ => guardedDivide_unsigned rs rt⟩
  rw [divUnsigned, if_pos hzero]
  exact ⟨rfl, rfl⟩

/-- The halves of an exact product. -/
lemma result_product {signed : Bool} {result : BitVec (w + w)}
    (h : intOf signed result = intOf signed rs * intOf signed rt) :
    MulDivResult false signed rs rt (result.extractLsb' w w) (result.setWidth w) := by
  refine ⟨fun _ => ?_, fun h => absurd h (by decide), fun h => absurd h (by decide),
    fun h => absurd h (by decide)⟩
  rw [← h, BitVec.setWidth_eq_extractLsb' (Nat.le_add_left w w),
    BitVec.extractLsb'_append_extractLsb']

end Results

variable {T δ : Type}

/-- A multiplication or a division sets `hi` and `lo` and nothing else. -/
structure MulDivExact (form : MulDivForm) (opcode : BitVec 32) (s s' : MipsBase T δ) : Prop where
  result : MulDivResult form.divides form.signed
    ((s.gpr (rsField opcode)).setWidth form.width) ((s.gpr (rtField opcode)).setWidth form.width)
    (s'.hi.setWidth form.width) (s'.lo.setWidth form.width)
  extended : s'.hi = (s'.hi.setWidth form.width).signExtend 64 ∧
    s'.lo = (s'.lo.setWidth form.width).signExtend 64
  others : s' = { started opcode s with hi := s'.hi, lo := s'.lo }

variable [MipsTlbBase T] {m : MipsSetup δ} {opcode : BitVec 32} {func : MipsInstId}
  {s : MipsBase T δ}

omit [MipsTlbBase T] in
/-- A handler on low words. -/
lemma mulDiv32_exact {divides signed : Bool} {f : BitVec 32 → BitVec 32 → BitVec 32 × BitVec 32}
    (hf : ∀ rs rt, MulDivResult divides signed rs rt (f rs rt).1 (f rs rt).2) :
    ∃ s', mulDiv32 opcode f (started opcode s) = .ok ((), s') ∧
      MulDivExact ⟨divides, signed, 32⟩ opcode s s' := by
  have hlow : ∀ x : BitVec 32, (x.signExtend 64).setWidth 32 = x := setWidth_signExtend (by decide)
  rw [mulDiv32, Prog.bind_of_ok (readGpr32_run _ _), Prog.bind_of_ok (readGpr32_run _ _)]
  refine ⟨_, rfl, ?_, ⟨?_, ?_⟩, rfl⟩
  · simp only [hlow]
    exact hf _ _
  · rw [hlow]
  · rw [hlow]

omit [MipsTlbBase T] in
/-- A handler on whole registers. -/
lemma mulDiv64_exact (hm : m.IsN64) {divides signed : Bool}
    {f : BitVec 64 → BitVec 64 → BitVec 64 × BitVec 64}
    (hf : ∀ rs rt, MulDivResult divides signed rs rt (f rs rt).1 (f rs rt).2) :
    ∃ s', mulDiv64 m opcode f (started opcode s) = .ok ((), s') ∧
      MulDivExact ⟨divides, signed, 64⟩ opcode s s' := by
  rw [mulDiv64, Prog.bind_of_ok (readGpr64_run hm _ _), Prog.bind_of_ok (readGpr64_run hm _ _)]
  refine ⟨_, rfl, ?_, ⟨?_, ?_⟩, rfl⟩
  · simp only [BitVec.setWidth_eq]
    exact hf _ _
  · rw [BitVec.setWidth_eq, BitVec.signExtend_eq]
  · rw [BitVec.setWidth_eq, BitVec.signExtend_eq]

/-- Multiplications and divisions are exact, and no handler divides where the host cannot.  Those
of low words are the same in every processor. -/
theorem mulDiv_exact {form : MulDivForm} (hform : mulDivForm func = some form)
    (hm : form.width = 64 → m.IsN64) :
    ∃ s', execute m opcode func s = .ok ((), s') ∧ MulDivExact form opcode s s' := by
  rw [execute_run]
  cases func <;> simp only [mulDivForm, Option.some.injEq, reduceCtorEq] at hform <;> subst hform
  case kMult =>
    exact mulDiv32_exact fun rs rt => result_product rs rt (toInt_product rs rt)
  case kMultu =>
    exact mulDiv32_exact fun rs rt => result_product rs rt (toNat_product rs rt)
  case kDmult =>
    exact mulDiv64_exact (hm rfl) fun rs rt => result_product rs rt (toInt_product rs rt)
  case kDmultu =>
    exact mulDiv64_exact (hm rfl) fun rs rt => result_product rs rt (toNat_product rs rt)
  case kDiv => exact mulDiv32_exact result_divSigned
  case kDivu => exact mulDiv32_exact result_divUnsigned
  case kDdiv => exact mulDiv64_exact (hm rfl) result_divSigned
  case kDdivu => exact mulDiv64_exact (hm rfl) result_divUnsigned

/-- `DDIV $1, $2` of the least number by minus one. -/
def wrappingDdiv : MipsBase MipsTlbNormal WordMemory :=
  { programState 0x80001000 0x1000 [0x0022001E] with
    gpr := fun idx => if idx = 1 then 0x8000000000000000 else 0xFFFFFFFFFFFFFFFF }

theorem wrappingDdiv_exact :
    ∃ s', execute exceptionSetup 0x0022001E .kDdiv wrappingDdiv = .ok ((), s') ∧
      MulDivExact ⟨true, true, 64⟩ 0x0022001E wrappingDdiv s' :=
  mulDiv_exact rfl fun _ => n64Setup_isN64 _

end MipsBase

end NgMips
