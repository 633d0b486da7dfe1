import NgMips.Lib.Bits
import NgMips.Source.Fpu

/-!
# The register file of the floating-point unit

The file is 32 registers of two lanes of 32 bits.  A register number names the lower lane of
its own register when `FR` is set, and one of the two lanes of an even register when it is
clear.  The accessors of the coprocessor ports and those of the arithmetic are compared on
lanes: they are the same but for `write32`, which clears the upper lane when `FR` is set.
-/

namespace NgMips

namespace MipsFpu

/-! ## Lanes -/

/-- A half of a register. -/
structure Lane where
  reg : BitVec 5
  upper : Bool
deriving DecidableEq

/-- The lane a register number names. -/
def lane (fr : Bool) (idx : BitVec 5) : Lane :=
  if fr then ⟨idx, false⟩ else ⟨phys idx, idx &&& 1 != 0⟩

/-- The value of a lane. -/
def laneValue (fpu : MipsFpu) (l : Lane) : BitVec 32 :=
  (fpu.fpr l.reg).extractLsb' (if l.upper then 32 else 0) 32

/-- A lane was set, and every other bit is kept. -/
structure SetsLane (l : Lane) (value : BitVec 32) (fpu fpu' : MipsFpu) : Prop where
  set : fpu'.laneValue l = value
  kept : ∀ l' ≠ l, fpu'.laneValue l' = fpu.laneValue l'
  control : fpu'.fcr31 = fpu.fcr31

variable {fr : Bool} {fpu : MipsFpu} {idx : BitVec 5} {value : BitVec 32}

/-- A register is made of its two lanes. -/
lemma fpr_eq_lanes (fpu : MipsFpu) (reg : BitVec 5) :
    fpu.fpr reg = fpu.laneValue ⟨reg, true⟩ ++ fpu.laneValue ⟨reg, false⟩ := by
  refine BitVec.eq_of_getLsbD_eq fun i hi => ?_
  rw [BitVec.getLsbD_append]
  by_cases hlow : i < 32
  · simp [laneValue, hlow]
  · have hsub : i - 32 < 32 := by omega
    have hadd : 32 + (i - 32) = i := by omega
    simp [laneValue, hlow, hsub, hadd]

lemma readI32_lane (fr : Bool) (fpu : MipsFpu) (idx : BitVec 5) :
    fpu.readI32 fr idx = fpu.laneValue (lane fr idx) := by
  have hlow : ∀ x : BitVec 64, x.setWidth 32 = x.extractLsb' 0 32 := by
    intro x
    refine BitVec.eq_of_getLsbD_eq fun i hi => ?_
    simp [hi]
  have hhigh : ∀ x : BitVec 64, (x >>> 32).setWidth 32 = x.extractLsb' 32 32 := by
    intro x
    refine BitVec.eq_of_getLsbD_eq fun i hi => ?_
    simp [hi]
  cases fr with
  | true => exact hlow _
  | false =>
      by_cases hodd : idx &&& 1#5 = 0#5
      · simp [readI32, lane, laneValue, hodd, hlow]
      · simp [readI32, lane, laneValue, hodd, hhigh]

/-- Replacing a register is setting a lane when the new value has the other half. -/
lemma setsLane_setFpr {reg : BitVec 5} {word : BitVec 64} (upper : Bool)
    (hset : word.extractLsb' (if upper then 32 else 0) 32 = value)
    (hkept : word.extractLsb' (if upper then 0 else 32) 32 =
      (fpu.fpr reg).extractLsb' (if upper then 0 else 32) 32) :
    SetsLane ⟨reg, upper⟩ value fpu (fpu.setFpr reg word) where
  set := by simpa [laneValue, setFpr] using hset
  kept l' hl := by
    obtain ⟨reg', upper'⟩ := l'
    by_cases hreg : reg' = reg
    · subst hreg
      have hupper : upper' = !upper := by
        cases upper <;> cases upper' <;> simp at hl ⊢
      subst hupper
      cases upper <;> simpa [laneValue, setFpr] using hkept
    · simp [laneValue, setFpr, hreg]
  control := rfl

/-! ## The words that are written -/

section Words

variable (x : BitVec 64) (value : BitVec 32)

lemma isRange_low : IsRange ((0x00000000FFFFFFFF : ℕ) : BitVec 64) 0 32 := by decide

lemma isRange_high : IsRange (0xFFFFFFFF00000000 : BitVec 64) 32 64 := by decide

/-- The word with its lower half replaced. -/
lemma replaceLow_halves :
    ((x &&& 0xFFFFFFFF00000000) ||| value.setWidth 64).extractLsb' 0 32 = value ∧
      ((x &&& 0xFFFFFFFF00000000) ||| value.setWidth 64).extractLsb' 32 32 =
        x.extractLsb' 32 32 := by
  constructor
  · refine BitVec.eq_of_getLsbD_eq fun i hi => ?_
    rw [BitVec.getLsbD_extractLsb', BitVec.getLsbD_or, BitVec.getLsbD_and,
      isRange_high (0 + i) (by omega), BitVec.getLsbD_setWidth]
    simp [hi, show i < 64 by omega]
  · refine BitVec.eq_of_getLsbD_eq fun i hi => ?_
    have hvalue : value.getLsbD (32 + i) = false := BitVec.getLsbD_of_ge value _ (by omega)
    rw [BitVec.getLsbD_extractLsb', BitVec.getLsbD_or, BitVec.getLsbD_and,
      isRange_high (32 + i) (by omega), BitVec.getLsbD_setWidth, hvalue,
      BitVec.getLsbD_extractLsb']
    simp [hi, show 32 + i < 64 by omega]

/-- The word with its upper half replaced. -/
lemma replaceHigh_halves :
    ((x &&& 0x00000000FFFFFFFF) ||| (value.setWidth 64 <<< 32)).extractLsb' 32 32 = value ∧
      ((x &&& 0x00000000FFFFFFFF) ||| (value.setWidth 64 <<< 32)).extractLsb' 0 32 =
        x.extractLsb' 0 32 := by
  constructor
  · refine BitVec.eq_of_getLsbD_eq fun i hi => ?_
    rw [BitVec.getLsbD_extractLsb', BitVec.getLsbD_or, BitVec.getLsbD_and,
      isRange_low (32 + i) (by omega), BitVec.getLsbD_shiftLeft, BitVec.getLsbD_setWidth]
    simp [hi, show ¬ 32 + i < 32 by omega, show 32 + i < 64 by omega, show i < 64 by omega]
  · refine BitVec.eq_of_getLsbD_eq fun i hi => ?_
    rw [BitVec.getLsbD_extractLsb', BitVec.getLsbD_or, BitVec.getLsbD_and,
      isRange_low (0 + i) (by omega), BitVec.getLsbD_shiftLeft, BitVec.getLsbD_extractLsb']
    simp [hi]

end Words

/-- Without `FR`, an even number names the lower lane of its register. -/
lemma lane_even (h : idx &&& 1#5 = 0#5) : lane false idx = ⟨phys idx, false⟩ := by
  simp [lane, h]

/-- Without `FR`, an odd number names the upper lane of the register before. -/
lemma lane_odd (h : idx &&& 1#5 ≠ 0#5) : lane false idx = ⟨phys idx, true⟩ := by
  simp [lane, h]

/-- A 32-bit write of the arithmetic sets its lane. -/
lemma writeI32_setsLane (fr : Bool) (fpu : MipsFpu) (idx : BitVec 5) (value : BitVec 32) :
    SetsLane (lane fr idx) value fpu (fpu.writeI32 fr idx value) := by
  cases fr with
  | true =>
      obtain ⟨hset, hkept⟩ := replaceLow_halves (fpu.fpr idx) value
      exact setsLane_setFpr false hset hkept
  | false =>
      by_cases heven : idx &&& 1#5 = 0#5
      · obtain ⟨hset, hkept⟩ := replaceLow_halves (fpu.fpr (phys idx)) value
        have hwrite : fpu.writeI32 false idx value = fpu.setFpr (phys idx)
            ((fpu.fpr (phys idx) &&& 0xFFFFFFFF00000000) ||| value.setWidth 64) := by
          simp [writeI32, heven]
        rw [lane_even heven, hwrite]
        exact setsLane_setFpr _ hset hkept
      · obtain ⟨hset, hkept⟩ := replaceHigh_halves (fpu.fpr (phys idx)) value
        have hwrite : fpu.writeI32 false idx value = fpu.setFpr (phys idx)
            ((fpu.fpr (phys idx) &&& 0x00000000FFFFFFFF) ||| (value.setWidth 64 <<< 32)) := by
          simp [writeI32, heven]
        rw [lane_odd heven, hwrite]
        exact setsLane_setFpr _ hset hkept

/-! ## The two sides -/

/-- The accessors of the coprocessor ports and those of the arithmetic see one file of lanes:
for one register number, one value of 32 and one of 64 bits. -/
structure OneFile (fr : Bool) (fpu : MipsFpu) (idx : BitVec 5) (value : BitVec 32)
    (wide : BitVec 64) : Prop where
  read32 : fpu.read32 fr idx.toNat = fpu.readI32 fr idx
  read64 : fpu.read64 fr idx.toNat = fpu.readI64 fr idx
  write32 : fpu.write32 fr idx.toNat value = fpu.writeI32 fr idx value
  write64 : fpu.write64 fr idx.toNat wide = fpu.writeI64 fr idx wide
  /-- A 32-bit read returns the lane of the number. -/
  reads : fpu.read32 fr idx.toNat = fpu.laneValue (lane fr idx)
  /-- A 32-bit write changes that lane only. -/
  sets : SetsLane (lane fr idx) value fpu (fpu.write32 fr idx.toNat value)
  setsI : SetsLane (lane fr idx) value fpu (fpu.writeI32 fr idx value)
  /-- A 64-bit read shows the two lanes of the register. -/
  composed : fpu.read64 fr idx.toNat =
    fpu.laneValue ⟨(lane fr idx).reg, true⟩ ++ fpu.laneValue ⟨(lane fr idx).reg, false⟩
  /-- The lower one is set by 32-bit writes, and without `FR` the upper one is too. -/
  named : ∀ upper, fr = false ∨ upper = false →
    ∃ idx', lane fr idx' = ⟨(lane fr idx).reg, upper⟩

section Ports

variable (fr : Bool) (fpu : MipsFpu) (idx : BitVec 5)

lemma read32_eq : fpu.read32 fr idx.toNat = fpu.readI32 fr idx := by
  simp [read32, readI32, idx.isLt]

lemma read64_eq : fpu.read64 fr idx.toNat = fpu.readI64 fr idx := by
  simp [read64, readI64, idx.isLt]

lemma write64_eq (wide : BitVec 64) :
    fpu.write64 fr idx.toNat wide = fpu.writeI64 fr idx wide := by
  simp [write64, writeI64, idx.isLt]

/-- Without `FR`, both 32-bit writes are the same. -/
lemma write32_off (value : BitVec 32) :
    fpu.write32 false idx.toNat value = fpu.writeI32 false idx value := by
  simp [write32, writeI32, idx.isLt]

/-- With `FR`, the port writes the whole register. -/
lemma write32_on (value : BitVec 32) :
    fpu.write32 true idx.toNat value = fpu.setFpr idx (value.setWidth 64) := by
  simp [write32, idx.isLt]

end Ports

/-- With `FR`, a 32-bit write through the port clears the upper lane. -/
lemma write32_upper (fpu : MipsFpu) (idx : BitVec 5) (value : BitVec 32) :
    (fpu.write32 true idx.toNat value).laneValue ⟨idx, true⟩ = 0 := by
  rw [write32_on]
  refine BitVec.eq_of_getLsbD_eq fun i hi => ?_
  simp [laneValue, setFpr]

/-- A register whose upper half is clear is the lower half. -/
lemma mask_eq_zero {x : BitVec 64} (h : x.extractLsb' 32 32 = 0) :
    x &&& 0xFFFFFFFF00000000 = 0#64 := by
  refine BitVec.eq_of_getLsbD_eq fun i hi => ?_
  rw [BitVec.getLsbD_and, isRange_high i hi]
  by_cases hlow : i < 32
  · simp [show ¬ 32 ≤ i by omega]
  · have hbit := congrArg (fun y : BitVec 32 => y.getLsbD (i - 32)) h
    have hadd : 32 + (i - 32) = i := by omega
    simp [hadd, show i - 32 < 32 by omega] at hbit
    simp [hbit]

/-- Every lane of a pair of numbers is named by one of them. -/
lemma exists_lane (fr : Bool) (idx : BitVec 5) {upper : Bool} (h : fr = false ∨ upper = false) :
    ∃ idx', lane fr idx' = ⟨(lane fr idx).reg, upper⟩ := by
  cases fr with
  | true =>
      have hupper : upper = false := h.resolve_left (by simp)
      exact ⟨idx, by simp [lane, hupper]⟩
  | false =>
      have hpair : ∀ idx : BitVec 5, ∀ upper : Bool,
          ∃ idx', lane false idx' = ⟨(lane false idx).reg, upper⟩ := by decide
      exact hpair idx upper

/-- The two sides see one file, for a register number and a value to write, exactly when `FR`
is clear or the upper half of the register is. -/
theorem oneFile_iff (fr : Bool) (fpu : MipsFpu) (idx : BitVec 5) (value : BitVec 32)
    (wide : BitVec 64) :
    OneFile fr fpu idx value wide ↔ fr = false ∨ fpu.laneValue ⟨idx, true⟩ = 0 := by
  constructor
  · intro h
    cases fr with
    | false => exact Or.inl rfl
    | true =>
        right
        have hkept := h.sets.kept ⟨idx, true⟩ (by simp [lane])
        rw [← hkept, write32_upper]
  · intro h
    have hwrite : fpu.write32 fr idx.toNat value = fpu.writeI32 fr idx value := by
      cases fr with
      | false => exact write32_off fpu idx value
      | true =>
          have hupper : fpu.fpr idx &&& 0xFFFFFFFF00000000 = 0#64 :=
            mask_eq_zero (h.resolve_left (by simp))
          rw [write32_on, writeI32, if_pos rfl, hupper, BitVec.zero_or]
    have hread : fpu.read32 fr idx.toNat = fpu.laneValue (lane fr idx) := by
      rw [read32_eq, readI32_lane]
    have hsets := writeI32_setsLane fr fpu idx value
    refine ⟨read32_eq fr fpu idx, read64_eq fr fpu idx, hwrite, write64_eq fr fpu idx wide,
      hread, hwrite ▸ hsets, hsets, ?_, fun upper => exists_lane fr idx⟩
    rw [read64_eq, readI64, ← fpr_eq_lanes]
    cases fr with
    | false => rfl
    | true => rfl

/-- `1.0` in register 4. -/
def holdsOne : MipsFpu :=
  { fpr := fun idx => if idx = 4 then 0x3FF0000000000000 else 0 }

/-- With `FR`, a 32-bit move to register 4 loses the upper half of the double there; the
arithmetic keeps it. -/
theorem holdsOne_not_oneFile :
    (holdsOne.write32 true 4 7).readI64 true 4 = 7 ∧
      (holdsOne.writeI32 true 4 7).readI64 true 4 = 0x3FF0000000000007 ∧
      ¬ OneFile true holdsOne 4 7 0 := by
  refine ⟨by decide, by decide, fun h => ?_⟩
  have hfpr := congrArg (fun fpu : MipsFpu => fpu.fpr 4) h.write32
  exact absurd hfpr (by decide)

end MipsFpu

end NgMips
