import NgMips.Source.Cop

/-!
# The instructions

One definition for each `Inst…` member.  Families of members are written once, with the
operation as a parameter: arithmetic and shifts, the trapping additions, aligned and
unaligned accesses, coprocessor moves, and conditional branches.  `getInstFuncPtr` selects
the member for an instruction word and `callInst` calls it.
-/

namespace NgMips

/-! ## Helpers on words -/

/-- `get_overflow_add_i32` and `get_overflow_add_i64`. -/
def getOverflowAdd {w : ℕ} (result lhs rhs : BitVec w) : Bool :=
  ((lhs ^^^ result) &&& (rhs ^^^ result)).msb

/-- `get_overflow_sub_i32` and `get_overflow_sub_i64`. -/
def getOverflowSub {w : ℕ} (result lhs rhs : BitVec w) : Bool :=
  ((lhs ^^^ rhs) &&& (lhs ^^^ result)).msb

section Immediates

variable (opcode : BitVec 32)

def sextItypeImmI32 : BitVec 32 := (immField opcode).signExtend 32

def sextItypeImmI64 : BitVec 64 := (immField opcode).signExtend 64

def sextItypeImmBranch : BitVec 32 := sextItypeImmI32 opcode <<< 2

/-- The target of a J-type jump executed at `pc`. -/
def jumpTarget (pc : BitVec 64) : BitVec 32 :=
  ((pc + 4) &&& 0xF0000000).setWidth 32 ||| ((addressField opcode).setWidth 32 <<< 2)

end Immediates

/-- Replace the byte at bit `shamt`. -/
def insertByte {w : ℕ} (value : BitVec w) (byte : BitVec 8) (shamt : ℕ) : BitVec w :=
  (value &&& ~~~((0xFF#8).setWidth w <<< shamt)) ||| (byte.setWidth w <<< shamt)

/-- The bytes `LWL`, `SWL`, `LDL` and `SDL` access; `k` is the size of a unit less one. -/
def leftCount (useBigEndian : Bool) (k : ℕ) (address : BitVec 64) : ℕ :=
  let addressUnalignment := (address &&& BitVec.ofNat 64 k).toNat
  (if useBigEndian then k - addressUnalignment else addressUnalignment) + 1

/-- The bytes `LWR`, `SWR`, `LDR` and `SDR` access. -/
def rightCount (useBigEndian : Bool) (k : ℕ) (address : BitVec 64) : ℕ :=
  let addressUnalignment := k - (address &&& BitVec.ofNat 64 k).toNat
  (if useBigEndian then k - addressUnalignment else addressUnalignment) + 1

namespace MipsBase

variable {T δ : Type} [MipsTlbBase T] (m : MipsSetup δ) (opcode : BitVec 32)

/-! ## Arithmetic and logic -/

section Arithmetic

/-- The result goes to `rd`, computed on low words. -/
def arithR32 (f : BitVec 32 → BitVec 32 → BitVec 32) : CpuM T δ Unit := do
  let rsValue ← readGpr32 (rsField opcode)
  let rtValue ← readGpr32 (rtField opcode)
  writeGpr32Sext (rdField opcode) (f rsValue rtValue)

/-- The result goes to `rd`, computed on whole registers. -/
def arithR64 (f : BitVec 64 → BitVec 64 → BitVec 64) : CpuM T δ Unit := do
  let rsValue ← readGpr64 m (rsField opcode)
  let rtValue ← readGpr64 m (rtField opcode)
  writeGpr64 (rdField opcode) (f rsValue rtValue)

/-- The result goes to `rt`, computed on a whole register and the immediate. -/
def arithI64 (f : BitVec 64 → BitVec 64) : CpuM T δ Unit := do
  let rsValue ← readGpr64 m (rsField opcode)
  writeGpr64 (rtField opcode) (f rsValue)

/-- Write a result, unless it overflowed. -/
def writeOrTrap (overflow : Bool) (idx : BitVec 5) (value : BitVec 64) : CpuM T δ Unit :=
  if overflow then triggerException m .kOvf else writeGpr64 idx value

def instAdd : CpuM T δ Unit := do
  let rsValue ← readGpr32 (rsField opcode)
  let rtValue ← readGpr32 (rtField opcode)
  let rdValue := rsValue + rtValue
  writeOrTrap m (m.config.hasException && getOverflowAdd rdValue rsValue rtValue)
    (rdField opcode) (rdValue.signExtend 64)

def instAddu : CpuM T δ Unit := arithR32 opcode (· + ·)

def instAddi : CpuM T δ Unit := do
  let rsValue ← readGpr32 (rsField opcode)
  let imm := sextItypeImmI32 opcode
  let rtValue := rsValue + imm
  writeOrTrap m (m.config.hasException && getOverflowAdd rtValue rsValue imm)
    (rtField opcode) (rtValue.signExtend 64)

def instAddiu : CpuM T δ Unit := do
  let rsValue ← readGpr32 (rsField opcode)
  writeGpr32Sext (rtField opcode) (rsValue + sextItypeImmI32 opcode)

def instSub : CpuM T δ Unit := do
  let rsValue ← readGpr32 (rsField opcode)
  let rtValue ← readGpr32 (rtField opcode)
  let rdValue := rsValue - rtValue
  writeOrTrap m (m.config.hasException && getOverflowSub rdValue rsValue rtValue)
    (rdField opcode) (rdValue.signExtend 64)

def instSubu : CpuM T δ Unit := arithR32 opcode (· - ·)

/-- The 64-bit additions trap whether or not the processor has exceptions. -/
def instDadd : CpuM T δ Unit := do
  let rsValue ← readGpr64 m (rsField opcode)
  let rtValue ← readGpr64 m (rtField opcode)
  let rdValue := rsValue + rtValue
  writeOrTrap m (getOverflowAdd rdValue rsValue rtValue) (rdField opcode) rdValue

def instDaddu : CpuM T δ Unit := arithR64 m opcode (· + ·)

def instDaddi : CpuM T δ Unit := do
  let rsValue ← readGpr64 m (rsField opcode)
  let imm := sextItypeImmI64 opcode
  let rtValue := rsValue + imm
  writeOrTrap m (getOverflowAdd rtValue rsValue imm) (rtField opcode) rtValue

def instDaddiu : CpuM T δ Unit := arithI64 m opcode (· + sextItypeImmI64 opcode)

def instDsub : CpuM T δ Unit := do
  let rsValue ← readGpr64 m (rsField opcode)
  let rtValue ← readGpr64 m (rtField opcode)
  let rdValue := rsValue - rtValue
  writeOrTrap m (getOverflowSub rdValue rsValue rtValue) (rdField opcode) rdValue

def instDsubu : CpuM T δ Unit := arithR64 m opcode (· - ·)

def instAnd : CpuM T δ Unit := arithR64 m opcode (· &&& ·)
def instOr : CpuM T δ Unit := arithR64 m opcode (· ||| ·)
def instXor : CpuM T δ Unit := arithR64 m opcode (· ^^^ ·)
def instNor : CpuM T δ Unit := arithR64 m opcode fun rs rt => 0xFFFFFFFFFFFFFFFF ^^^ (rs ||| rt)
def instSlt : CpuM T δ Unit := arithR64 m opcode fun rs rt => if rs.slt rt then 1 else 0
def instSltu : CpuM T δ Unit := arithR64 m opcode fun rs rt => if rs < rt then 1 else 0

def instAndi : CpuM T δ Unit := arithI64 m opcode (· &&& (immField opcode).setWidth 64)
def instOri : CpuM T δ Unit := arithI64 m opcode (· ||| (immField opcode).setWidth 64)
def instXori : CpuM T δ Unit := arithI64 m opcode (· ^^^ (immField opcode).setWidth 64)
def instSlti : CpuM T δ Unit :=
  arithI64 m opcode fun rs => if rs.slt (sextItypeImmI64 opcode) then 1 else 0
def instSltiu : CpuM T δ Unit :=
  arithI64 m opcode fun rs => if rs < sextItypeImmI64 opcode then 1 else 0

def instLui : CpuM T δ Unit :=
  writeGpr32Sext (rtField opcode) ((immField opcode).setWidth 32 <<< 16)

end Arithmetic

/-! ## Shifts -/

section Shifts

/-- Shift the low word of `rt` by `shamt`. -/
def shift32 (f : BitVec 32 → ℕ → BitVec 32) : CpuM T δ Unit := do
  let rtValue ← readGpr32 (rtField opcode)
  writeGpr32Sext (rdField opcode) (f rtValue (shamtField opcode).toNat)

/-- Shift the low word of `rt` by `rs`. -/
def shiftV32 (f : BitVec 32 → ℕ → BitVec 32) : CpuM T δ Unit :=
  arithR32 opcode fun rs rt => f rt (rs &&& 31).toNat

/-- Shift `rt` by `shamt + offset`. -/
def shift64 (offset : ℕ) (f : BitVec 64 → ℕ → BitVec 64) : CpuM T δ Unit := do
  let rtValue ← readGpr64 m (rtField opcode)
  writeGpr64 (rdField opcode) (f rtValue ((shamtField opcode).toNat + offset))

/-- Shift `rt` by `rs`. -/
def shiftV64 (f : BitVec 64 → ℕ → BitVec 64) : CpuM T δ Unit :=
  arithR64 m opcode fun rs rt => f rt (rs &&& 63).toNat

def instSll : CpuM T δ Unit := shift32 opcode BitVec.shiftLeft
def instSrl : CpuM T δ Unit := shift32 opcode BitVec.ushiftRight
def instSra : CpuM T δ Unit := shift32 opcode BitVec.sshiftRight
def instSllv : CpuM T δ Unit := shiftV32 opcode BitVec.shiftLeft
def instSrlv : CpuM T δ Unit := shiftV32 opcode BitVec.ushiftRight
def instSrav : CpuM T δ Unit := shiftV32 opcode BitVec.sshiftRight

def instDsll : CpuM T δ Unit := shift64 m opcode 0 BitVec.shiftLeft
def instDsrl : CpuM T δ Unit := shift64 m opcode 0 BitVec.ushiftRight
def instDsra : CpuM T δ Unit := shift64 m opcode 0 BitVec.sshiftRight
def instDsll32 : CpuM T δ Unit := shift64 m opcode 32 BitVec.shiftLeft
def instDsrl32 : CpuM T δ Unit := shift64 m opcode 32 BitVec.ushiftRight
def instDsra32 : CpuM T δ Unit := shift64 m opcode 32 BitVec.sshiftRight
def instDsllv : CpuM T δ Unit := shiftV64 m opcode BitVec.shiftLeft
def instDsrlv : CpuM T δ Unit := shiftV64 m opcode BitVec.ushiftRight
def instDsrav : CpuM T δ Unit := shiftV64 m opcode BitVec.sshiftRight

end Shifts

/-! ## Multiplication and division -/

section MulDiv

/-- Quotient and remainder of signed division, as `(hi, lo)`. -/
def divSigned {w : ℕ} (rs rt : BitVec w) : BitVec w × BitVec w :=
  if rt = 0 then (rs, if rs.msb then 1 else BitVec.allOnes w)
  else if rs = BitVec.intMin w ∧ rt = BitVec.allOnes w then (0, BitVec.intMin w)
  else (rs.srem rt, rs.sdiv rt)

/-- Quotient and remainder of unsigned division, as `(hi, lo)`. -/
def divUnsigned {w : ℕ} (rs rt : BitVec w) : BitVec w × BitVec w :=
  if rt = 0 then (rs, BitVec.allOnes w) else (rs % rt, rs / rt)

/-- The two halves of a product of 32-bit values. -/
def halves32 (result : BitVec 64) : BitVec 32 × BitVec 32 :=
  (result.extractLsb' 32 32, result.setWidth 32)

/-- The two halves of a product of 64-bit values. -/
def halves64 (result : BitVec 128) : BitVec 64 × BitVec 64 :=
  (result.extractLsb' 64 64, result.setWidth 64)

/-- The result, `(hi, lo)`, goes to `hi_` and `lo_`, sign-extended. -/
def mulDiv32 (f : BitVec 32 → BitVec 32 → BitVec 32 × BitVec 32) : CpuM T δ Unit := do
  let rsValue ← readGpr32 (rsField opcode)
  let rtValue ← readGpr32 (rtField opcode)
  writeLo ((f rsValue rtValue).2.signExtend 64)
  writeHi ((f rsValue rtValue).1.signExtend 64)

/-- The result, `(hi, lo)`, goes to `hi_` and `lo_`. -/
def mulDiv64 (f : BitVec 64 → BitVec 64 → BitVec 64 × BitVec 64) : CpuM T δ Unit := do
  let rsValue ← readGpr64 m (rsField opcode)
  let rtValue ← readGpr64 m (rtField opcode)
  writeLo (f rsValue rtValue).2
  writeHi (f rsValue rtValue).1

def instDiv : CpuM T δ Unit := mulDiv32 opcode divSigned
def instDivu : CpuM T δ Unit := mulDiv32 opcode divUnsigned
def instMult : CpuM T δ Unit :=
  mulDiv32 opcode fun rs rt => halves32 (rs.signExtend 64 * rt.signExtend 64)
def instMultu : CpuM T δ Unit :=
  mulDiv32 opcode fun rs rt => halves32 (rs.setWidth 64 * rt.setWidth 64)
def instDdiv : CpuM T δ Unit := mulDiv64 m opcode divSigned
def instDdivu : CpuM T δ Unit := mulDiv64 m opcode divUnsigned
def instDmult : CpuM T δ Unit :=
  mulDiv64 m opcode fun rs rt => halves64 (rs.signExtend 128 * rt.signExtend 128)
def instDmultu : CpuM T δ Unit :=
  mulDiv64 m opcode fun rs rt => halves64 (rs.setWidth 128 * rt.setWidth 128)

def instMfhi : CpuM T δ Unit := do
  let hi ← read MipsBase.hi
  writeGpr64 (rdField opcode) hi

def instMflo : CpuM T δ Unit := do
  let lo ← read MipsBase.lo
  writeGpr64 (rdField opcode) lo

def instMthi : CpuM T δ Unit := do
  let rsValue ← readGpr64 m (rsField opcode)
  writeHi rsValue

def instMtlo : CpuM T δ Unit := do
  let rsValue ← readGpr64 m (rsField opcode)
  writeLo rsValue

end MulDiv

/-! ## Loads and stores -/

section LoadStore

/-- Raise an address error. -/
def addressError (cause : ExceptionCause) (address : BitVec 64) : CpuM T δ Unit := do
  copWrite64Internal m 8 address
  triggerException m cause

/-- The check of an aligned access; `mask` holds the low address bits. -/
def isMisaligned (mask address : BitVec 64) : Bool :=
  !m.config.allowMisalignedAccess && address &&& mask != 0

/-- An aligned load; byte loads have an empty `mask`. -/
def instLoad {w : ℕ} (mask : BitVec 64) (load : BitVec 64 → CpuM T δ (Option (BitVec w)))
    (extend : BitVec w → BitVec 64) : CpuM T δ Unit := do
  let rsValue ← readGpr64 m (rsField opcode)
  let address := rsValue + sextItypeImmI64 opcode
  if isMisaligned m mask address then addressError m .kAddrl address
  else do
    let loadResult ← load address
    match loadResult with
    | some value => writeGpr64 (rtField opcode) (extend value)
    | none => pure ()

def instLb : CpuM T δ Unit := instLoad m opcode 0 (load8 m) (BitVec.signExtend 64)
def instLbu : CpuM T δ Unit := instLoad m opcode 0 (load8 m) (BitVec.setWidth 64)
def instLh : CpuM T δ Unit := instLoad m opcode 1 (load16 m) (BitVec.signExtend 64)
def instLhu : CpuM T δ Unit := instLoad m opcode 1 (load16 m) (BitVec.setWidth 64)
def instLw : CpuM T δ Unit := instLoad m opcode 3 (load32 m) (BitVec.signExtend 64)
def instLwu : CpuM T δ Unit := instLoad m opcode 3 (load32 m) (BitVec.setWidth 64)
def instLd : CpuM T δ Unit := instLoad m opcode 7 (load64 m) id

/-- An aligned store; byte stores have an empty `mask`. -/
def instStore {w : ℕ} (mask : BitVec 64) (store : BitVec 64 → BitVec w → CpuM T δ Unit) :
    CpuM T δ Unit := do
  let rsValue ← readGpr64 m (rsField opcode)
  let address := rsValue + sextItypeImmI64 opcode
  if isMisaligned m mask address then addressError m .kAddrs address
  else do
    let rtValue ← readGpr64 m (rtField opcode)
    store address (rtValue.setWidth w)

def instSb : CpuM T δ Unit := instStore m opcode 0 (store8 m)
def instSh : CpuM T δ Unit := instStore m opcode 1 (store16 m)
def instSw : CpuM T δ Unit := instStore m opcode 3 (store32 m)
def instSd : CpuM T δ Unit := instStore m opcode 7 (store64 m)

/-- Merge `count` bytes, loaded one by one, into a value. -/
def loadBytes {w : ℕ} (address : ℕ → BitVec 64) (shamt : ℕ → ℕ) (count : ℕ)
    (value : BitVec w) : CpuM T δ (BitVec w) :=
  (List.range count).foldlM (fun value i => do
    let loadResult ← load8 m (address i)
    match loadResult with
    | some byte => pure (insertByte value byte (shamt i))
    -- A byte that cannot be loaded keeps its place in the register.
    | none => pure value) value

/-- Store `count` bytes of a value, one by one. -/
def storeBytes {w : ℕ} (address : ℕ → BitVec 64) (shamt : ℕ → ℕ) (count : ℕ)
    (value : BitVec w) : CpuM T δ Unit :=
  ForM.forM (List.range count) fun i =>
    store8 m (address i) ((value >>> shamt i).setWidth 8)

def instLwl : CpuM T δ Unit := do
  let rsValue ← readGpr64 m (rsField opcode)
  let address := rsValue + sextItypeImmI64 opcode
  let rtValue ← readGpr32 (rtField opcode)
  let value ← loadBytes m (fun i => address + BitVec.ofNat 64 i) (fun i => (3 - i) * 8)
    (leftCount m.config.useBigEndian 3 address) rtValue
  writeGpr32Sext (rtField opcode) value

def instLwr : CpuM T δ Unit := do
  let rsValue ← readGpr64 m (rsField opcode)
  let address := rsValue + sextItypeImmI64 opcode
  let rtValue ← readGpr32 (rtField opcode)
  let value ← loadBytes m (fun i => address - BitVec.ofNat 64 i) (fun i => i * 8)
    (rightCount m.config.useBigEndian 3 address) rtValue
  writeGpr32Sext (rtField opcode) value

def instLdl : CpuM T δ Unit := do
  let rsValue ← readGpr64 m (rsField opcode)
  let address := rsValue + sextItypeImmI64 opcode
  let rtValue ← readGpr64 m (rtField opcode)
  let value ← loadBytes m (fun i => address + BitVec.ofNat 64 i) (fun i => (7 - i) * 8)
    (leftCount m.config.useBigEndian 7 address) rtValue
  writeGpr64 (rtField opcode) value

def instLdr : CpuM T δ Unit := do
  let rsValue ← readGpr64 m (rsField opcode)
  let address := rsValue + sextItypeImmI64 opcode
  let rtValue ← readGpr64 m (rtField opcode)
  let value ← loadBytes m (fun i => address - BitVec.ofNat 64 i) (fun i => i * 8)
    (rightCount m.config.useBigEndian 7 address) rtValue
  writeGpr64 (rtField opcode) value

def instSwl : CpuM T δ Unit := do
  let rsValue ← readGpr64 m (rsField opcode)
  let address := rsValue + sextItypeImmI64 opcode
  let rtValue ← readGpr32 (rtField opcode)
  storeBytes m (fun i => address + BitVec.ofNat 64 i) (fun i => (3 - i) * 8)
    (leftCount m.config.useBigEndian 3 address) rtValue

def instSwr : CpuM T δ Unit := do
  let rsValue ← readGpr64 m (rsField opcode)
  let address := rsValue + sextItypeImmI64 opcode
  let rtValue ← readGpr32 (rtField opcode)
  storeBytes m (fun i => address - BitVec.ofNat 64 i) (fun i => i * 8)
    (rightCount m.config.useBigEndian 3 address) rtValue

def instSdl : CpuM T δ Unit := do
  let rsValue ← readGpr64 m (rsField opcode)
  let address := rsValue + sextItypeImmI64 opcode
  let rtValue ← readGpr64 m (rtField opcode)
  storeBytes m (fun i => address + BitVec.ofNat 64 i) (fun i => (7 - i) * 8)
    (leftCount m.config.useBigEndian 7 address) rtValue

def instSdr : CpuM T δ Unit := do
  let rsValue ← readGpr64 m (rsField opcode)
  let address := rsValue + sextItypeImmI64 opcode
  let rtValue ← readGpr64 m (rtField opcode)
  storeBytes m (fun i => address - BitVec.ofNat 64 i) (fun i => i * 8)
    (rightCount m.config.useBigEndian 7 address) rtValue

end LoadStore

/-! ## Coprocessor instructions -/

section Coprocessor

/-- Raise a coprocessor-unusable exception. -/
def copUnusable (copId : BitVec 2) : CpuM T δ Unit := do
  modify fun s => { s with copCause := copId.setWidth 32 }
  triggerException m .kCop

/-- Run the rest of an instruction when its coprocessor is usable. -/
def whenCopEnabled (body : CpuM T δ Unit) : CpuM T δ Unit := do
  let enabled ← isCopEnabled m (copId opcode)
  if enabled then body else copUnusable m (copId opcode)

def instCop : CpuM T δ Unit := whenCopEnabled m opcode (copCommand m (copId opcode) opcode)

/-- The instructions that `cop_decoding_override_` turns into coprocessor commands. -/
def unlessOverridden (body : CpuM T δ Unit) : CpuM T δ Unit :=
  if m.config.copDecodingOverride.getLsbD (copId opcode).toNat then instCop m opcode
  else whenCopEnabled m opcode body

/-- Move from register `idx` of the coprocessor to `rt`. -/
def moveFromCop (idx : ℕ) : CpuM T δ Unit :=
  unlessOverridden m opcode do
    let copValue ← copRead32 m (copId opcode) idx
    writeGpr32Sext (rtField opcode) copValue

/-- Move from `rt` to register `idx` of the coprocessor. -/
def moveToCop (idx : ℕ) : CpuM T δ Unit :=
  unlessOverridden m opcode do
    let rtValue ← readGpr32 (rtField opcode)
    copWrite32 m (copId opcode) idx rtValue

def instMfc : CpuM T δ Unit := moveFromCop m opcode (rdField opcode).toNat
def instCfc : CpuM T δ Unit := moveFromCop m opcode ((rdField opcode).toNat + 32)
def instMtc : CpuM T δ Unit := moveToCop m opcode (rdField opcode).toNat
def instCtc : CpuM T δ Unit := moveToCop m opcode ((rdField opcode).toNat + 32)

def instDmfc : CpuM T δ Unit :=
  whenCopEnabled m opcode do
    let copValue ← copRead64 m (copId opcode) (rdField opcode).toNat
    writeGpr64 (rtField opcode) copValue

def instDmtc : CpuM T δ Unit :=
  whenCopEnabled m opcode do
    let rtValue ← readGpr64 m (rtField opcode)
    copWrite64 m (copId opcode) (rdField opcode).toNat rtValue

/-- Load a coprocessor register; the address is not checked for alignment. -/
def loadToCop {w : ℕ} (load : BitVec 64 → CpuM T δ (Option (BitVec w)))
    (write : BitVec w → CpuM T δ Unit) : CpuM T δ Unit := do
  let rsValue ← readGpr64 m (rsField opcode)
  let loadResult ← load (rsValue + sextItypeImmI64 opcode)
  match loadResult with
  | some value => write value
  | none => pure ()

/-- Store a coprocessor register; the address is not checked for alignment. -/
def storeFromCop {w : ℕ} (readCop : CpuM T δ (BitVec w))
    (store : BitVec 64 → BitVec w → CpuM T δ Unit) : CpuM T δ Unit := do
  let rsValue ← readGpr64 m (rsField opcode)
  let coptValue ← readCop
  store (rsValue + sextItypeImmI64 opcode) coptValue

def instLwc : CpuM T δ Unit :=
  unlessOverridden m opcode
    (loadToCop m opcode (load32 m) (copWrite32 m (copId opcode) (rtField opcode).toNat))

def instSwc : CpuM T δ Unit :=
  unlessOverridden m opcode
    (storeFromCop m opcode (copRead32 m (copId opcode) (rtField opcode).toNat) (store32 m))

def instLdc : CpuM T δ Unit :=
  whenCopEnabled m opcode
    (loadToCop m opcode (load64 m) (copWrite64 m (copId opcode) (rtField opcode).toNat))

def instSdc : CpuM T δ Unit :=
  whenCopEnabled m opcode
    (storeFromCop m opcode (copRead64 m (copId opcode) (rtField opcode).toNat) (store64 m))

end Coprocessor

/-! ## Branches and jumps -/

section Branches

/-- Branch, or skip the delay slot of a likely branch that is not taken. -/
def branchIf (likely taken : Bool) : CpuM T δ Unit :=
  if taken then jumpRel (sextItypeImmBranch opcode)
  else if likely then nullifyDelaySlot
  else pure ()

/-- A branch that compares two registers. -/
def branchR (likely : Bool) (cond : BitVec 64 → BitVec 64 → Bool) : CpuM T δ Unit := do
  let rsValue ← readGpr64 m (rsField opcode)
  let rtValue ← readGpr64 m (rtField opcode)
  branchIf opcode likely (cond rsValue rtValue)

/-- A branch that compares a register with zero, possibly linking. -/
def branchZ (link likely : Bool) (cond : BitVec 64 → Bool) : CpuM T δ Unit := do
  let rsValue ← readGpr64 m (rsField opcode)
  if link then linkForJump 31 else pure ()
  branchIf opcode likely (cond rsValue)

/-- A branch on the flag of a coprocessor. -/
def branchCop (likely onFlag : Bool) : CpuM T δ Unit :=
  whenCopEnabled m opcode do
    let flag ← copGetFlag m (copId opcode)
    branchIf opcode likely (flag == onFlag)

/-- Count the cycles of an idle loop: the instruction after the jump is fetched to see
whether it does nothing. -/
def detectIdleLoop : CpuM T δ Unit := do
  let pc ← read MipsBase.pc
  let delayOp ← fetch m (pc + 4)
  if delayOp = 0 then
    modify fun s => { s with
      cycleSpent := s.cycleSpent + 100
      cycleSpentTotal := s.cycleSpentTotal + 100 }
  else pure ()

def instBeq : CpuM T δ Unit := do
  -- The word of `beq $0, $0, -1`; the check comes before the branch is pending.
  if opcode = 0x1000FFFF then detectIdleLoop m else pure ()
  branchR m opcode false (· == ·)

def instBne : CpuM T δ Unit := branchR m opcode false (· != ·)
def instBeql : CpuM T δ Unit := branchR m opcode true (· == ·)
def instBnel : CpuM T δ Unit := branchR m opcode true (· != ·)

def instBgtz : CpuM T δ Unit := branchZ m opcode false false fun rs => (0#64).slt rs
def instBlez : CpuM T δ Unit := branchZ m opcode false false fun rs => rs.sle 0
def instBgez : CpuM T δ Unit := branchZ m opcode false false fun rs => (0#64).sle rs
def instBltz : CpuM T δ Unit := branchZ m opcode false false fun rs => rs.slt 0
def instBgezal : CpuM T δ Unit := branchZ m opcode true false fun rs => (0#64).sle rs
def instBltzal : CpuM T δ Unit := branchZ m opcode true false fun rs => rs.slt 0
def instBgtzl : CpuM T δ Unit := branchZ m opcode false true fun rs => (0#64).slt rs
def instBlezl : CpuM T δ Unit := branchZ m opcode false true fun rs => rs.sle 0
def instBgezl : CpuM T δ Unit := branchZ m opcode false true fun rs => (0#64).sle rs
def instBltzl : CpuM T δ Unit := branchZ m opcode false true fun rs => rs.slt 0
def instBgezall : CpuM T δ Unit := branchZ m opcode true true fun rs => (0#64).sle rs
def instBltzall : CpuM T δ Unit := branchZ m opcode true true fun rs => rs.slt 0

def instBcf : CpuM T δ Unit := branchCop m opcode false false
def instBcfl : CpuM T δ Unit := branchCop m opcode true false
def instBct : CpuM T δ Unit := branchCop m opcode false true
def instBctl : CpuM T δ Unit := branchCop m opcode true true

/-- The jump is pending already when the idle loop is looked for. -/
def instJ : CpuM T δ Unit := do
  let pc ← read MipsBase.pc
  jump32 (jumpTarget opcode pc)
  if (jumpTarget opcode pc).setWidth 64 = pc then detectIdleLoop m else pure ()

def instJal : CpuM T δ Unit := do
  let pc ← read MipsBase.pc
  linkForJump 31
  jump32 (jumpTarget opcode pc)

def instJr : CpuM T δ Unit := do
  let rsValue ← readGpr64 m (rsField opcode)
  if rsValue &&& 3 ≠ 0 then throw (.panic .unalignedJump)
  -- The mask has nothing left to clear.
  else jump64 (rsValue &&& ~~~3#64)

def instJalr : CpuM T δ Unit := do
  let rsValue ← readGpr64 m (rsField opcode)
  if rsValue &&& 3 ≠ 0 then throw (.panic .unalignedJump)
  else do
    linkForJump (rdField opcode)
    jump64 (rsValue &&& ~~~3#64)

end Branches

/-! ## System instructions -/

section System

def instSyscall : CpuM T δ Unit := triggerException m .kSyscall

/-- The second processor tells its coprocessor 0 that it stops. -/
def instBreak : CpuM T δ Unit := do
  triggerException m .kBkpt
  if m.kHasCop0 then pure () else copCommand m 0 0

def instNop : CpuM T δ Unit := pure ()

def instSync : CpuM T δ Unit := pure ()

def instUnknown : CpuM T δ Unit := throw (.panic .unknownInstruction)

/-- The address a `CACHE` instruction names. -/
def cacheAddress (baseValue : BitVec 64) : BitVec 64 := baseValue + sextItypeImmI64 opcode

/-- The first address of a cache line. -/
def lineStart (address : BitVec 64) : BitVec 64 := address &&& ~~~0x1F#64

/-- Only an operation on the instruction cache does something: it invalidates a line. -/
def instCache : CpuM T δ Unit := do
  let baseValue ← readGpr64 m (rsField opcode)
  -- The lowest bit of the operation selects the data cache.
  if opcode.getLsbD 16 then pure ()
  else if m.config.useCachedInterpreter then
    modify fun s => { s with
      cache := s.cache.invalidateBlockRange m.ord s.tlb
        (lineStart (cacheAddress opcode baseValue))
        (lineStart (cacheAddress opcode baseValue) + 32) }
  else pure ()

end System

end MipsBase

/-! ## Dispatch -/

/-- The instructions only the 64-bit processor has. -/
def MipsInstId.is64Only : MipsInstId → Bool
  | .kBcf | .kBcfl | .kBct | .kBctl | .kBeql | .kBnel | .kBgezl | .kBgezall | .kBgtzl
  | .kBlezl | .kBltzl | .kBltzall | .kCache | .kDadd | .kDaddu | .kDaddi | .kDaddiu | .kDsub
  | .kDsubu | .kDmult | .kDmultu | .kDdiv | .kDdivu | .kDsll | .kDsll32 | .kDsllv | .kDsra
  | .kDsra32 | .kDsrav | .kDsrl | .kDsrl32 | .kDsrlv | .kDmfc | .kDmtc | .kLd | .kLdc | .kLdl
  | .kLdr | .kLwu | .kSd | .kSdc | .kSdl | .kSdr | .kSync => true
  | _ => false

/-- The instructions that are decoded but have no handler. -/
def MipsInstId.isUnhandled : MipsInstId → Bool
  | .kLl | .kLld | .kSc | .kScd => true
  | _ => false

/-- `GetInstFuncPtr`: the handler, named by the instruction it implements. -/
def getInstFuncPtr (kIs64Bit : Bool) (opcode : BitVec 32) : MipsInstId :=
  if (decode opcode).isUnhandled then .kUnknown
  else if !kIs64Bit && (decode opcode).is64Only then .kUnknown
  else decode opcode

namespace MipsBase

variable {T δ : Type} [MipsTlbBase T] (m : MipsSetup δ) (opcode : BitVec 32)

/-- Call a handler on an instruction word. -/
def callInst (func : MipsInstId) : CpuM T δ Unit :=
  match func with
  | .kAdd => instAdd m opcode
  | .kAddu => instAddu opcode
  | .kAddi => instAddi m opcode
  | .kAddiu => instAddiu opcode
  | .kAnd => instAnd m opcode
  | .kAndi => instAndi m opcode
  | .kDiv => instDiv opcode
  | .kDivu => instDivu opcode
  | .kMult => instMult opcode
  | .kMultu => instMultu opcode
  | .kNor => instNor m opcode
  | .kOr => instOr m opcode
  | .kOri => instOri m opcode
  | .kSll => instSll opcode
  | .kSllv => instSllv opcode
  | .kSra => instSra opcode
  | .kSrav => instSrav opcode
  | .kSrl => instSrl opcode
  | .kSrlv => instSrlv opcode
  | .kSub => instSub m opcode
  | .kSubu => instSubu opcode
  | .kXor => instXor m opcode
  | .kXori => instXori m opcode
  | .kLui => instLui opcode
  | .kSlt => instSlt m opcode
  | .kSltu => instSltu m opcode
  | .kSlti => instSlti m opcode
  | .kSltiu => instSltiu m opcode
  | .kBeq => instBeq m opcode
  | .kBne => instBne m opcode
  | .kBgtz => instBgtz m opcode
  | .kBlez => instBlez m opcode
  | .kBgez => instBgez m opcode
  | .kBgezal => instBgezal m opcode
  | .kBltz => instBltz m opcode
  | .kBltzal => instBltzal m opcode
  | .kJ => instJ m opcode
  | .kJal => instJal opcode
  | .kJr => instJr m opcode
  | .kJalr => instJalr m opcode
  | .kSyscall => instSyscall m
  | .kBreak => instBreak m
  | .kLb => instLb m opcode
  | .kLbu => instLbu m opcode
  | .kLh => instLh m opcode
  | .kLhu => instLhu m opcode
  | .kLw => instLw m opcode
  | .kLwl => instLwl m opcode
  | .kLwr => instLwr m opcode
  | .kLwc => instLwc m opcode
  | .kSb => instSb m opcode
  | .kSh => instSh m opcode
  | .kSw => instSw m opcode
  | .kSwl => instSwl m opcode
  | .kSwr => instSwr m opcode
  | .kSwc => instSwc m opcode
  | .kMfhi => instMfhi opcode
  | .kMflo => instMflo opcode
  | .kMthi => instMthi m opcode
  | .kMtlo => instMtlo m opcode
  | .kCop => instCop m opcode
  | .kMfc => instMfc m opcode
  | .kCfc => instCfc m opcode
  | .kMtc => instMtc m opcode
  | .kCtc => instCtc m opcode
  | .kNop => instNop
  | .kBcf => instBcf m opcode
  | .kBcfl => instBcfl m opcode
  | .kBct => instBct m opcode
  | .kBctl => instBctl m opcode
  | .kBeql => instBeql m opcode
  | .kBnel => instBnel m opcode
  | .kBgezl => instBgezl m opcode
  | .kBgezall => instBgezall m opcode
  | .kBgtzl => instBgtzl m opcode
  | .kBlezl => instBlezl m opcode
  | .kBltzl => instBltzl m opcode
  | .kBltzall => instBltzall m opcode
  | .kCache => instCache m opcode
  | .kDadd => instDadd m opcode
  | .kDaddu => instDaddu m opcode
  | .kDaddi => instDaddi m opcode
  | .kDaddiu => instDaddiu m opcode
  | .kDsub => instDsub m opcode
  | .kDsubu => instDsubu m opcode
  | .kDmult => instDmult m opcode
  | .kDmultu => instDmultu m opcode
  | .kDdiv => instDdiv m opcode
  | .kDdivu => instDdivu m opcode
  | .kDsll => instDsll m opcode
  | .kDsll32 => instDsll32 m opcode
  | .kDsllv => instDsllv m opcode
  | .kDsra => instDsra m opcode
  | .kDsra32 => instDsra32 m opcode
  | .kDsrav => instDsrav m opcode
  | .kDsrl => instDsrl m opcode
  | .kDsrl32 => instDsrl32 m opcode
  | .kDsrlv => instDsrlv m opcode
  | .kDmfc => instDmfc m opcode
  | .kDmtc => instDmtc m opcode
  | .kLd => instLd m opcode
  | .kLdc => instLdc m opcode
  | .kLdl => instLdl m opcode
  | .kLdr => instLdr m opcode
  | .kLwu => instLwu m opcode
  | .kSd => instSd m opcode
  | .kSdc => instSdc m opcode
  | .kSdl => instSdl m opcode
  | .kSdr => instSdr m opcode
  | .kSync => instSync
  | .kLl | .kLld | .kSc | .kScd | .kUnknown => instUnknown

end MipsBase

end NgMips
