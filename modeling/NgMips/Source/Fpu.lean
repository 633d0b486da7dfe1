import NgMips.Source.Interface

/-!
# The floating-point unit

The register file of `MipsFpu` with its two views (`FR` set or clear), and its commands.
The arithmetic of the host on `float` and `double` is a parameter, `HostFloat`, on bit
patterns: the unit moves bit patterns between registers and those functions.
-/

namespace NgMips

/-- The host's arithmetic on one floating-point format, on bit patterns. -/
structure FloatOps (w : ℕ) where
  add : BitVec w → BitVec w → BitVec w
  sub : BitVec w → BitVec w → BitVec w
  mul : BitVec w → BitVec w → BitVec w
  div : BitVec w → BitVec w → BitVec w
  sqrt : BitVec w → BitVec w
  abs : BitVec w → BitVec w
  neg : BitVec w → BitVec w
  round : BitVec w → BitVec w
  trunc : BitVec w → BitVec w
  ceil : BitVec w → BitVec w
  floor : BitVec w → BitVec w
  nearbyint : BitVec w → BitVec w
  lt : BitVec w → BitVec w → Bool
  eq : BitVec w → BitVec w → Bool
  isNan : BitVec w → Bool
  toI32 : BitVec w → BitVec 32
  toI64 : BitVec w → BitVec 64
  ofI32 : BitVec 32 → BitVec w
  ofI64 : BitVec 64 → BitVec w
  /-- The bounds of the conversions: `2 ^ 31`, `-2 ^ 31`, `2 ^ 63` and `-2 ^ 63`. -/
  twoPow31 : BitVec w
  negTwoPow31 : BitVec w
  twoPow63 : BitVec w
  negTwoPow63 : BitVec w

structure HostFloat where
  f32 : FloatOps 32
  f64 : FloatOps 64
  widen : BitVec 32 → BitVec 64
  narrow : BitVec 64 → BitVec 32

namespace FloatOps

variable {w : ℕ} (ops : FloatOps w)

def ge (a b : BitVec w) : Bool := ops.lt b a || ops.eq a b

def clampToI32 (value : BitVec w) : BitVec 32 :=
  if ops.isNan value || ops.ge value ops.twoPow31 then 0x7FFFFFFF
  else if ops.lt value ops.negTwoPow31 then 0x80000000
  else ops.toI32 value

def clampToI64 (value : BitVec w) : BitVec 64 :=
  if ops.isNan value || ops.ge value ops.twoPow63 then 0x7FFFFFFFFFFFFFFF
  else if ops.lt value ops.negTwoPow63 then 0x8000000000000000
  else ops.toI64 value

/-- Rounding in the mode of the control register. -/
def rounded (rm : BitVec 2) (value : BitVec w) : BitVec w :=
  match rm with
  | 0#2 => ops.nearbyint value
  | 1#2 => ops.trunc value
  | 2#2 => ops.ceil value
  | _ => ops.floor value

def compare (opcode : BitVec 32) (fs ft : BitVec w) : Except Stop Bool :=
  let allowUnordered := opcode.getLsbD 3
  let gt := ops.lt ft fs
  let lt := ops.lt fs ft
  let eq := ops.eq fs ft
  let un := ops.isNan fs || ops.isNan ft
  if un && !allowUnordered then .error (.panic .fpuException)
  else .ok <| match opcode.extractLsb' 0 3 with
    | 0#3 => false
    | 1#3 => !gt && !lt && !eq
    | 2#3 => eq
    | 3#3 => !gt && !lt
    | 4#3 => lt
    | 5#3 => !gt && !eq
    | 6#3 => lt || eq
    | _ => !gt

end FloatOps

/-- The floating-point registers.  They start as zero here; in the source they hold anything
until `Reset` clears them. -/
structure MipsFpu where
  fpr : BitVec 5 → BitVec 64 := fun _ => 0
  fcr31 : BitVec 32 := 0

namespace MipsFpu

/-- The bit of the control register that holds the outcome of a comparison. -/
def flagBit : BitVec 32 := 0x00800000

/-! ## The coprocessor ports -/

section Ports

variable (fr : Bool) (fpu : MipsFpu)

def setFpr (idx : BitVec 5) (value : BitVec 64) : MipsFpu :=
  { fpu with fpr := Function.update fpu.fpr idx value }

/-- The even register of a pair. -/
def phys (idx : BitVec 5) : BitVec 5 := idx &&& ~~~1

def read32 (idx : ℕ) : BitVec 32 :=
  if idx < 32 then
    let idx := BitVec.ofNat 5 idx
    if fr then (fpu.fpr idx).setWidth 32
    else if idx &&& 1 ≠ 0 then (fpu.fpr (phys idx) >>> 32).setWidth 32
    else (fpu.fpr (phys idx)).setWidth 32
  else if idx = 32 + 0 then 0xB00
  else if idx = 32 + 31 then fpu.fcr31
  else 0

def write32 (idx : ℕ) (value : BitVec 32) : MipsFpu :=
  if idx < 32 then
    let idx := BitVec.ofNat 5 idx
    -- With 32 registers the upper half is cleared; `writeI32` keeps it.
    if fr then fpu.setFpr idx (value.setWidth 64)
    else if idx &&& 1 ≠ 0 then
      fpu.setFpr (phys idx)
        ((fpu.fpr (phys idx) &&& 0x00000000FFFFFFFF) ||| (value.setWidth 64 <<< 32))
    else
      fpu.setFpr (phys idx)
        ((fpu.fpr (phys idx) &&& 0xFFFFFFFF00000000) ||| value.setWidth 64)
  else if idx = 32 + 31 then { fpu with fcr31 := value }
  else fpu

def read64 (idx : ℕ) : BitVec 64 :=
  if idx < 32 then
    let idx := BitVec.ofNat 5 idx
    fpu.fpr (if fr then idx else phys idx)
  else (read32 fr fpu idx).setWidth 64

def write64 (idx : ℕ) (value : BitVec 64) : MipsFpu :=
  if idx < 32 then
    let idx := BitVec.ofNat 5 idx
    fpu.setFpr (if fr then idx else phys idx) value
  else write32 fr fpu idx (value.setWidth 32)

def getFlag : Bool := fpu.fcr31 &&& flagBit != 0

end Ports

/-! ## The accessors of the arithmetic -/

section Accessors

variable (fr : Bool) (fpu : MipsFpu) (idx : BitVec 5)

def readI32 : BitVec 32 :=
  if fr then (fpu.fpr idx).setWidth 32
  else if idx &&& 1 ≠ 0 then (fpu.fpr (phys idx) >>> 32).setWidth 32
  else (fpu.fpr (phys idx)).setWidth 32

def writeI32 (value : BitVec 32) : MipsFpu :=
  if fr then
    fpu.setFpr idx ((fpu.fpr idx &&& 0xFFFFFFFF00000000) ||| value.setWidth 64)
  else if idx &&& 1 ≠ 0 then
    fpu.setFpr (phys idx)
      ((fpu.fpr (phys idx) &&& 0x00000000FFFFFFFF) ||| (value.setWidth 64 <<< 32))
  else
    fpu.setFpr (phys idx)
      ((fpu.fpr (phys idx) &&& 0xFFFFFFFF00000000) ||| value.setWidth 64)

def readI64 : BitVec 64 := fpu.fpr (if fr then idx else phys idx)

def writeI64 (value : BitVec 64) : MipsFpu :=
  fpu.setFpr (if fr then idx else phys idx) value

end Accessors

/-! ## Commands -/

section Commands

variable (host : HostFloat) (fr : Bool) (opcode : BitVec 32) (fpu : MipsFpu)

def fdField : BitVec 5 := opcode.extractLsb' 6 5
def fsField : BitVec 5 := opcode.extractLsb' 11 5
def ftField : BitVec 5 := opcode.extractLsb' 16 5
def fmtField : BitVec 5 := opcode.extractLsb' 21 5

/-- `InstAdd` to `InstDiv`: an operation with two operands, in either format. -/
def binary (single : BitVec 32 → BitVec 32 → BitVec 32)
    (double : BitVec 64 → BitVec 64 → BitVec 64) : MipsFpu :=
  match fmtField opcode with
  | 16#5 => fpu.writeI32 fr (fdField opcode)
      (single (fpu.readI32 fr (fsField opcode)) (fpu.readI32 fr (ftField opcode)))
  | 17#5 => fpu.writeI64 fr (fdField opcode)
      (double (fpu.readI64 fr (fsField opcode)) (fpu.readI64 fr (ftField opcode)))
  | _ => fpu

/-- `InstSqrt`, `InstAbs`, `InstMov` and `InstNeg`: an operation with one operand. -/
def unary (single : BitVec 32 → BitVec 32) (double : BitVec 64 → BitVec 64) : MipsFpu :=
  match fmtField opcode with
  | 16#5 => fpu.writeI32 fr (fdField opcode) (single (fpu.readI32 fr (fsField opcode)))
  | 17#5 => fpu.writeI64 fr (fdField opcode) (double (fpu.readI64 fr (fsField opcode)))
  | _ => fpu

/-- The conversions to a 64-bit integer. -/
def toLong (single : BitVec 32 → BitVec 32) (double : BitVec 64 → BitVec 64) : MipsFpu :=
  match fmtField opcode with
  | 16#5 => fpu.writeI64 fr (fdField opcode)
      (host.f32.clampToI64 (single (fpu.readI32 fr (fsField opcode))))
  | 17#5 => fpu.writeI64 fr (fdField opcode)
      (host.f64.clampToI64 (double (fpu.readI64 fr (fsField opcode))))
  | _ => fpu

/-- The conversions to a 32-bit integer. -/
def toWord (single : BitVec 32 → BitVec 32) (double : BitVec 64 → BitVec 64) : MipsFpu :=
  match fmtField opcode with
  | 16#5 => fpu.writeI32 fr (fdField opcode)
      (host.f32.clampToI32 (single (fpu.readI32 fr (fsField opcode))))
  | 17#5 => fpu.writeI32 fr (fdField opcode)
      (host.f64.clampToI32 (double (fpu.readI64 fr (fsField opcode))))
  | _ => fpu

def instCvtS : MipsFpu :=
  match fmtField opcode with
  | 17#5 => fpu.writeI32 fr (fdField opcode) (host.narrow (fpu.readI64 fr (fsField opcode)))
  | 20#5 => fpu.writeI32 fr (fdField opcode) (host.f32.ofI32 (fpu.readI32 fr (fsField opcode)))
  | 21#5 => fpu.writeI32 fr (fdField opcode) (host.f32.ofI64 (fpu.readI64 fr (fsField opcode)))
  | _ => fpu

def instCvtD : MipsFpu :=
  match fmtField opcode with
  | 16#5 => fpu.writeI64 fr (fdField opcode) (host.widen (fpu.readI32 fr (fsField opcode)))
  | 20#5 => fpu.writeI64 fr (fdField opcode) (host.f64.ofI32 (fpu.readI32 fr (fsField opcode)))
  | 21#5 => fpu.writeI64 fr (fdField opcode) (host.f64.ofI64 (fpu.readI64 fr (fsField opcode)))
  | _ => fpu

/-- The rounding mode of the control register. -/
def roundingMode : BitVec 2 := fpu.fcr31.extractLsb' 0 2

/-- The comparison in the format of the instruction. -/
def compareFormats : Except Stop Bool :=
  match fmtField opcode with
  | 16#5 => host.f32.compare opcode (fpu.readI32 fr (fsField opcode))
      (fpu.readI32 fr (ftField opcode))
  | 17#5 => host.f64.compare opcode (fpu.readI64 fr (fsField opcode))
      (fpu.readI64 fr (ftField opcode))
  | _ => .ok false

def instC : Except Stop MipsFpu := do
  let flag ← fpu.compareFormats host fr opcode
  .ok { fpu with
    fcr31 := (fpu.fcr31 &&& ~~~flagBit) ||| (if flag then flagBit else 0) }

def instAdd : MipsFpu := fpu.binary fr opcode host.f32.add host.f64.add
def instSub : MipsFpu := fpu.binary fr opcode host.f32.sub host.f64.sub
def instMul : MipsFpu := fpu.binary fr opcode host.f32.mul host.f64.mul
def instDiv : MipsFpu := fpu.binary fr opcode host.f32.div host.f64.div
def instSqrt : MipsFpu := fpu.unary fr opcode host.f32.sqrt host.f64.sqrt
def instAbs : MipsFpu := fpu.unary fr opcode host.f32.abs host.f64.abs
def instMov : MipsFpu := fpu.unary fr opcode id id
def instNeg : MipsFpu := fpu.unary fr opcode host.f32.neg host.f64.neg
def instRoundL : MipsFpu := fpu.toLong host fr opcode host.f32.round host.f64.round
def instTruncL : MipsFpu := fpu.toLong host fr opcode host.f32.trunc host.f64.trunc
def instCeilL : MipsFpu := fpu.toLong host fr opcode host.f32.ceil host.f64.ceil
def instFloorL : MipsFpu := fpu.toLong host fr opcode host.f32.floor host.f64.floor
def instRoundW : MipsFpu := fpu.toWord host fr opcode host.f32.round host.f64.round
def instTruncW : MipsFpu := fpu.toWord host fr opcode host.f32.trunc host.f64.trunc
def instCeilW : MipsFpu := fpu.toWord host fr opcode host.f32.ceil host.f64.ceil
def instFloorW : MipsFpu := fpu.toWord host fr opcode host.f32.floor host.f64.floor

def instCvtW : MipsFpu :=
  fpu.toWord host fr opcode (host.f32.rounded fpu.roundingMode)
    (host.f64.rounded fpu.roundingMode)

def instCvtL : MipsFpu :=
  fpu.toLong host fr opcode (host.f32.rounded fpu.roundingMode)
    (host.f64.rounded fpu.roundingMode)

def command : Except Stop MipsFpu :=
  match opcode.extractLsb' 0 6 with
  | 0x00#6 => .ok (fpu.instAdd host fr opcode)
  | 0x01#6 => .ok (fpu.instSub host fr opcode)
  | 0x02#6 => .ok (fpu.instMul host fr opcode)
  | 0x03#6 => .ok (fpu.instDiv host fr opcode)
  | 0x04#6 => .ok (fpu.instSqrt host fr opcode)
  | 0x05#6 => .ok (fpu.instAbs host fr opcode)
  | 0x06#6 => .ok (fpu.instMov fr opcode)
  | 0x07#6 => .ok (fpu.instNeg host fr opcode)
  | 0x08#6 => .ok (fpu.instRoundL host fr opcode)
  | 0x09#6 => .ok (fpu.instTruncL host fr opcode)
  | 0x0A#6 => .ok (fpu.instCeilL host fr opcode)
  | 0x0B#6 => .ok (fpu.instFloorL host fr opcode)
  | 0x0C#6 => .ok (fpu.instRoundW host fr opcode)
  | 0x0D#6 => .ok (fpu.instTruncW host fr opcode)
  | 0x0E#6 => .ok (fpu.instCeilW host fr opcode)
  | 0x0F#6 => .ok (fpu.instFloorW host fr opcode)
  | 0x20#6 => .ok (fpu.instCvtS host fr opcode)
  | 0x21#6 => .ok (fpu.instCvtD host fr opcode)
  | 0x24#6 => .ok (fpu.instCvtW host fr opcode)
  | 0x25#6 => .ok (fpu.instCvtL host fr opcode)
  | funct => if 0x30#6 ≤ funct then fpu.instC host fr opcode else .ok fpu

end Commands

end MipsFpu

end NgMips
