import NgMips.Source.Interface

/-!
# The registers of coprocessor 0

The registers of `MipsCop0`, the timer they make up, and the accessors the processor uses
internally.  The timer never ticks: `Count` is derived from the timestamp of the processor,
and whether `Count` met `Compare` is decided when `checkCompareInterrupt` is called.  The
timestamp here is the one the unit works with, half the cycles spent.

What an instruction reads and writes through the coprocessor port also involves the
processor and its translation unit; it follows in `NgMips.Source.Cop`.
-/

namespace NgMips

structure MipsCop0 where
  context : BitVec 64 := 0
  wired : BitVec 32 := 0
  badvaddr : BitVec 64 := 0
  compare : BitVec 32 := 0
  sr : BitVec 32 := 0x34000000
  cause : BitVec 32 := 0xB000007C
  epc : BitVec 64 := 0xFFFFFFFFFFFFFFFF
  errorEpc : BitVec 64 := 0xFFFFFFFFFFFFFFFF
  countStartTimestamp : BitVec 64 := 0
  lastCompareCheckTimestamp : BitVec 64 := 0
  surpressCompareInterrupt : Bool := false
deriving DecidableEq, Repr

namespace MipsCop0

variable (cop0 : MipsCop0) (timestamp : BitVec 64)

/-- The status bits that enable and disable interrupts. -/
def ie : Bool := cop0.sr &&& 1 != 0
def exl : Bool := cop0.sr &&& 2 != 0
def erl : Bool := cop0.sr &&& 4 != 0

/-- The bit of `Cause` set when the exception hit a delay slot. -/
def bd : Bool := cop0.cause &&& 0x80000000 != 0

/-! ## The timer -/

def checkCompareInterrupt : Bool × MipsCop0 :=
  -- A write to `Count` or `Compare` keeps the next check from raising anything.
  if cop0.surpressCompareInterrupt then
    (false, { cop0 with
      surpressCompareInterrupt := false
      lastCompareCheckTimestamp := timestamp })
  else if timestamp < cop0.lastCompareCheckTimestamp then
    (false, { cop0 with lastCompareCheckTimestamp := timestamp })
  else if timestamp - cop0.lastCompareCheckTimestamp = 0 then (false, cop0)
  else
    let countStart := (cop0.lastCompareCheckTimestamp - cop0.countStartTimestamp).setWidth 32
    let countEnd := (timestamp - cop0.countStartTimestamp).setWidth 32
    -- `Compare` was met after the last check and no later than now, modulo `2 ^ 32`.
    let crossed := decide (cop0.compare - countStart - 1 ≤ countEnd - countStart - 1)
    (crossed, { cop0 with lastCompareCheckTimestamp := timestamp })

def writeCount (value : BitVec 32) : MipsCop0 :=
  -- A count beyond the timestamp restarts at zero.
  if timestamp < value.setWidth 64 then { cop0 with countStartTimestamp := timestamp }
  else
    { cop0 with
      countStartTimestamp := timestamp - value.setWidth 64
      surpressCompareInterrupt := true }

def getCount : BitVec 32 × MipsCop0 :=
  if timestamp < cop0.countStartTimestamp then
    (0, { cop0 with countStartTimestamp := timestamp })
  else ((timestamp - cop0.countStartTimestamp).setWidth 32, cop0)

/-- The part of a write to `Compare` that is not the processor's. -/
def writeCompare (value : BitVec 32) : MipsCop0 :=
  { cop0 with compare := value, surpressCompareInterrupt := true }

/-! ## The internal accessors -/

def read32Internal (idx : ℕ) : BitVec 32 × MipsCop0 :=
  match idx with
  | 8 => (cop0.badvaddr.setWidth 32, cop0)
  | 9 => cop0.getCount timestamp
  | 11 => (cop0.compare, cop0)
  | 12 => (cop0.sr, cop0)
  | 13 => (cop0.cause, cop0)
  | 14 => (cop0.epc.setWidth 32, cop0)
  | 15 => (2, cop0)
  | 128 =>
      let (result, cop0) := cop0.checkCompareInterrupt timestamp
      (if result then 1 else 0, cop0)
  | _ => (0, cop0)

def write64Internal (idx : ℕ) (value : BitVec 64) : Except Stop MipsCop0 :=
  match idx with
  | 8 => .ok { cop0 with badvaddr := value }
  | 12 => .ok { cop0 with sr := value.setWidth 32 }
  | 13 => .ok { cop0 with cause := value.setWidth 32 }
  | 14 => .ok { cop0 with epc := value }
  | 30 => .ok { cop0 with errorEpc := value }
  | _ => .error (.panic .internalRegisterUnhandled)

def write32Internal (idx : ℕ) (value : BitVec 32) : Except Stop MipsCop0 :=
  cop0.write64Internal idx (value.setWidth 64)

end MipsCop0

end NgMips
