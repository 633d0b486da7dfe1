import Mathlib.Data.BitVec

/-!
# Instruction words and their decoding

The fields of an instruction word and the decoder of `mips_decode.cpp`.  An instruction
word is a `BitVec 32`; a decoded instruction is a `MipsInstId`.  Two classifications of the
decoded instruction are used by the processor: `isInstBranch` ends a cached block, and
`doesInstHaveDelaySlot` tells whether the word that follows belongs to the instruction.
-/

namespace NgMips

/-- The instructions the decoder tells apart. -/
inductive MipsInstId where
  | kAdd | kAddu | kAddi | kAddiu | kAnd | kAndi | kDiv | kDivu | kMult | kMultu | kNor
  | kOr | kOri | kSll | kSllv | kSra | kSrav | kSrl | kSrlv | kSub | kSubu | kXor | kXori
  | kLui | kSlt | kSltu | kSlti | kSltiu | kBeq | kBne | kBgtz | kBlez | kBgez | kBgezal
  | kBltz | kBltzal | kJ | kJal | kJr | kJalr | kSyscall | kBreak | kLb | kLbu | kLh | kLhu
  | kLw | kLwl | kLwr | kLwc | kSb | kSh | kSw | kSwl | kSwr | kSwc | kMfhi | kMflo | kMthi
  | kMtlo | kCop | kMfc | kCfc | kMtc | kCtc | kNop | kBcf | kBcfl | kBct | kBctl | kBeql
  | kBnel | kBgezl | kBgezall | kBgtzl | kBlezl | kBltzl | kBltzall | kCache | kDadd
  | kDaddu | kDaddi | kDaddiu | kDsub | kDsubu | kDmult | kDmultu | kDdiv | kDdivu | kDsll
  | kDsll32 | kDsllv | kDsra | kDsra32 | kDsrav | kDsrl | kDsrl32 | kDsrlv | kDmfc | kDmtc
  | kLd | kLdc | kLdl | kLdr | kLwu | kLl | kLld | kSd | kSdc | kSdl | kSdr | kSc | kScd
  | kSync | kUnknown
deriving DecidableEq, Repr

/-! ## Fields of an instruction word -/

section Fields

variable (raw : BitVec 32)

def opField : BitVec 6 := raw.extractLsb' 26 6
def rsField : BitVec 5 := raw.extractLsb' 21 5
def rtField : BitVec 5 := raw.extractLsb' 16 5
def rdField : BitVec 5 := raw.extractLsb' 11 5
def shamtField : BitVec 5 := raw.extractLsb' 6 5
def functField : BitVec 6 := raw.extractLsb' 0 6

/-- The immediate of an I-type instruction. -/
def immField : BitVec 16 := raw.extractLsb' 0 16

/-- The address of a J-type instruction. -/
def addressField : BitVec 26 := raw.extractLsb' 0 26

/-- The coprocessor an instruction is for: `(opcode >> 26) & 3`. -/
def copId : BitVec 2 := raw.extractLsb' 26 2

end Fields

/-! ## The decoder -/

def decodeCondBranch (raw : BitVec 32) : MipsInstId :=
  let isBgez := raw.getLsbD 16
  let isLinked := raw.getLsbD 20
  let isLikely := raw.getLsbD 17
  if isBgez then
    if isLikely then
      if isLinked then .kBgezall else .kBgezl
    else
      if isLinked then .kBgezal else .kBgez
  else if isLikely then
    if isLinked then .kBltzall else .kBltzl
  else
    if isLinked then .kBltzal else .kBltz

def decodeTypeR (raw : BitVec 32) : MipsInstId :=
  if functField raw = 0 ∧ opField raw = 0 ∧ shamtField raw = 0 ∧ rdField raw = 0 then .kNop
  else if functField raw = 0xF ∧ opField raw = 0 ∧ shamtField raw = 0 ∧ rdField raw = 0 then .kSync
  else match functField raw with
  | 0b000000#6 => .kSll
  | 0b000010#6 => .kSrl
  | 0b000011#6 => .kSra
  | 0b000100#6 => .kSllv
  | 0b000110#6 => .kSrlv
  | 0b000111#6 => .kSrav
  | 0b001000#6 => .kJr
  | 0b001001#6 => .kJalr
  | 0b001100#6 => .kSyscall
  | 0b001101#6 => .kBreak
  | 0b010000#6 => .kMfhi
  | 0b010001#6 => .kMthi
  | 0b010010#6 => .kMflo
  | 0b010011#6 => .kMtlo
  | 0b010100#6 => .kDsllv
  | 0b010110#6 => .kDsrlv
  | 0b010111#6 => .kDsrav
  | 0b011000#6 => .kMult
  | 0b011001#6 => .kMultu
  | 0b011010#6 => .kDiv
  | 0b011011#6 => .kDivu
  | 0b011100#6 => .kDmult
  | 0b011101#6 => .kDmultu
  | 0b011110#6 => .kDdiv
  | 0b011111#6 => .kDdivu
  | 0b100000#6 => .kAdd
  | 0b100001#6 => .kAddu
  | 0b100010#6 => .kSub
  | 0b100011#6 => .kSubu
  | 0b100100#6 => .kAnd
  | 0b100101#6 => .kOr
  | 0b100110#6 => .kXor
  | 0b100111#6 => .kNor
  | 0b101010#6 => .kSlt
  | 0b101011#6 => .kSltu
  | 0b101100#6 => .kDadd
  | 0b101101#6 => .kDaddu
  | 0b101110#6 => .kDsub
  | 0b101111#6 => .kDsubu
  | 0b111000#6 => .kDsll
  | 0b111010#6 => .kDsrl
  | 0b111011#6 => .kDsra
  | 0b111100#6 => .kDsll32
  | 0b111110#6 => .kDsrl32
  | 0b111111#6 => .kDsra32
  | _ => .kUnknown

/-- The branches on a coprocessor flag, by the field `(opcode >> 16) & 31`. -/
def decodeCopBranch (raw : BitVec 32) : MipsInstId :=
  match rtField raw with
  | 0b00000#5 => .kBcf
  | 0b00001#5 => .kBct
  | 0b00010#5 => .kBcfl
  | 0b00011#5 => .kBctl
  | _ => .kUnknown

def decodeCop (raw : BitVec 32) : MipsInstId :=
  match raw.extractLsb' 21 11 with
  | 0b01000001000#11 | 0b01000101000#11 | 0b01001001000#11 | 0b01001101000#11 =>
      decodeCopBranch raw
  | 0b01000000000#11 | 0b01000100000#11 | 0b01001000000#11 | 0b01001100000#11 =>
      .kMfc
  | 0b01000000001#11 | 0b01000100001#11 | 0b01001000001#11 | 0b01001100001#11 =>
      .kDmfc
  | 0b01000000010#11 | 0b01000100010#11 | 0b01001000010#11 | 0b01001100010#11 =>
      .kCfc
  | 0b01000000100#11 | 0b01000100100#11 | 0b01001000100#11 | 0b01001100100#11 =>
      .kMtc
  | 0b01000000101#11 | 0b01000100101#11 | 0b01001000101#11 | 0b01001100101#11 =>
      .kDmtc
  | 0b01000000110#11 | 0b01000100110#11 | 0b01001000110#11 | 0b01001100110#11 =>
      .kCtc
  | _ => .kCop

def decode (opcode : BitVec 32) : MipsInstId :=
  match opField opcode with
  | 0b000000#6 => decodeTypeR opcode
  | 0b000001#6 => decodeCondBranch opcode
  | 0b000010#6 => .kJ
  | 0b000011#6 => .kJal
  | 0b000100#6 => .kBeq
  | 0b000101#6 => .kBne
  | 0b000110#6 => .kBlez
  | 0b000111#6 => .kBgtz
  | 0b001000#6 => .kAddi
  | 0b001001#6 => .kAddiu
  | 0b001010#6 => .kSlti
  | 0b001011#6 => .kSltiu
  | 0b001100#6 => .kAndi
  | 0b001101#6 => .kOri
  | 0b001110#6 => .kXori
  | 0b001111#6 => .kLui
  | 0b010000#6 | 0b010001#6 | 0b010010#6 | 0b010011#6 => decodeCop opcode
  | 0b010100#6 => .kBeql
  | 0b010101#6 => .kBnel
  | 0b010110#6 => .kBlezl
  | 0b010111#6 => .kBgtzl
  | 0b011000#6 => .kDaddi
  | 0b011001#6 => .kDaddiu
  | 0b011010#6 => .kLdl
  | 0b011011#6 => .kLdr
  | 0b100000#6 => .kLb
  | 0b100001#6 => .kLh
  | 0b100010#6 => .kLwl
  | 0b100011#6 => .kLw
  | 0b100100#6 => .kLbu
  | 0b100101#6 => .kLhu
  | 0b100110#6 => .kLwr
  | 0b100111#6 => .kLwu
  | 0b101000#6 => .kSb
  | 0b101001#6 => .kSh
  | 0b101010#6 => .kSwl
  | 0b101011#6 => .kSw
  | 0b101100#6 => .kSdl
  | 0b101101#6 => .kSdr
  | 0b101111#6 => .kCache
  | 0b101110#6 => .kSwr
  | 0b110000#6 => .kLl
  | 0b110001#6 | 0b110010#6 => .kLwc
  | 0b110011#6 => .kUnknown
  | 0b110100#6 => .kLld
  | 0b110101#6 | 0b110110#6 => .kLdc
  | 0b110111#6 => .kLd
  | 0b111000#6 => .kSc
  | 0b111001#6 | 0b111010#6 => .kSwc
  | 0b111011#6 => .kUnknown
  | 0b111100#6 => .kScd
  | 0b111101#6 | 0b111110#6 => .kSdc
  | 0b111111#6 => .kSd
  | _ => .kUnknown

/-! ## Classification -/

/-- The instructions at which a cached block ends. -/
def MipsInstId.isBranch : MipsInstId → Bool
  | .kBeq | .kBne | .kBgtz | .kBlez | .kBgez | .kBgezal | .kBltz | .kBltzal | .kJ
  | .kJal | .kJr | .kJalr | .kSyscall | .kBreak | .kBcf | .kBcfl | .kBct | .kBctl
  | .kBeql | .kBnel | .kBgezl | .kBgezall | .kBgtzl | .kBlezl | .kBltzl | .kBltzall => true
  | _ => false

/-- The instructions whose successor in memory is a delay slot. -/
def MipsInstId.hasDelaySlot : MipsInstId → Bool
  | .kBeq | .kBne | .kBgtz | .kBlez | .kBgez | .kBgezal | .kBltz | .kBltzal | .kJ
  | .kJal | .kJr | .kJalr | .kBcf | .kBcfl | .kBct | .kBctl | .kBeql | .kBnel | .kBgezl
  | .kBgezall | .kBgtzl | .kBlezl | .kBltzl | .kBltzall => true
  | _ => false

def isInstBranch (opcode : BitVec 32) : Bool := (decode opcode).isBranch

def doesInstHaveDelaySlot (opcode : BitVec 32) : Bool := (decode opcode).hasDelaySlot

/-- An instruction with a delay slot ends a cached block. -/
lemma MipsInstId.isBranch_of_hasDelaySlot (id : MipsInstId) (h : id.hasDelaySlot) :
    id.isBranch := by
  cases id <;> first | rfl | exact absurd h (by decide)

example : decode 0x00621821 = .kAddu := by decide
example : decode 0x45030005 = .kBctl := by decide

end NgMips
