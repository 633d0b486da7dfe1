import NgMips.Source.Decode

/-!
# The disassembler

The texts of `mips_decode.cpp` for an instruction word: the name of the instruction, followed by the
names of registers, numbers in decimal and the address of a jump in hexadecimal.  A word without a
text of its own is printed as such.  The source puts the texts together with `fmt::format`; its
placeholders are `hex8` for `{:08X}` and `toString` for a plain one.
-/

namespace NgMips

/-! ## Numbers -/

def hexDigit (digit : BitVec 4) : Char :=
  "0123456789ABCDEF".toList.getD digit.toNat '0'

/-- What `fmt::format` prints for a 32-bit number under `{:08X}`. -/
def hex8 (value : BitVec 32) : String :=
  String.ofList ((List.range 8).reverse.map fun i => hexDigit (value.extractLsb' (4 * i) 4))

/-! ## Names -/

/-- `GetInstName`, of the decoded instruction. -/
def MipsInstId.instName : MipsInstId → String
  | .kAdd => "add"
  | .kAddu => "addu"
  | .kAddi => "addi"
  | .kAddiu => "addiu"
  | .kAnd => "and"
  | .kAndi => "andi"
  | .kDiv => "div"
  | .kDivu => "divu"
  | .kMult => "mult"
  | .kMultu => "multu"
  | .kNor => "nor"
  | .kOr => "or"
  | .kOri => "ori"
  | .kSll => "sll"
  | .kSllv => "sllv"
  | .kSra => "sra"
  | .kSrav => "srav"
  | .kSrl => "srl"
  | .kSrlv => "srlv"
  | .kSub => "sub"
  | .kSubu => "subu"
  | .kXor => "xor"
  | .kXori => "xori"
  | .kLui => "lui"
  | .kSlt => "slt"
  | .kSltu => "sltu"
  | .kSlti => "slti"
  | .kSltiu => "sltiu"
  | .kBeq => "beq"
  | .kBne => "bne"
  | .kBgtz => "bgtz"
  | .kBlez => "blez"
  | .kBgez => "bgez"
  | .kBgezal => "bgezal"
  | .kBltz => "bltz"
  | .kBltzal => "bltzal"
  | .kJ => "j"
  | .kJal => "jal"
  | .kJr => "jr"
  | .kJalr => "jalr"
  | .kSyscall => "syscall"
  | .kBreak => "break"
  | .kLb => "lb"
  | .kLbu => "lbu"
  | .kLh => "lh"
  | .kLhu => "lhu"
  | .kLw => "lw"
  | .kLwl => "lwl"
  | .kLwr => "lwr"
  | .kLwc => "lwc"
  | .kSb => "sb"
  | .kSh => "sh"
  | .kSw => "sw"
  | .kSwl => "swl"
  | .kSwr => "swr"
  | .kSwc => "swc"
  | .kMfhi => "mfhi"
  | .kMflo => "mflo"
  | .kMthi => "mthi"
  | .kMtlo => "mtlo"
  | .kCop => "cop"
  | .kMfc => "mfc"
  | .kCfc => "cfc"
  | .kMtc => "mtc"
  | .kCtc => "ctc"
  | .kNop => "nop"
  | .kBcf => "bcf"
  | .kBcfl => "bcfl"
  | .kBct => "bct"
  | .kBctl => "bctl"
  | .kBeql => "beql"
  | .kBnel => "bnel"
  | .kBgezl => "bgezl"
  | .kBgezall => "bgezall"
  | .kBgtzl => "bgtzl"
  | .kBlezl => "blezl"
  | .kBltzl => "bltzl"
  | .kBltzall => "bltzall"
  | .kCache => "cache"
  | .kDadd => "dadd"
  | .kDaddu => "daddu"
  | .kDaddi => "daddi"
  | .kDaddiu => "daddiu"
  | .kDsub => "dsub"
  | .kDsubu => "dsubu"
  | .kDmult => "dmult"
  | .kDmultu => "dmultu"
  | .kDdiv => "ddiv"
  | .kDdivu => "ddivu"
  | .kDsll => "dsll"
  | .kDsll32 => "dsll32"
  | .kDsllv => "dsllv"
  | .kDsra => "dsra"
  | .kDsra32 => "dsra32"
  | .kDsrav => "dsrav"
  | .kDsrl => "dsrl"
  | .kDsrl32 => "dsrl32"
  | .kDsrlv => "dsrlv"
  | .kDmfc => "dmfc"
  | .kDmtc => "dmtc"
  | .kLd => "ld"
  | .kLdc => "ldc"
  | .kLdl => "ldl"
  | .kLdr => "ldr"
  | .kLwu => "lwu"
  | .kSd => "sd"
  | .kSdc => "sdc"
  | .kSdl => "sdl"
  | .kSdr => "sdr"
  | .kLl => "ll"
  | .kLld => "lld"
  | .kSc => "sc"
  | .kScd => "scd"
  | .kSync => "sync"
  | .kUnknown => "unknown"

def getInstName (opcode : BitVec 32) : String := (decode opcode).instName

/-- The names of the general registers. -/
def kMipsGprName : List String :=
  ["zero", "at", "v0", "v1", "a0", "a1", "a2", "a3",
    "t0", "t1", "t2", "t3", "t4", "t5", "t6", "t7",
    "s0", "s1", "s2", "s3", "s4", "s5", "s6", "s7",
    "t8", "t9", "k0", "k1", "gp", "sp", "fp", "ra"]

def getMipsRegName (index : BitVec 5) : String := kMipsGprName.getD index.toNat ""

/-! ## Texts -/

section Texts

variable (opcode : BitVec 32)

def rsName : String := getMipsRegName (rsField opcode)
def rtName : String := getMipsRegName (rtField opcode)
def rdName : String := getMipsRegName (rdField opcode)

/-- The immediate, as the unsigned number `fmt::format` prints for it. -/
def immText : String := toString (immField opcode).toNat

def disassembleRType : String :=
  -- A shift amount takes the place of `rs`, whatever the instruction is.
  if shamtField opcode ≠ 0 then
    getInstName opcode ++ " " ++ rdName opcode ++ ", " ++ rtName opcode ++ ", " ++
      toString (shamtField opcode).toNat
  else
    getInstName opcode ++ " " ++ rdName opcode ++ ", " ++ rsName opcode ++ ", " ++ rtName opcode

def disassembleJType : String :=
  getInstName opcode ++ " " ++ hex8 ((addressField opcode).setWidth 32)

def disassembleImmArithmetic : String :=
  getInstName opcode ++ " " ++ rtName opcode ++ ", " ++ rsName opcode ++ ", " ++ immText opcode

def disassembleLui : String :=
  getInstName opcode ++ " " ++ rtName opcode ++ ", " ++ immText opcode

def disassembleCondBranchWithRt : String :=
  getInstName opcode ++ " " ++ rsName opcode ++ ", " ++ rtName opcode ++ ", " ++ immText opcode

def disassembleCondBranchWithoutRt : String :=
  getInstName opcode ++ " " ++ rsName opcode ++ ", " ++ immText opcode

def disassembleMemoryAccess : String :=
  getInstName opcode ++ " " ++ rtName opcode ++ ", " ++ immText opcode ++ "(" ++ rsName opcode ++ ")"

/-- `Disassemble`; no text depends on the address of the instruction. -/
def disassemble : String :=
  match decode opcode with
  | .kSll | .kSrl | .kSra | .kSllv | .kSrav | .kJr | .kJalr | .kSyscall | .kBreak | .kMfhi | .kMthi
  | .kMflo | .kMtlo | .kMult | .kMultu | .kDiv | .kDivu | .kAdd | .kAddu | .kSub | .kSubu | .kAnd
  | .kOr | .kXor | .kNor | .kSlt | .kSltu => disassembleRType opcode
  | .kJ | .kJal => disassembleJType opcode
  | .kAddi | .kAddiu | .kAndi | .kOri | .kXori | .kSlti | .kSltiu => disassembleImmArithmetic opcode
  | .kBeq | .kBne => disassembleCondBranchWithRt opcode
  | .kBgez | .kBgtz | .kBlez | .kBltz => disassembleCondBranchWithoutRt opcode
  | .kLb | .kLbu | .kLh | .kLhu | .kLw | .kLwl | .kLwr | .kLl | .kLld | .kSb | .kSh | .kSw | .kSc
  | .kScd => disassembleMemoryAccess opcode
  | .kLui => disassembleLui opcode
  | .kBeql | .kBnel => disassembleCondBranchWithRt opcode
  | .kSync => "sync"
  | .kNop => "nop"
  | _ => "Decode error " ++ hex8 opcode ++ " (" ++ getInstName opcode ++ ")"

end Texts

example : disassemble 0x00621821 = "addu v1, v1, v0" := by decide
example : disassemble 0x8FA50010 = "lw a1, 16(sp)" := by decide

end NgMips
