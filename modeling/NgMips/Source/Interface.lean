import Mathlib.Data.BitVec

/-!
# What the processor shares with its surroundings

The configuration, the exception causes, the reasons for which the program stops, and the
interfaces of the parts that are connected from outside: the bus and coprocessors other
than the built-in ones.  Such a part has a state of its own, of a type `δ`, that it reads and
changes when it is accessed, and while serving an access it may call back into the
processor.
-/

namespace NgMips

structure MipsConfig where
  useBigEndian : Bool := false
  hasException : Bool := false
  allowMisalignedAccess : Bool := false
  hasFpu : Bool := false
  useCachedInterpreter : Bool := false
  hasIsolateCacheBit : Bool := false
  copDecodingOverride : BitVec 8 := 0
  cpi : BitVec 16 := 0x180

inductive ExceptionCause where
  | kInt | kTlbMod | kTlbMissLoad | kTlbMissStore | kAddrl | kAddrs | kIbus | kDbus
  | kSyscall | kBkpt | kRi | kCop | kOvf
deriving DecidableEq, Repr

/-- The exception code. -/
def ExceptionCause.code : ExceptionCause → BitVec 32
  | kInt => 0 | kTlbMod => 1 | kTlbMissLoad => 2 | kTlbMissStore => 3 | kAddrl => 4
  | kAddrs => 5 | kIbus => 6 | kDbus => 7 | kSyscall => 8 | kBkpt => 9 | kRi => 10
  | kCop => 11 | kOvf => 12

/-- The exceptions raised by an instruction itself, translation faults apart. -/
def ExceptionCause.isSynchronous : ExceptionCause → Bool
  | kOvf | kAddrl | kAddrs | kSyscall | kBkpt | kCop => true
  | _ => false

/-- The places at which the program gives up with `PANIC`. -/
inductive Panic where
  | nonBranchOnBd
  | tlbException
  | loadFromUnmappedAddress
  | unalignedJump
  | unknownInstruction
  | blockCreationFailed
  | fpuException
  | internalRegisterUnhandled
deriving DecidableEq, Repr

/-- Why a computation does not return: a `PANIC`, a loop of the source that never ends, a
pointer that no longer points to anything, or a bound on the number of steps of a run. -/
inductive Stop where
  | panic (reason : Panic)
  | hang
  | danglingPointer
  | outOfFuel
deriving DecidableEq, Repr

/-- What an observer of a run sees: what the hooks are told, and the exceptions taken. -/
inductive Event where
  /-- `OnPreExecute`: an instruction is about to be executed. -/
  | preExecute (pc : BitVec 64) (opcode : BitVec 32)
  /-- `OnLoad8` to `OnLoad64`, with the number of bytes. -/
  | load (bytes : ℕ) (address : BitVec 64)
  /-- `OnStore8` to `OnStore64`, with the number of bytes. -/
  | store (bytes : ℕ) (address : BitVec 64)
  | exception (cause : ExceptionCause)
deriving DecidableEq, Repr

/-- The calls a device makes while it serves an access. -/
inductive CpuCall where
  | setHalt (halt : Bool)
  | queueCacheClear
deriving DecidableEq, Repr

/-- The outcome of an access to a device. -/
structure Served (δ α : Type) where
  value : α
  device : δ
  calls : List CpuCall := []

structure BusBase (δ : Type) where
  fetch : δ → BitVec 64 → BitVec 32 × δ
  load8 : δ → BitVec 64 → Served δ (Option (BitVec 8))
  load16 : δ → BitVec 64 → Served δ (Option (BitVec 16))
  load32 : δ → BitVec 64 → Served δ (Option (BitVec 32))
  load64 : δ → BitVec 64 → Served δ (Option (BitVec 64))
  store8 : δ → BitVec 64 → BitVec 8 → Served δ Unit
  store16 : δ → BitVec 64 → BitVec 16 → Served δ Unit
  store32 : δ → BitVec 64 → BitVec 32 → Served δ Unit
  store64 : δ → BitVec 64 → BitVec 64 → Served δ Unit
  getInterrupt : δ → Bool

/-- `Fetch` is a pure read of memory. -/
def BusBase.FetchPure {δ : Type} (bus : BusBase δ) : Prop :=
  ∀ d address, (bus.fetch d address).2 = d

/-- The word a fetch reads. -/
def BusBase.word {δ : Type} (bus : BusBase δ) (d : δ) (address : BitVec 64) : BitVec 32 :=
  (bus.fetch d address).1

/-- The coprocessors connected from outside, by slot. -/
structure MipsCopBase (δ : Type) where
  reset : δ → BitVec 2 → δ
  command : δ → BitVec 2 → BitVec 32 → Served δ Unit
  read32 : δ → BitVec 2 → ℕ → Served δ (BitVec 32)
  write32 : δ → BitVec 2 → ℕ → BitVec 32 → Served δ Unit
  read64 : δ → BitVec 2 → ℕ → Served δ (BitVec 64)
  write64 : δ → BitVec 2 → ℕ → BitVec 64 → Served δ Unit
  read32Internal : δ → ℕ → BitVec 32
  write32Internal : δ → ℕ → BitVec 32 → δ
  write64Internal : δ → ℕ → BitVec 64 → δ
  getFlag : δ → BitVec 2 → Bool

end NgMips
