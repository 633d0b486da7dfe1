import NgMips.Source.Cache
import NgMips.Source.Cop0
import NgMips.Source.Fpu
import NgMips.Lib.Prog

/-!
# The processor

The state of `MipsBase` and the small members its instructions are written with.  What is
fixed when a processor is built (the template arguments, the configuration and the connected
parts) is a `MipsSetup`; a member function is a program over the state, `CpuM`.

The list `trace` is not part of the processor.  It records, newest first, what an observer
is told; no computation reads it.
-/

namespace NgMips

structure MipsBase (T δ : Type) where
  gpr : BitVec 5 → BitVec 64 := fun _ => 0
  hi : BitVec 64 := 0
  lo : BitVec 64 := 0
  pc : BitVec 64 := 0
  nextPc : BitVec 64 := 0
  llbit : Bool := false
  cycleSpent : ℕ := 0
  cpiCounter : ℕ := 0
  interruptPollCounter : ℕ := 0
  cycleSpentTotal : BitVec 64 := 0
  hasBranchDelay : Bool := false
  branchDelayDst : BitVec 64 := 0
  compareInterrupt : Bool := false
  copCause : BitVec 32 := 0
  cache : MipsCache := {}
  halt : Bool := false
  tlb : T
  cop0 : MipsCop0 := {}
  fpu : MipsFpu := {}
  /-- The state of everything connected from outside. -/
  device : δ
  /-- The state of the random number generator behind `Random`.  In the source it is a global
  variable of the whole program, and several processors draw from the same one; here it is that of
  a program with one processor. -/
  xorshiftState : BitVec 32 := 1
  trace : List Event := []

/-- What is fixed when a processor is built. -/
structure MipsSetup (δ : Type) where
  kIs64Bit : Bool
  kHasCop0 : Bool
  config : MipsConfig
  /-- The coprocessor slots given away to devices by `ConnectCop`. -/
  connected : BitVec 2 → Bool
  bus : BusBase δ
  cop : MipsCopBase δ
  float : HostFloat
  ord : IterOrder

/-- What sits in a coprocessor slot. -/
inductive CopSlot where
  | cop0 | fpu | dummy | device
deriving DecidableEq

def MipsSetup.slot {δ : Type} (m : MipsSetup δ) (copId : BitVec 2) : CopSlot :=
  if m.connected copId then .device
  else if copId = 0 then if m.kHasCop0 then .cop0 else .dummy
  else if copId = 1 then if m.config.hasFpu then .fpu else .dummy
  else .dummy

/-- The main processor: 64-bit registers and the built-in coprocessor 0. -/
structure MipsSetup.IsN64 {δ : Type} (m : MipsSetup δ) : Prop where
  is64Bit : m.kIs64Bit = true
  hasCop0 : m.kHasCop0 = true
  cop0_free : m.connected 0#2 = false

lemma MipsSetup.IsN64.slot_zero {δ : Type} {m : MipsSetup δ} (hm : m.IsN64) :
    m.slot 0#2 = .cop0 := by
  simp [slot, hm.cop0_free, hm.hasCop0]

/-- The computations of the processor. -/
abbrev CpuM (T δ : Type) : Type → Type := Prog (MipsBase T δ) Stop

namespace MipsBase

variable {T δ : Type}

/-- `GetTimestamp() >> 1`. -/
def timestamp (s : MipsBase T δ) : BitVec 64 := s.cycleSpentTotal >>> 1

/-- The effect of a call a device makes. -/
def serve (s : MipsBase T δ) : CpuCall → MipsBase T δ
  | .setHalt halt => { s with halt := halt }
  | .queueCacheClear => { s with cache := s.cache.queueCacheClear }

/-- Read a part of the state. -/
def read {α : Type} (f : MipsBase T δ → α) : CpuM T δ α := fun s => .ok (f s, s)

@[simp] lemma read_run {α : Type} (f : MipsBase T δ → α) (s : MipsBase T δ) :
    read f s = .ok (f s, s) := rfl

/-- Tell the observer. -/
def emit (e : Event) : CpuM T δ Unit := modify fun s => { s with trace := e :: s.trace }

/-- Access a device. -/
def access {α : Type} (f : δ → Served δ α) : CpuM T δ α := fun s =>
  -- The calls reach the processor in the order in which they are made.
  let served := f s.device
  .ok (served.value, served.calls.foldl serve { s with device := served.device })

variable (m : MipsSetup δ)

/-! ## General registers -/

def readGpr32 (idx : BitVec 5) : CpuM T δ (BitVec 32) := read fun s => (s.gpr idx).setWidth 32

def readGpr64 (idx : BitVec 5) : CpuM T δ (BitVec 64) :=
  read fun s => if m.kIs64Bit then s.gpr idx else ((s.gpr idx).setWidth 32).signExtend 64

def writeGpr64 (idx : BitVec 5) (value : BitVec 64) : CpuM T δ Unit :=
  if idx = 0 then pure ()
  else modify fun s => { s with gpr := Function.update s.gpr idx value }

def writeGpr32 (idx : BitVec 5) (value : BitVec 32) : CpuM T δ Unit :=
  writeGpr64 idx (value.setWidth 64)

def writeGpr32Sext (idx : BitVec 5) (value : BitVec 32) : CpuM T δ Unit :=
  writeGpr64 idx (value.signExtend 64)

def writeHi (value : BitVec 64) : CpuM T δ Unit := modify fun s => { s with hi := value }

def writeLo (value : BitVec 64) : CpuM T δ Unit := modify fun s => { s with lo := value }

/-! ## Jumps -/

/-- Make a jump pending: it takes effect after the next instruction. -/
def setBranchDelay (dst : MipsBase T δ → BitVec 64) : CpuM T δ Unit :=
  modify fun s => { s with hasBranchDelay := true, branchDelayDst := dst s }

def jumpRel (offset : BitVec 32) : CpuM T δ Unit :=
  setBranchDelay fun s => s.pc + 4 + offset.signExtend 64

def jump32 (dst : BitVec 32) : CpuM T δ Unit := setBranchDelay fun _ => dst.setWidth 64

def jump64 (dst : BitVec 64) : CpuM T δ Unit := setBranchDelay fun _ => dst

def linkForJump (dstReg : BitVec 5) : CpuM T δ Unit := do
  let pc ← read MipsBase.pc
  writeGpr64 dstReg (((pc + 8).setWidth 32).signExtend 64)

/-- Skip the delay slot of a branch that is not taken: `next_pc_ = pc_ + 8`. -/
def nullifyDelaySlot : CpuM T δ Unit := modify fun s => { s with nextPc := s.pc + 8 }

/-! ## Members called from outside -/

def setPc (pc : BitVec 64) : CpuM T δ Unit := modify fun s => { s with pc := pc, nextPc := pc + 4 }

def setPcDuringInst (pc : BitVec 64) : CpuM T δ Unit :=
  modify fun s => { s with pc := pc, nextPc := pc }

def setGpr (idx : BitVec 5) (value : BitVec 64) : CpuM T δ Unit :=
  if idx = 0 then pure ()
  else modify fun s => { s with gpr := Function.update s.gpr idx value }

def setLlbit (llbit : Bool) : CpuM T δ Unit := modify fun s => { s with llbit := llbit }

def setHalt (halt : Bool) : CpuM T δ Unit := modify fun s => { s with halt := halt }

def queueCacheClear : CpuM T δ Unit := modify fun s => { s with cache := s.cache.queueCacheClear }

def clearCompareInterrupt : CpuM T δ Unit := modify fun s => { s with compareInterrupt := false }

/-! ## The internal registers of the coprocessor in slot 0 -/

/-- Run an operation of coprocessor 0. -/
def onCop0 {α : Type} (f : BitVec 64 → MipsCop0 → α × MipsCop0) : CpuM T δ α := fun s =>
  let (a, cop0) := f s.timestamp s.cop0
  .ok (a, { s with cop0 := cop0 })

/-- Replace the registers of coprocessor 0. -/
def setCop0 (f : BitVec 64 → MipsCop0 → MipsCop0) : CpuM T δ Unit :=
  modify fun s => { s with cop0 := f s.timestamp s.cop0 }

def copRead32Internal (idx : ℕ) : CpuM T δ (BitVec 32) :=
  match m.slot 0#2 with
  | .cop0 => onCop0 fun ts cop0 => cop0.read32Internal ts idx
  | .device => read fun s => m.cop.read32Internal s.device idx
  | _ => pure 0

def copWrite64Internal (idx : ℕ) (value : BitVec 64) : CpuM T δ Unit :=
  match m.slot 0#2 with
  | .cop0 => fun s =>
      (s.cop0.write64Internal idx value).map fun cop0 => ((), { s with cop0 := cop0 })
  | .device => modify fun s => { s with device := m.cop.write64Internal s.device idx value }
  | _ => pure ()

def copWrite32Internal (idx : ℕ) (value : BitVec 32) : CpuM T δ Unit :=
  match m.slot 0#2 with
  | .cop0 => fun s =>
      (s.cop0.write32Internal idx value).map fun cop0 => ((), { s with cop0 := cop0 })
  | .device => modify fun s => { s with device := m.cop.write32Internal s.device idx value }
  | _ => pure ()

def isCopEnabled (copId : BitVec 2) : CpuM T δ Bool :=
  if m.kHasCop0 then do
    let sr ← copRead32Internal m 12
    pure (copId == 0 || sr.getLsbD (copId.toNat + 28))
  else pure true

end MipsBase

end NgMips
