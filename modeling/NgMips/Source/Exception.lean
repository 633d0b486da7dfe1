import NgMips.Source.Cpu

/-!
# Exceptions and memory accesses

`triggerException` and the accesses to memory, which call one another: an access that is not
translated raises an exception, and an exception in a delay slot fetches the branch before
it.  That inner fetch finds no branch pending any more, so an exception it raises is entered
by `triggerNoDelay` and the mutual recursion ends there.
-/

namespace NgMips

def ExceptionCause.isTlb : ExceptionCause → Bool
  | kTlbMod | kTlbMissLoad | kTlbMissStore => true
  | _ => false

/-- The vector of every exception that does not end in a `PANIC`. -/
def vecAddressGeneral : BitVec 64 := 0x80000180

namespace MipsBase

variable {T δ : Type} [MipsTlbBase T] (m : MipsSetup δ)

/-- The new value of `Cause`. -/
def causeReg (cause : ExceptionCause) (causeRegOld copCause : BitVec 32)
    (interrupt compareInterrupt bd : Bool) : BitVec 32 :=
  (cause.code <<< 2) |||
  (if interrupt then 0x400 else 0) |||
  (if compareInterrupt then 0x8000 else 0) |||
  (causeRegOld &&& 0x0300) |||
  (if cause = .kCop then copCause <<< 28 else 0) |||
  (if bd then 0x80000000 else 0)

/-- The mode bits of the status register of the 32-bit processor after an exception. -/
def pushMode (sr : BitVec 32) : BitVec 32 :=
  (sr &&& ~~~0x3F#32) ||| (((sr &&& 0x3F) <<< 2) &&& 0x3F)

/-- `TriggerException` once the exception program counter is known. -/
def takeException (cause : ExceptionCause) (epc : BitVec 64) (bd : Bool) : CpuM T δ Unit := do
  let causeRegOld ← copRead32Internal m 13
  let causeRegNew ← read fun s => causeReg cause causeRegOld s.copCause
    (m.bus.getInterrupt s.device) s.compareInterrupt bd
  copWrite32Internal m 13 causeRegNew
  let sr ← copRead32Internal m 12
  if m.kIs64Bit then
    -- Within another exception `EPC` keeps the address of the first.
    if sr &&& 2 != 0 then copWrite32Internal m 12 sr
    else do
      copWrite64Internal m 14 epc
      copWrite32Internal m 12 (sr ||| 2)
  else copWrite32Internal m 12 (pushMode sr)
  -- The source picks a vector for a translation fault, but gives up before it goes there.
  if cause.isTlb then throw (.panic .tlbException) else setPcDuringInst vecAddressGeneral

/-- `TriggerException` when no branch is pending. -/
def triggerNoDelay (cause : ExceptionCause) : CpuM T δ Unit :=
  if m.config.hasException then do
    emit (.exception cause)
    let pc ← read MipsBase.pc
    takeException m cause pc false
  else pure ()

/-- Report an address that is not translated. -/
def translationFault (trigger : ExceptionCause → CpuM T δ Unit) (cause : ExceptionCause)
    (address : BitVec 64) : CpuM T δ Unit := do
  copWrite64Internal m 8 address
  modify fun s => { s with tlb := informTlbException s.tlb address }
  trigger cause

/-- Read an instruction word from the bus. -/
def busFetch (address : BitVec 64) : CpuM T δ (BitVec 32) := fun s =>
  .ok (m.bus.word s.device address, { s with device := (m.bus.fetch s.device address).2 })

def fetchWith (trigger : ExceptionCause → CpuM T δ Unit) (address : BitVec 64) :
    CpuM T δ (BitVec 32) := do
  let result ← read fun s => translateAddress s.tlb address
  if result.found then busFetch m result.address
  else do
    translationFault m trigger .kTlbMissLoad address
    -- Only without `has_exception_`: otherwise the fault ends in a `PANIC`.
    pure 0

def triggerException (cause : ExceptionCause) : CpuM T δ Unit :=
  if m.config.hasException then do
    emit (.exception cause)
    let pc ← read MipsBase.pc
    let hasBranchDelay ← read MipsBase.hasBranchDelay
    if hasBranchDelay then do
      -- The flag is dropped before the fetch, which therefore cannot end up here again.
      modify fun s => { s with hasBranchDelay := false }
      let opcode ← fetchWith m (triggerNoDelay m) (pc - 4)
      if doesInstHaveDelaySlot opcode then takeException m cause (pc - 4) true
      else throw (.panic .nonBranchOnBd)
    else takeException m cause pc false
  else pure ()

def fetch (address : BitVec 64) : CpuM T δ (BitVec 32) := fetchWith m (triggerException m) address

/-! ## Loads -/

/-- `Load8` to `Load64`; there is no value after a translation fault. -/
def loadWith {w : ℕ} (load : δ → BitVec 64 → Served δ (Option (BitVec w)))
    (address : BitVec 64) : CpuM T δ (Option (BitVec w)) := do
  let result ← read fun s => translateAddress s.tlb address
  if result.found then do
    emit (.load (w / 8) address)
    let value ← access fun d => load d result.address
    -- An address that no device answers is not an exception.
    if value.isSome then pure value else throw (.panic .loadFromUnmappedAddress)
  else do
    translationFault m (triggerException m) .kTlbMissLoad address
    pure none

def load8 (address : BitVec 64) : CpuM T δ (Option (BitVec 8)) := loadWith m m.bus.load8 address
def load16 (address : BitVec 64) : CpuM T δ (Option (BitVec 16)) := loadWith m m.bus.load16 address
def load32 (address : BitVec 64) : CpuM T δ (Option (BitVec 32)) := loadWith m m.bus.load32 address
def load64 (address : BitVec 64) : CpuM T δ (Option (BitVec 64)) := loadWith m m.bus.load64 address

/-! ## Stores -/

/-- The cache is isolated from memory: stores are dropped. -/
def isIsolated : CpuM T δ Bool :=
  if m.config.hasIsolateCacheBit then do
    let sr ← copRead32Internal m 12
    pure (sr.getLsbD 16)
  else pure false

/-- `Store8` to `Store64`. -/
def storeWith {w : ℕ} (store : δ → BitVec 64 → BitVec w → Served δ Unit)
    (address : BitVec 64) (value : BitVec w) : CpuM T δ Unit := do
  let isolated ← isIsolated m
  if isolated then pure ()
  else do
    let result ← read fun s => translateAddress s.tlb address
    if result.found then
      if result.readOnly then translationFault m (triggerException m) .kTlbMod address
      else do
        emit (.store (w / 8) address)
        access fun d => store d result.address value
    else translationFault m (triggerException m) .kTlbMissStore address

def store8 (address : BitVec 64) (value : BitVec 8) : CpuM T δ Unit :=
  storeWith m m.bus.store8 address value
def store16 (address : BitVec 64) (value : BitVec 16) : CpuM T δ Unit :=
  storeWith m m.bus.store16 address value
def store32 (address : BitVec 64) (value : BitVec 32) : CpuM T δ Unit :=
  storeWith m m.bus.store32 address value
def store64 (address : BitVec 64) (value : BitVec 64) : CpuM T δ Unit :=
  storeWith m m.bus.store64 address value

end MipsBase

end NgMips
