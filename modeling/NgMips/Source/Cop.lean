import NgMips.Source.Exception

/-!
# The coprocessor ports

What `Command`, `Read32`, `Write32`, `Read64`, `Write64` and `GetFlag` do in each of the four
slots.  The ports of coprocessor 0 reach the translation unit and the program counter of the
processor; reading `Random` loops until the generator yields a number that is not wired.
-/

namespace NgMips

/-! ## The random number generator -/

def xorshift (state : BitVec 32) : BitVec 32 :=
  let state := state ^^^ (state <<< 13)
  let state := state ^^^ (state >>> 17)
  state ^^^ (state <<< 5)

/-- The loop behind `Random`: the number found and the state it was found in. -/
def randomLoop (wired : BitVec 32) : ℕ → BitVec 32 → Option (BitVec 32 × BitVec 32)
  | 0, _ => none
  | n + 1, state =>
      let state := xorshift state
      let rn := state &&& 0x1F
      if wired ≤ rn then some (rn, state) else randomLoop wired n state

namespace MipsBase

variable {T δ : Type} [MipsTlbBase T] (m : MipsSetup δ)

/-- The loop has seen every state of the generator after `2 ^ 32` rounds. -/
def readRandom : CpuM T δ (BitVec 32) := fun s =>
  match randomLoop s.cop0.wired (2 ^ 32) s.xorshiftState with
  | some (rn, state) => .ok (rn, { s with xorshiftState := state })
  | none => .error .hang

/-! ## Coprocessor 0 -/

/-- The number of an entry in a register: `value & 31`. -/
def entryIndex (value : BitVec 32) : Fin 32 := Fin.ofNat 32 (value &&& 31).toNat

def modifyTlb (f : T → T) : CpuM T δ Unit := modify fun s => { s with tlb := f s.tlb }

/-- The entry made of the translation registers. -/
def currentEntry (tlb : T) : MipsTlbEntry where
  entryLo0 := MipsTlbBase.getEntryLo0 tlb
  entryLo1 := MipsTlbBase.getEntryLo1 tlb
  entryHi := MipsTlbBase.getEntryHi tlb
  pageMask := MipsTlbBase.getPageMask tlb

/-- `TLBR`. -/
def tlbRead (tlb : T) : T :=
  let entry := MipsTlbBase.getTlbEntry tlb (entryIndex (MipsTlbBase.getIndex tlb))
  let tlb := MipsTlbBase.setEntryLo0 tlb entry.entryLo0
  let tlb := MipsTlbBase.setEntryLo1 tlb entry.entryLo1
  let tlb := MipsTlbBase.setEntryHi tlb entry.entryHi
  MipsTlbBase.setPageMask tlb entry.pageMask

/-- `TLBWI` and `TLBWR`: write the translation registers into an entry. -/
def tlbWrite (idx : BitVec 32) (tlb : T) : T :=
  MipsTlbBase.setTlbEntry tlb (entryIndex idx) (currentEntry tlb)

/-- `TLBP`. -/
def tlbProbe (tlb : T) : T := MipsTlbBase.setIndex tlb (MipsTlbBase.probeTlbEntry tlb)

/-- `RFE`: pop the mode bits of the 32-bit processor. -/
def returnFromException : CpuM T δ Unit :=
  setCop0 fun _ cop0 =>
    { cop0 with sr := (cop0.sr &&& ~~~0x0F#32) ||| (((cop0.sr &&& 0x3F) >>> 2) &&& 0xF) }

/-- `ERET`. -/
def eret : CpuM T δ Unit := do
  let cop0 ← read MipsBase.cop0
  -- `EXL` is not looked at: without `ERL` this returns from an exception.
  if cop0.erl then do
    setCop0 fun _ cop0 => { cop0 with sr := cop0.sr &&& ~~~4#32 }
    setPcDuringInst cop0.errorEpc
  else do
    setCop0 fun _ cop0 => { cop0 with sr := cop0.sr &&& ~~~2#32 }
    setPcDuringInst cop0.epc
  setLlbit false

def cop0Command (command : BitVec 32) : CpuM T δ Unit :=
  match functField command with
  | 0x01#6 => modifyTlb tlbRead
  | 0x02#6 => modifyTlb fun tlb => tlbWrite (MipsTlbBase.getIndex tlb) tlb
  | 0x06#6 => do
      let rn ← readRandom
      modifyTlb (tlbWrite rn)
  | 0x08#6 => modifyTlb tlbProbe
  | 0x10#6 => returnFromException
  | 0x18#6 => eret
  | _ => pure ()

/-- `Read64`; `Read32` returns its low word. -/
def cop0Read64 (idx : ℕ) : CpuM T δ (BitVec 64) :=
  match idx with
  | 0 => read fun s => (MipsTlbBase.getIndex s.tlb).setWidth 64
  | 1 => do
      let rn ← readRandom
      pure (rn.setWidth 64)
  | 2 => read fun s => MipsTlbBase.getEntryLo0 s.tlb
  | 3 => read fun s => MipsTlbBase.getEntryLo1 s.tlb
  | 4 => read fun s => s.cop0.context
  | 5 => read fun s => MipsTlbBase.getPageMask s.tlb
  | 6 => read fun s => s.cop0.wired.setWidth 64
  | 8 => read fun s => s.cop0.badvaddr
  | 9 => do
      let count ← onCop0 fun ts cop0 => cop0.getCount ts
      pure (count.setWidth 64)
  | 10 => read fun s => MipsTlbBase.getEntryHi s.tlb
  | 11 => read fun s => s.cop0.compare.setWidth 64
  | 12 => read fun s => s.cop0.sr.setWidth 64
  | 13 => read fun s => s.cop0.cause.setWidth 64
  | 14 => read fun s => s.cop0.epc
  | 15 => pure 2
  | 30 => read fun s => s.cop0.errorEpc
  | _ => pure 0

def cop0Read32 (idx : ℕ) : CpuM T δ (BitVec 32) := do
  let value ← cop0Read64 idx
  pure (value.setWidth 32)

/-- A write through the port; `context` is what a write to `Context` stores. -/
def cop0Write (context : BitVec 64) (idx : ℕ) (value : BitVec 64) : CpuM T δ Unit :=
  match idx with
  | 0 => modifyTlb fun tlb => MipsTlbBase.setIndex tlb (value.setWidth 32)
  | 2 => modifyTlb fun tlb => MipsTlbBase.setEntryLo0 tlb value
  | 3 => modifyTlb fun tlb => MipsTlbBase.setEntryLo1 tlb value
  | 4 => setCop0 fun _ cop0 => { cop0 with context := context }
  | 5 => modifyTlb fun tlb => MipsTlbBase.setPageMask tlb value
  | 6 => setCop0 fun _ cop0 => { cop0 with wired := value.setWidth 32 }
  | 8 => setCop0 fun _ cop0 => { cop0 with badvaddr := value }
  | 9 => setCop0 fun ts cop0 => cop0.writeCount ts (value.setWidth 32)
  | 10 => modifyTlb fun tlb => MipsTlbBase.setEntryHi tlb value
  -- The line is dropped, but `Cause` keeps showing it.
  | 11 => do
      setCop0 fun _ cop0 => cop0.writeCompare (value.setWidth 32)
      clearCompareInterrupt
  | 12 => setCop0 fun _ cop0 => { cop0 with sr := value.setWidth 32 }
  -- Only the two software interrupts can be written.
  | 13 => setCop0 fun _ cop0 =>
      { cop0 with cause := (cop0.cause &&& ~~~0x300#32) ||| (value.setWidth 32 &&& 0x300) }
  | 14 => setCop0 fun _ cop0 => { cop0 with epc := value }
  | 30 => setCop0 fun _ cop0 => { cop0 with errorEpc := value }
  | _ => pure ()

def cop0Write32 (idx : ℕ) (value : BitVec 32) : CpuM T δ Unit :=
  cop0Write ((value &&& 0xFFFFFFF0).setWidth 64) idx (value.setWidth 64)

def cop0Write64 (idx : ℕ) (value : BitVec 64) : CpuM T δ Unit := cop0Write value idx value

/-! ## The floating-point unit -/

/-- `GetFr`. -/
def getFr : CpuM T δ Bool := do
  let sr ← copRead32Internal m 12
  pure (sr.getLsbD 26)

/-- Replace the registers of the floating-point unit. -/
def setFpu (f : MipsFpu → Except Stop MipsFpu) : CpuM T δ Unit := fun s =>
  (f s.fpu).map fun fpu => ((), { s with fpu := fpu })

/-! ## The ports of the four slots -/

def copCommand (copId : BitVec 2) (command : BitVec 32) : CpuM T δ Unit :=
  match m.slot copId with
  | .cop0 => cop0Command command
  | .fpu => do
      let fr ← getFr m
      setFpu fun fpu => fpu.command m.float fr command
  | .device => access fun d => m.cop.command d copId command
  | .dummy => pure ()

def copRead32 (copId : BitVec 2) (idx : ℕ) : CpuM T δ (BitVec 32) :=
  match m.slot copId with
  | .cop0 => cop0Read32 idx
  | .fpu => do
      let fr ← getFr m
      read fun s => s.fpu.read32 fr idx
  | .device => access fun d => m.cop.read32 d copId idx
  | .dummy => pure 0

def copWrite32 (copId : BitVec 2) (idx : ℕ) (value : BitVec 32) : CpuM T δ Unit :=
  match m.slot copId with
  | .cop0 => cop0Write32 idx value
  | .fpu => do
      let fr ← getFr m
      setFpu fun fpu => .ok (fpu.write32 fr idx value)
  | .device => access fun d => m.cop.write32 d copId idx value
  | .dummy => pure ()

def copRead64 (copId : BitVec 2) (idx : ℕ) : CpuM T δ (BitVec 64) :=
  match m.slot copId with
  | .cop0 => cop0Read64 idx
  | .fpu => do
      let fr ← getFr m
      read fun s => s.fpu.read64 fr idx
  | .device => access fun d => m.cop.read64 d copId idx
  | .dummy => pure 0

def copWrite64 (copId : BitVec 2) (idx : ℕ) (value : BitVec 64) : CpuM T δ Unit :=
  match m.slot copId with
  | .cop0 => cop0Write64 idx value
  | .fpu => do
      let fr ← getFr m
      setFpu fun fpu => .ok (fpu.write64 fr idx value)
  | .device => access fun d => m.cop.write64 d copId idx value
  | .dummy => pure ()

def copGetFlag (copId : BitVec 2) : CpuM T δ Bool :=
  match m.slot copId with
  | .fpu => read fun s => s.fpu.getFlag
  | .device => read fun s => m.cop.getFlag s.device copId
  | _ => pure false

end MipsBase

end NgMips
