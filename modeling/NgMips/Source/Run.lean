import NgMips.Source.Handlers

/-!
# The two interpreters

`runInst` executes one instruction from memory; `runCachedBlock` executes one predecoded
block, building it first when it is not there.  `run` is the loop around either of them.
The loops of the source are bounded by the cycles they are given; the model bounds the
number of rounds and stops with `outOfFuel` when they are used up.
-/

namespace NgMips

/-- The interrupt lines as `Cause.IP` shows them. -/
def interruptPending (cause : BitVec 32) (interrupt compareInterrupt : Bool) : BitVec 8 :=
  ((cause >>> 8) &&& 3).setWidth 8 |||
  (if interrupt then 0x04 else 0) |||
  (if compareInterrupt then 0x80 else 0)

namespace MipsBase

variable {T δ : Type} [MipsTlbBase T] (m : MipsSetup δ)

/-! ## Interrupts -/

def checkInterrupt : CpuM T δ Unit :=
  if m.config.hasException && m.kHasCop0 then do
    let sr ← copRead32Internal m 12
    let cause ← copRead32Internal m 13
    let ip ← read fun s =>
      interruptPending cause (m.bus.getInterrupt s.device) s.compareInterrupt
    -- `IE` is set, `EXL` and `ERL` are clear, and an enabled line is up.
    if sr &&& 7 = 1 ∧ (sr >>> 8).setWidth 8 &&& ip ≠ 0 then triggerException m .kInt
    else pure ()
  else pure ()

def checkCompare : CpuM T δ Unit :=
  if m.kHasCop0 && !m.config.hasIsolateCacheBit then do
    let cause ← copRead32Internal m 13
    let ip ← read fun s =>
      interruptPending cause (m.bus.getInterrupt s.device) s.compareInterrupt
    copWrite32Internal m 13 ((cause &&& ~~~0xFF00#32) ||| (ip.setWidth 32 <<< 8))
    -- The lines are copied before the timer is asked: a line it raises now is not among them.
    let crossed ← copRead32Internal m 128
    if crossed ≠ 0 then do
      modify fun s => { s with compareInterrupt := true }
      checkInterrupt m
    else pure ()
  else pure ()

/-! ## One instruction -/

/-- Where control goes after this instruction; a pending jump is used up. -/
def advance : CpuM T δ Unit :=
  modify fun s =>
    if s.hasBranchDelay then { s with nextPc := s.branchDelayDst, hasBranchDelay := false }
    else { s with nextPc := s.pc + 4 }

/-- Count the cycles of some instructions. -/
def countCycles (executed : ℕ) : CpuM T δ Unit :=
  modify fun s =>
    let cpiCounter := s.cpiCounter + executed * m.config.cpi.toNat
    { s with
      cpiCounter := cpiCounter % 256
      cycleSpent := s.cycleSpent + cpiCounter / 256
      cycleSpentTotal := s.cycleSpentTotal + BitVec.ofNat 64 (cpiCounter / 256) }

/-- Call a handler between telling the observer and setting the program counter. -/
def execute (opcode : BitVec 32) (func : MipsInstId) : CpuM T δ Unit := do
  let pc ← read MipsBase.pc
  emit (.preExecute pc opcode)
  advance
  callInst m opcode func

def runInst : CpuM T δ Unit := do
  let pc ← read MipsBase.pc
  let opcode ← fetch m pc
  execute m opcode (getInstFuncPtr m.kIs64Bit opcode)
  modify fun s => { s with pc := s.nextPc }
  countCycles m 1

/-! ## One block -/

/-- The body of the loop over a block. -/
def runEntry (entry : MipsCacheEntry) : CpuM T δ Unit := do
  execute m entry.opcode entry.func
  -- The loop over a block keeps the low word only, `RunInst` the whole address.
  modify fun s => { s with pc := s.nextPc &&& 0xFFFFFFFF }

/-- The rest of a block: it is left when control went elsewhere.  The result is the number
of instructions executed. -/
def runEntries : List MipsCacheEntry → CpuM T δ ℕ
  | [] => pure 0
  | entry :: rest => do
      let pc ← read MipsBase.pc
      if pc = entry.address.setWidth 64 then do
        runEntry m entry
        let executed ← runEntries rest
        pure (executed + 1)
      else pure 0

/-- The loop over a block; the first entry is executed in any case. -/
def runBlock : List MipsCacheEntry → CpuM T δ ℕ
  | [] => pure 0
  | entry :: rest => do
      runEntry m entry
      let executed ← runEntries m rest
      pure (executed + 1)

/-- Predecode the instruction at an address. -/
def fetchEntry (address : BitVec 64) : CpuM T δ MipsCacheEntry := do
  let opcode ← fetch m address
  pure {
    address := address.setWidth 32
    opcode := opcode
    func := getInstFuncPtr m.kIs64Bit opcode }

/-- Predecode instructions up to the first branch and its delay slot. -/
def collectEntries : ℕ → BitVec 64 → CpuM T δ (List MipsCacheEntry)
  | 0, _ => pure []
  | n + 1, address => do
      let entry ← fetchEntry m address
      if isInstBranch entry.opcode then
        if doesInstHaveDelaySlot entry.opcode then do
          let delaySlotEntry ← fetchEntry m (address + 4)
          pure [entry, delaySlotEntry]
        else pure [entry]
      else do
        let rest ← collectEntries n (address + 4)
        pure (entry :: rest)

/-- The block `OnNewBlock` builds. -/
def buildBlock (address : BitVec 64) : CpuM T δ MipsCacheBlock := do
  -- One entry is kept free for a delay slot.
  let entries ← collectEntries m (kCacheBlockMaxLength - 1) address
  pure {
    start := address.setWidth 32
    end_ := (address + BitVec.ofNat 64 (entries.length * 4)).setWidth 32
    entries := entries }

def onNewBlock (address : BitVec 64) : CpuM T δ Unit := do
  let block ← buildBlock m (address &&& 0xFFFFFFFF)
  modify fun s => { s with cache := s.cache.insertBlock s.tlb block }

/-- `GetBlock` on the program counter. -/
def getBlock : CpuM T δ (Option ℕ) := fun s =>
  let (block, cache) := s.cache.getBlock s.tlb s.pc
  .ok (block, { s with cache := cache })

/-- The block at the program counter, built when it is missing. -/
def getOrBuildBlock : CpuM T δ ℕ := do
  let block ← getBlock
  match block with
  | some i => pure i
  | none => do
      let pc ← read MipsBase.pc
      onNewBlock m pc
      -- The new block is looked up again, under the key that `GetBlock` computes.
      let block ← getBlock
      match block with
      | some i => pure i
      | none => throw (.panic .blockCreationFailed)

/-- Follow a pointer into the map. -/
def derefBlock (i : ℕ) : CpuM T δ MipsCacheBlock := fun s =>
  match s.cache.deref i with
  | some block => .ok (block, s)
  | none => .error .danglingPointer

def executeCacheClear : CpuM T δ Unit :=
  modify fun s =>
    if s.cache.hasPendingWork then { s with cache := s.cache.executeCacheClear m.ord } else s

/-- One round of `RunCached`, after the halt test. -/
def runCachedBlock : CpuM T δ Unit := do
  executeCacheClear m
  let i ← getOrBuildBlock m
  let block ← derefBlock i
  let executed ← runBlock m block.entries
  countCycles m executed

/-! ## The loops -/

def kInterruptCheckInterval : ℕ := 4

/-- Look for interrupts, every fourth round. -/
def poll : CpuM T δ Unit :=
  if m.kHasCop0 then do
    modify fun s => { s with interruptPollCounter := s.interruptPollCounter + 1 }
    let counter ← read MipsBase.interruptPollCounter
    if kInterruptCheckInterval ≤ counter then do
      modify fun s => { s with interruptPollCounter := 0 }
      checkInterrupt m
      checkCompare m
    else pure ()
  else pure ()

/-- A halted processor lets the remaining cycles pass. -/
def passCycles (cycle : ℤ) : CpuM T δ ℤ := do
  let spent ← read MipsBase.cycleSpent
  if (spent : ℤ) < cycle then do
    -- The timestamp moves on, `cycle_spent_` does not.
    modify fun s =>
      { s with cycleSpentTotal := s.cycleSpentTotal + BitVec.ofInt 64 (cycle - spent) }
    pure cycle
  else pure spent

/-- The loop of `Run` and `RunCached`. -/
def runLoop (before step : CpuM T δ Unit) (cycle : ℤ) : ℕ → CpuM T δ ℤ
  | 0 => throw .outOfFuel
  | n + 1 => do
      let spent ← read MipsBase.cycleSpent
      if (spent : ℤ) < cycle then do
        before
        -- The halt flag counts after the poll, and not again before the round ends.
        let halt ← read MipsBase.halt
        if halt then passCycles cycle
        else do
          step
          runLoop before step cycle n
      else pure spent

def runCached (fuel : ℕ) (cycle : ℤ) : CpuM T δ ℤ := do
  modify fun s => { s with cycleSpent := 0 }
  runLoop (poll m) (runCachedBlock m) cycle fuel

def runPlain (fuel : ℕ) (cycle : ℤ) : CpuM T δ ℤ := do
  modify fun s => { s with cycleSpent := 0 }
  checkInterrupt m
  checkCompare m
  runLoop (pure ()) (runInst m) cycle fuel

def run (fuel : ℕ) (cycle : ℤ) : CpuM T δ ℤ :=
  if m.config.useCachedInterpreter then runCached m fuel cycle else runPlain m fuel cycle

/-! ## Reset -/

def resetCop (copId : BitVec 2) (s : MipsBase T δ) : MipsBase T δ :=
  match m.slot copId with
  | .cop0 => { s with cop0 := {} }
  | .fpu => { s with fpu := {} }
  | .device => { s with device := m.cop.reset s.device copId }
  | .dummy => s

/-- `Reset`; the random number generator and the counters of the running loop stay. -/
def reset (s : MipsBase T δ) : MipsBase T δ :=
  let s := { s with
    gpr := fun _ => 0, hi := 0, lo := 0, pc := 0, nextPc := 0, llbit := false
    cycleSpentTotal := 0, cpiCounter := 0
    hasBranchDelay := false, branchDelayDst := 0
    compareInterrupt := false, copCause := 0
    cache := MipsCache.reset, halt := false }
  let s := resetCop m 3 (resetCop m 2 (resetCop m 1 (resetCop m 0 s)))
  { s with tlb := MipsTlbBase.reset s.tlb }

end MipsBase

/-! ## The interface -/

/-- What happens to a processor from outside: a call of its interface, or a change of memory,
devices and the interrupt line between two calls. -/
inductive MipsCall (δ : Type) where
  | setPc (pc : BitVec 64)
  | setPcDuringInst (pc : BitVec 64)
  | setGpr (idx : BitVec 5) (value : BitVec 64)
  | setLlbit (llbit : Bool)
  | setHalt (halt : Bool)
  | clearCompareInterrupt
  | queueCacheClear
  | reset
  | run (fuel : ℕ) (cycle : ℤ)
  | inputs (f : δ → δ)

namespace MipsBase

variable {T δ : Type} [MipsTlbBase T] (m : MipsSetup δ)

/-- One call, with the number of cycles `Run` returns. -/
def perform : MipsCall δ → CpuM T δ (Option ℤ)
  | .setPc pc => do setPc pc; pure none
  | .setPcDuringInst pc => do setPcDuringInst pc; pure none
  | .setGpr idx value => do setGpr idx value; pure none
  | .setLlbit llbit => do setLlbit llbit; pure none
  | .setHalt halt => do setHalt halt; pure none
  | .clearCompareInterrupt => do clearCompareInterrupt; pure none
  | .queueCacheClear => do queueCacheClear; pure none
  | .reset => do modify (reset m); pure none
  | .run fuel cycle => do let spent ← run m fuel cycle; pure (some spent)
  | .inputs f => do modify fun s => { s with device := f s.device }; pure none

/-- A sequence of calls. -/
def performAll : List (MipsCall δ) → CpuM T δ (List (Option ℤ))
  | [] => pure []
  | call :: calls => do
      let spent ← perform m call
      let rest ← performAll calls
      pure (spent :: rest)

end MipsBase

end NgMips
