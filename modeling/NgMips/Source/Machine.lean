import NgMips.Source.Run

/-!
# A small machine

Parts to build a processor that runs: a memory of words, and a coprocessor that halts the
processor when it is written.  Memory is a list of address and word, the newest write first,
so that programs of a few instructions can be evaluated.
-/

namespace NgMips

/-- A memory of words at physical addresses; what was never written reads as zero. -/
abbrev WordMemory : Type := List (BitVec 64 × BitVec 32)

def WordMemory.read (mem : WordMemory) (address : BitVec 64) : BitVec 32 :=
  (mem.lookup address).getD 0

/-- The bus of the memory: words can be fetched, loaded and stored; nothing else is there. -/
def wordBus : BusBase WordMemory where
  fetch mem address := (mem.read address, mem)
  load8 mem _ := ⟨none, mem, []⟩
  load16 mem _ := ⟨none, mem, []⟩
  load32 mem address := ⟨some (mem.read address), mem, []⟩
  load64 mem _ := ⟨none, mem, []⟩
  store8 mem _ _ := ⟨(), mem, []⟩
  store16 mem _ _ := ⟨(), mem, []⟩
  store32 mem address value := ⟨(), (address, value) :: mem, []⟩
  store64 mem _ _ := ⟨(), mem, []⟩
  getInterrupt _ := false

lemma wordBus_fetchPure : wordBus.FetchPure := fun _ _ => rfl

/-- A coprocessor whose registers halt the processor when they are written. -/
def haltingCop : MipsCopBase WordMemory where
  reset mem _ := mem
  command mem _ _ := ⟨(), mem, []⟩
  read32 mem _ _ := ⟨0, mem, []⟩
  write32 mem _ _ _ := ⟨(), mem, [.setHalt true]⟩
  read64 mem _ _ := ⟨0, mem, []⟩
  write64 mem _ _ _ := ⟨(), mem, [.setHalt true]⟩
  read32Internal _ _ := 0
  write32Internal mem _ _ := mem
  write64Internal mem _ _ := mem
  getFlag _ _ := false

/-- A floating-point format in which every number is zero. -/
def zeroFloat (w : ℕ) : FloatOps w where
  add _ _ := 0
  sub _ _ := 0
  mul _ _ := 0
  div _ _ := 0
  sqrt _ := 0
  abs _ := 0
  neg _ := 0
  round _ := 0
  trunc _ := 0
  ceil _ := 0
  floor _ := 0
  nearbyint _ := 0
  lt _ _ := false
  eq _ _ := true
  isNan _ := false
  toI32 _ := 0
  toI64 _ := 0
  ofI32 _ := 0
  ofI64 _ := 0
  twoPow31 := 0
  negTwoPow31 := 0
  twoPow63 := 0
  negTwoPow63 := 0

/-- The main processor on the memory, with the halting coprocessor in slot 2. -/
def n64Setup (config : MipsConfig) : MipsSetup WordMemory where
  kIs64Bit := true
  kHasCop0 := true
  config := config
  connected copId := copId == 2
  bus := wordBus
  cop := haltingCop
  float := ⟨zeroFloat 32, zeroFloat 64, fun _ => 0, fun _ => 0⟩
  ord := .vector

lemma n64Setup_isN64 (config : MipsConfig) : (n64Setup config).IsN64 := ⟨rfl, rfl, rfl⟩

/-- The second processor on the memory: no coprocessor 0, 32-bit registers, predecoded
blocks. -/
def rspSetup : MipsSetup WordMemory :=
  { n64Setup { useCachedInterpreter := true } with kIs64Bit := false, kHasCop0 := false }

/-- A coprocessor that does nothing. -/
def silentCop (δ : Type) : MipsCopBase δ where
  reset d _ := d
  command d _ _ := ⟨(), d, []⟩
  read32 d _ _ := ⟨0, d, []⟩
  write32 d _ _ _ := ⟨(), d, []⟩
  read64 d _ _ := ⟨0, d, []⟩
  write64 d _ _ _ := ⟨(), d, []⟩
  read32Internal _ _ := 0
  write32Internal d _ _ := d
  write64Internal d _ _ := d
  getFlag _ _ := false

/-- The main processor on a bus, with nothing else connected. -/
def bareSetup {δ : Type} (bus : BusBase δ) (config : MipsConfig) : MipsSetup δ where
  kIs64Bit := true
  kHasCop0 := true
  config := config
  connected _ := false
  bus := bus
  cop := silentCop δ
  float := ⟨zeroFloat 32, zeroFloat 64, fun _ => 0, fun _ => 0⟩
  ord := .vector

lemma bareSetup_isN64 {δ : Type} (bus : BusBase δ) (config : MipsConfig) :
    (bareSetup bus config).IsN64 := ⟨rfl, rfl, rfl⟩

/-- A processor at `pc` with a program in memory, the first word at physical address
`start`. -/
def programState (pc start : BitVec 64) (program : List (BitVec 32)) :
    MipsBase MipsTlbNormal WordMemory :=
  { tlb := {}
    pc := pc
    nextPc := pc + 4
    device := program.mapIdx fun i word => (start + BitVec.ofNat 64 (4 * i), word) }

/-- The main processor with exceptions. -/
def exceptionSetup : MipsSetup WordMemory := n64Setup { hasException := true }

/-- The main processor with the cached interpreter. -/
def cachedSetup : MipsSetup WordMemory := n64Setup { useCachedInterpreter := true }

/-- The main processor with exceptions and the cached interpreter. -/
def MipsBase.cachedExceptionSetup : MipsSetup WordMemory :=
  n64Setup { hasException := true, useCachedInterpreter := true }

/-- What a computation returns. -/
def returnedValue {T δ α : Type} (x : CpuM T δ α) (s : MipsBase T δ) : Option α :=
  match x s with
  | .ok r => some r.1
  | .error _ => none

/-- The last state of a computation; the first one when it stops. -/
def lastState {T δ α : Type} (x : CpuM T δ α) (s : MipsBase T δ) : MipsBase T δ :=
  match x s with
  | .ok r => r.2
  | .error _ => s

/-- Why a computation stops. -/
def stopped {T δ α : Type} (x : CpuM T δ α) (s : MipsBase T δ) : Option Stop :=
  match x s with
  | .ok _ => none
  | .error e => some e

lemma run_of_stopped {T δ α : Type} {x : CpuM T δ α} {s : MipsBase T δ} {e : Stop}
    (h : stopped x s = some e) : x s = .error e := by
  rw [stopped] at h
  cases hx : x s with
  | ok r =>
      rw [hx] at h
      exact absurd h (by simp)
  | error e' =>
      rw [hx] at h
      exact congrArg Except.error (Option.some.inj h)

lemma run_of_returned {T δ α : Type} {x : CpuM T δ α} {s : MipsBase T δ} {a : α}
    (h : returnedValue x s = some a) : x s = .ok (a, lastState x s) := by
  rw [returnedValue] at h
  rw [lastState]
  cases hx : x s with
  | ok r =>
      rw [hx] at h
      exact congrArg Except.ok (Prod.ext (Option.some.inj h) rfl)
  | error e =>
      rw [hx] at h
      exact absurd h (by simp)

end NgMips
