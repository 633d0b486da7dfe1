import Mathlib.Data.BitVec
import Mathlib.Data.List.FinRange
import Mathlib.Logic.Function.Basic

/-!
# The two translation units

`MipsTlbBase` is the interface the processor uses.  `MipsTlbNormal` holds 32 entries and
the registers that COP0 writes into them; `MipsTlbDummy` translates every address to
itself.  The scan of `TranslateAddress` skips an entry that matches but whose selected half
is not valid, so it is the first entry with a *valid* match that counts.
-/

namespace NgMips

structure MipsTlbEntry where
  entryLo0 : BitVec 64 := 0
  entryLo1 : BitVec 64 := 0
  entryHi : BitVec 64 := 0
  pageMask : BitVec 64 := 0
deriving DecidableEq, Repr

structure MipsTlbTranslationResult where
  found : Bool
  readOnly : Bool
  address : BitVec 64
deriving DecidableEq, Repr

/-- What the processor, COP0 and the block cache ask of a translation unit. -/
class MipsTlbBase (T : Type) where
  reset : T → T
  translateAddress : T → BitVec 64 → MipsTlbTranslationResult
  getTlbEntry : T → Fin 32 → MipsTlbEntry
  setTlbEntry : T → Fin 32 → MipsTlbEntry → T
  getEntryHi : T → BitVec 64
  setEntryHi : T → BitVec 64 → T
  getEntryLo0 : T → BitVec 64
  setEntryLo0 : T → BitVec 64 → T
  getEntryLo1 : T → BitVec 64
  setEntryLo1 : T → BitVec 64 → T
  getPageMask : T → BitVec 64
  setPageMask : T → BitVec 64 → T
  getIndex : T → BitVec 32
  setIndex : T → BitVec 32 → T
  informTlbException : T → BitVec 64 → T
  probeTlbEntry : T → BitVec 32

export MipsTlbBase (translateAddress informTlbException)

/-! ## Segments -/

def isKseg0 (address : BitVec 64) : Bool :=
  decide (0x80000000#64 ≤ address) && decide (address < 0xA0000000#64)

def isKseg1 (address : BitVec 64) : Bool :=
  decide (0xA0000000#64 ≤ address) && decide (address < 0xC0000000#64)

/-- The low word of an address lies in one of the two unmapped segments. -/
def inKseg (address : BitVec 64) : Bool :=
  isKseg0 (address &&& 0xFFFFFFFF) || isKseg1 (address &&& 0xFFFFFFFF)

/-- The physical address of an unmapped address. -/
def ksegPhysical (address : BitVec 64) : BitVec 64 := address &&& 0x1FFFFFFF

/-! ## The translation unit with 32 entries -/

structure MipsTlbNormal where
  entry : Fin 32 → MipsTlbEntry := fun _ => {}
  entryHi : BitVec 64 := 0
  entryLo0 : BitVec 64 := 0
  entryLo1 : BitVec 64 := 0
  pageMask : BitVec 64 := 0
  index : BitVec 32 := 0

namespace MipsTlbEntry

variable (entry : MipsTlbEntry) (entryHi address : BitVec 64)

/-- The address bits the entry is compared on. -/
def mask : BitVec 64 := ~~~entry.pageMask &&& 0xFFFFE000

def asidMatch : Bool := entry.entryHi &&& 0xFF == entryHi &&& 0xFF

def vpnMatch : Bool := entry.entryHi &&& entry.mask == address &&& entry.mask

def gBit : Bool := entry.entryLo0 &&& 1 != 0

/-- The test of `TranslateAddress`: the page number agrees outside the page mask, and the
entry is global or belongs to the current address space. -/
def matchesAddress : Bool :=
  entry.vpnMatch address && (entry.gBit || entry.asidMatch entryHi)

/-- The address bit that selects the half of the entry. -/
def oddMask : BitVec 32 := (((entry.pageMask ||| 0x1FFF) + 1) >>> 1).setWidth 32

/-- The half of the entry that translates the address. -/
def selectLo : BitVec 64 :=
  if address &&& entry.oddMask.setWidth 64 != 0 then entry.entryLo1 else entry.entryLo0

/-- The body of the scan: `none` moves on to the next entry. -/
def translate : Option MipsTlbTranslationResult :=
  if entry.matchesAddress entryHi address then
    let entryLo := entry.selectLo address
    let vBit := entryLo &&& 2 != 0
    let dBit := entryLo &&& 4 != 0
    -- The scan goes on: an entry that is not valid hides nothing.
    if !vBit then none
    else
      let offsetMask : BitVec 32 := entry.oddMask - 1
      let pfnOffset : BitVec 32 := ((entryLo &&& 0x03FFFFC0) <<< 6).setWidth 32
      some {
        found := true
        readOnly := !dBit
        address := (pfnOffset &&& ~~~offsetMask).setWidth 64 |||
          (address &&& offsetMask.setWidth 64) }
  else none

/-- The test of `ProbeTlbEntry`. -/
def matchesProbe : Bool :=
  -- Neither the page mask nor the four upper bits of the page number are compared.
  entry.entryHi &&& 0xFFFE000 == entryHi &&& 0xFFFE000 &&
    (entry.entryLo0 &&& entry.entryLo1 &&& 1 != 0 || entry.asidMatch entryHi)

end MipsTlbEntry

namespace MipsTlbNormal

variable (tlb : MipsTlbNormal)

/-- `Reset` clears the entries and leaves the registers alone. -/
def reset : MipsTlbNormal := { tlb with entry := fun _ => {} }

def translateAddress (address : BitVec 64) : MipsTlbTranslationResult :=
  let address := address &&& 0xFFFFFFFF
  if isKseg0 address || isKseg1 address then
    { found := true, readOnly := false, address := address &&& 0x1FFFFFFF }
  else
    ((List.finRange 32).findSome? fun i => (tlb.entry i).translate tlb.entryHi address).getD
      { found := false, readOnly := false, address := 0 }

def setTlbEntry (idx : Fin 32) (entry : MipsTlbEntry) : MipsTlbNormal :=
  -- The entry is global when both halves are, and says so in both.
  let gBit := entry.entryLo0 &&& entry.entryLo1 &&& 1 != 0
  let stored :=
    if gBit then
      { entry with entryLo0 := entry.entryLo0 ||| 1, entryLo1 := entry.entryLo1 ||| 1 }
    else
      { entry with entryLo0 := entry.entryLo0 &&& ~~~1, entryLo1 := entry.entryLo1 &&& ~~~1 }
  { tlb with entry := Function.update tlb.entry idx stored }

def setEntryHi (value : BitVec 64) : MipsTlbNormal :=
  { tlb with entryHi := value &&& 0xFFFFE0FF }

def setPageMask (value : BitVec 64) : MipsTlbNormal :=
  { tlb with pageMask := value &&& 0x1FFE000 }

def setIndex (value : BitVec 32) : MipsTlbNormal :=
  { tlb with index := value &&& 0x3F }

/-- The miss leaves the address space identifier and takes the page number of the faulting
address. -/
def informTlbException (address : BitVec 64) : MipsTlbNormal :=
  { tlb with entryHi := (address &&& 0xFFFE000) ||| (tlb.entryHi &&& 0xFF) }

/-- The marker of a failed probe. -/
def probeMiss : BitVec 32 := 0x80000000

/-- What a probe returns for the entry it found. -/
def probeResult : Option (Fin 32) → BitVec 32
  | some i => BitVec.ofNat 32 i
  | none => probeMiss

def probeTlbEntry : BitVec 32 :=
  probeResult ((List.finRange 32).find? fun i => (tlb.entry i).matchesProbe tlb.entryHi)

instance : MipsTlbBase MipsTlbNormal where
  reset := reset
  translateAddress := translateAddress
  getTlbEntry tlb idx := tlb.entry idx
  setTlbEntry := setTlbEntry
  getEntryHi := entryHi
  setEntryHi := setEntryHi
  getEntryLo0 := entryLo0
  setEntryLo0 tlb value := { tlb with entryLo0 := value }
  getEntryLo1 := entryLo1
  setEntryLo1 tlb value := { tlb with entryLo1 := value }
  getPageMask := pageMask
  setPageMask := setPageMask
  getIndex := index
  setIndex := setIndex
  informTlbException := informTlbException
  probeTlbEntry := probeTlbEntry

end MipsTlbNormal

/-! ## The translation unit of the second processor -/

/-- The translation unit without entries: it has no state. -/
structure MipsTlbDummy where

instance : MipsTlbBase MipsTlbDummy where
  reset tlb := tlb
  translateAddress _ address := { found := true, readOnly := false, address := address }
  getTlbEntry _ _ := {}
  setTlbEntry tlb _ _ := tlb
  getEntryHi _ := 0
  setEntryHi tlb _ := tlb
  getEntryLo0 _ := 0
  setEntryLo0 tlb _ := tlb
  getEntryLo1 _ := 0
  setEntryLo1 tlb _ := tlb
  getPageMask _ := 0
  setPageMask tlb _ := tlb
  getIndex _ := 0
  setIndex tlb _ := tlb
  informTlbException tlb _ := tlb
  probeTlbEntry _ := MipsTlbNormal.probeMiss

/-! ## Translation of unmapped addresses -/

namespace MipsTlbNormal

variable (tlb : MipsTlbNormal) {address : BitVec 64}

lemma translateAddress_eq : MipsTlbBase.translateAddress tlb address =
    tlb.translateAddress address := rfl

/-- Unmapped addresses are translated without looking at the entries. -/
lemma translateAddress_of_inKseg (h : inKseg address) :
    tlb.translateAddress address =
      { found := true, readOnly := false, address := ksegPhysical address } := by
  have hmask : address &&& 0xFFFFFFFF &&& 0x1FFFFFFF = ksegPhysical address := by
    rw [ksegPhysical, BitVec.and_assoc]
    rfl
  simp only [inKseg] at h
  simp only [translateAddress, h, if_true, hmask]

/-- Translation looks at the low word of the address only. -/
lemma translateAddress_congr {a b : BitVec 64} (h : a &&& 0xFFFFFFFF = b &&& 0xFFFFFFFF) :
    tlb.translateAddress a = tlb.translateAddress b := by
  simp only [translateAddress, h]

end MipsTlbNormal

end NgMips
