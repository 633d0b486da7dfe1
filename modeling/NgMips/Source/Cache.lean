import NgMips.Lib.DenseMap
import NgMips.Source.Decode
import NgMips.Source.Tlb
import Mathlib.Data.List.Sort

/-!
# The block cache

`MipsCache` keeps the decoded blocks of the cached interpreter in a map from physical
address to block, with a direct-mapped array of pointers into that map in front of it.
Invalidation is only recorded; `executeCacheClear` applies it.

A pointer into the map is a position in its vector.  The functions that walk over the map
do so in an order the map chooses, an `IterOrder`; the map itself walks over its vector from
front to back.
-/

namespace NgMips

/-- One predecoded instruction: the handler is named by the instruction it implements. -/
structure MipsCacheEntry where
  address : BitVec 32
  opcode : BitVec 32
  func : MipsInstId
deriving DecidableEq, Repr

/-- A block; its length is the number of its entries. -/
structure MipsCacheBlock where
  start : BitVec 32
  end_ : BitVec 32
  entries : List MipsCacheEntry
deriving DecidableEq, Repr

namespace MipsCacheBlock

variable (b : MipsCacheBlock)

def length : ℕ := b.entries.length

/-- The key under which the block is stored. -/
def key : BitVec 64 := b.start.setWidth 64

/-- The test for an address in a block. -/
def covers (address : BitVec 64) : Bool :=
  decide (b.start.setWidth 64 ≤ address) && decide (address < b.end_.setWidth 64)

/-- The test for a block that meets a range of addresses. -/
def meets (physStart physEnd : BitVec 64) : Bool :=
  decide (b.start.setWidth 64 < physEnd) && decide (physStart < b.end_.setWidth 64)

end MipsCacheBlock

def kCacheBlockMaxLength : ℕ := 64

/-- The map from physical address to block, an `ankerl::unordered_dense::map`.  Its code is a
submodule outside of the repository.  What is taken from its documentation is that it is a finite
map, that an insertion appends to the vector of values, and that an erasure moves the last value
into the gap. -/
abbrev BlockMap : Type := DenseMap (BitVec 64) MipsCacheBlock

/-- The order in which a walk over the map meets its elements: any permutation. -/
structure IterOrder where
  order : List (BitVec 64 × MipsCacheBlock) → List (BitVec 64 × MipsCacheBlock)
  perm : ∀ l, (order l).Perm l

/-- The order of the vector. -/
def IterOrder.vector : IterOrder := ⟨id, fun _ => .refl _⟩

lemma IterOrder.mem_iff (ord : IterOrder) {l : List (BitVec 64 × MipsCacheBlock)}
    {e : BitVec 64 × MipsCacheBlock} : e ∈ ord.order l ↔ e ∈ l := (ord.perm l).mem_iff

structure LookupCacheEntry where
  address : BitVec 64 := 0
  block : Option ℕ := none
deriving DecidableEq, Repr

structure MipsCache where
  cache : BlockMap := .empty
  /-- The queued start addresses, in ascending order. -/
  pendingInvalidations : List (BitVec 64) := []
  fullClearQueued : Bool := false
  hasPendingWork : Bool := false
  lookupCache : Fin 64 → LookupCacheEntry := fun _ => {}

/-- Insertion into an ascending list without repetitions. -/
def insertPending (address : BitVec 64) : List (BitVec 64) → List (BitVec 64)
  | [] => [address]
  | a :: l =>
      if address < a then address :: a :: l
      else if address = a then a :: l
      else a :: insertPending address l

/-- The slot of an address in the array of pointers. -/
def lookupIdx (address : BitVec 64) : Fin 64 :=
  Fin.ofNat 64 ((address >>> 2) &&& 63).toNat

namespace MipsCache

variable {T : Type} [MipsTlbBase T] (ord : IterOrder) (tlb : T) (c : MipsCache)

def reset : MipsCache where
  fullClearQueued := false
  hasPendingWork := false
  pendingInvalidations := []
  cache := .empty
  lookupCache := fun _ => {}

/-- The physical address `GetBlock` looks for. -/
def physicalKey (address : BitVec 64) : Option (BitVec 64) :=
  let address := address &&& 0xFFFFFFFF
  if isKseg0 address || isKseg1 address then some (address &&& 0x1FFFFFFF)
  else
    let result := translateAddress tlb address
    if !result.found then none else some result.address

/-- The part of `GetBlock` that follows the translation. -/
def lookupBlock (address : BitVec 64) : Option ℕ × MipsCache :=
  let idx := lookupIdx address
  -- A slot whose block was erased keeps the address, without a pointer.
  if (c.lookupCache idx).address = address ∧ (c.lookupCache idx).block ≠ none then
    ((c.lookupCache idx).block, c)
  else
    match c.cache.find address with
    | some i =>
        (some i, { c with
          lookupCache := Function.update c.lookupCache idx ⟨address, some i⟩ })
    | none => (none, c)

def getBlock (address : BitVec 64) : Option ℕ × MipsCache :=
  match physicalKey tlb address with
  | none => (none, c)
  | some address => c.lookupBlock address

/-- The block with its range moved to physical addresses. -/
def placeBlock (block : MipsCacheBlock) : Option MipsCacheBlock :=
  -- Only the start is translated; the range keeps its length.
  let result := translateAddress tlb (block.start.setWidth 64)
  if !result.found then none
  else
    let offset := (block.end_ - block.start).setWidth 64
    some { block with
      start := result.address.setWidth 32
      end_ := (result.address + offset).setWidth 32 }

def insertBlock (block : MipsCacheBlock) : MipsCache :=
  match placeBlock tlb block with
  | none => c
  | some blockCopy =>
      { c with
        cache := c.cache.insert blockCopy.key blockCopy
        lookupCache := fun i => { c.lookupCache i with block := none } }

/-- Queue the block that starts at `start`. -/
def queueStart (start : BitVec 64) : MipsCache :=
  { c with
    pendingInvalidations := insertPending start c.pendingInvalidations
    hasPendingWork := true }

def invalidateBlock (address : BitVec 64) : MipsCache :=
  let result := translateAddress tlb address
  if !result.found then c
  else
    let address := result.address
    if c.cache.find address ≠ none then c.queueStart address
    else if address ∈ c.pendingInvalidations then c
    else
      -- No block starts here, but one may contain the address.
      match (ord.order c.cache.values).find? fun e => e.2.covers address with
      | some e => c.queueStart e.2.key
      | none => c

def invalidateBlockRange (start end_ : BitVec 64) : MipsCache :=
  let result := translateAddress tlb start
  if !result.found then c
  else
    let physStart := result.address
    let physEnd := physStart + (end_ - start)
    (ord.order c.cache.values).foldl
      (fun c e => if e.2.meets physStart physEnd then c.queueStart e.2.key else c) c

def queueCacheClear : MipsCache :=
  { c with fullClearQueued := true, hasPendingWork := true }

/-- One round of `ExecuteCacheClear`: erase the first block met that contains a queued
address. -/
def clearOne (address : BitVec 64) : MipsCache :=
  match (ord.order c.cache.values).find? fun e => e.2.covers address with
  | none => c
  | some e =>
      -- Only the slot of the erased block is cleared, not that of the block that takes its place.
      let invIdx := lookupIdx e.2.key
      let lookup :=
        if (c.lookupCache invIdx).address = e.2.key then
          Function.update c.lookupCache invIdx { c.lookupCache invIdx with block := none }
        else c.lookupCache
      { c with cache := c.cache.erase e.1, lookupCache := lookup }

def executeCacheClear : MipsCache :=
  if c.fullClearQueued then
    { c with
      cache := .empty
      pendingInvalidations := []
      fullClearQueued := false
      hasPendingWork := false
      lookupCache := fun _ => {} }
  else if c.pendingInvalidations ≠ [] then
    { c.pendingInvalidations.foldl (clearOne ord) c with
      pendingInvalidations := []
      hasPendingWork := false }
  else c

/-- The element a pointer into the map denotes, when it is a live one. -/
def deref (i : ℕ) : Option MipsCacheBlock := (c.cache.values[i]?).map Prod.snd

end MipsCache

end NgMips
