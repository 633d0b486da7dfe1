import NgMips.Lib.Bytes
import NgMips.Proofs.Step
import NgMips.Proofs.Translation
import NgMips.Source.Machine

/-!
# Unaligned accesses

A word at any address is stored by `SWL` and `SWR` and loaded by `LWL` and `LWR`; `SDL`,
`SDR`, `LDL` and `LDR` do the same for eight bytes.  On a big-endian processor both
instructions of a pair write items of one sequence, the bytes of the register from the most
significant one on, and between them they write all of it: `pair_covers`.
-/

namespace NgMips

/-! ## Memories of bytes -/

/-- As far as the unmapped segments reach, the bus is a memory of bytes. -/
structure BusBase.IsByteMemory {δ : Type} (bus : BusBase δ) (mem : δ → BitVec 64 → BitVec 8) :
    Prop where
  load8 : ∀ d p, p.toNat < 2 ^ 29 →
    (bus.load8 d p).value = some (mem d p) ∧ (bus.load8 d p).calls = [] ∧
      mem (bus.load8 d p).device = mem d
  store8 : ∀ d p byte, p.toNat < 2 ^ 29 →
    (bus.store8 d p byte).calls = [] ∧
      mem (bus.store8 d p byte).device = Function.update (mem d) p byte

lemma byteAt_insertByte {w n : ℕ} (hw : w = n * 8) (value : BitVec w) (byte : BitVec 8) {i : ℕ}
    (hi : i < n) :
    byteAt (insertByte value byte (i * 8)) = Function.update (byteAt value) i byte := by
  have hmask : ∀ t, (BitVec.setWidth w 0xFF#8).getLsbD t = (decide (t < w) && decide (t < 8)) := by
    intro t
    rw [BitVec.getLsbD_setWidth, show (0xFF#8) = BitVec.allOnes 8 from rfl, BitVec.getLsbD_allOnes]
  funext j
  refine BitVec.eq_of_getLsbD_eq fun t ht => ?_
  rw [getLsbD_byteAt, insertByte, BitVec.getLsbD_or, BitVec.getLsbD_and, BitVec.getLsbD_not,
    BitVec.getLsbD_shiftLeft, BitVec.getLsbD_shiftLeft, hmask, BitVec.getLsbD_setWidth]
  by_cases hji : j = i
  · subst hji
    rw [Function.update_self]
    simp [ht, show j * 8 + t < w by omega, show t < w by omega]
  · rw [Function.update_of_ne hji, getLsbD_byteAt]
    rcases Nat.lt_or_gt_of_ne hji with hlt | hgt
    · have hlow : j * 8 + t < i * 8 := by omega
      by_cases hw' : j * 8 + t < w
      · simp [ht, hlow, hw']
      · simp [hw', BitVec.getLsbD_of_ge value _ (not_lt.mp hw')]
    · have hhigh : ¬j * 8 + t < i * 8 := by omega
      have hbyte : ¬j * 8 + t - i * 8 < 8 := by omega
      by_cases hw' : j * 8 + t < w
      · simp [ht, hhigh, hbyte, hw', BitVec.getLsbD_of_ge byte _ (not_lt.mp hbyte)]
      · simp [hw', BitVec.getLsbD_of_ge value _ (not_lt.mp hw')]

namespace MipsBase

variable {δ : Type} {m : MipsSetup δ} {mem : δ → BitVec 64 → BitVec 8}

/-- What `ReadGpr64` reads. -/
def gprValue {T : Type} (m : MipsSetup δ) (idx : BitVec 5) (s : MipsBase T δ) : BitVec 64 :=
  if m.kIs64Bit then s.gpr idx else ((s.gpr idx).setWidth 32).signExtend 64

/-- The address an instruction accesses. -/
def effectiveAddress {T : Type} (m : MipsSetup δ) (opcode : BitVec 32) (s : MipsBase T δ) :
    BitVec 64 :=
  gprValue m (rsField opcode) s + sextItypeImmI64 opcode

lemma effectiveAddress_congr {T : Type} {opcode : BitVec 32} {s t : MipsBase T δ}
    (h : t.gpr (rsField opcode) = s.gpr (rsField opcode)) :
    effectiveAddress m opcode t = effectiveAddress m opcode s := by
  rw [effectiveAddress, effectiveAddress, gprValue, gprValue, h]

/-- Stores do not reach memory. -/
def isolated {T : Type} (m : MipsSetup δ) (s : MipsBase T δ) : Bool :=
  m.config.hasIsolateCacheBit && s.cop0.sr.getLsbD 16

lemma isIsolated_run {T : Type} (hm : m.IsN64) (s : MipsBase T δ) :
    isIsolated m s = .ok (isolated m s, s) := by
  rw [isIsolated, isolated]
  cases m.config.hasIsolateCacheBit with
  | false => rfl
  | true =>
      rw [if_pos rfl, Prog.bind_of_ok (copRead32Internal_status hm s), Bool.true_and]
      rfl

/-- The registers, the status and the bytes in memory are as they were. -/
structure Between {T : Type} (mem : δ → BitVec 64 → BitVec 8) (s t : MipsBase T δ) : Prop where
  gpr : t.gpr = s.gpr
  status : t.cop0.sr = s.cop0.sr
  memory : mem t.device = mem s.device

lemma Between.trans {T : Type} {s t u : MipsBase T δ} (h₁ : Between mem s t)
    (h₂ : Between mem t u) : Between mem s u :=
  ⟨h₂.gpr.trans h₁.gpr, h₂.status.trans h₁.status, h₂.memory.trans h₁.memory⟩

/-! ## One byte -/

section Byte

variable {a : BitVec 64} (hkseg : inKseg a = true)

include hkseg

lemma translate_kseg (s : MipsBase MipsTlbNormal δ) : translateAddress s.tlb a =
    { found := true, readOnly := false, address := ksegPhysical a } :=
  s.tlb.translateAddress_of_inKseg hkseg

lemma load8_kseg (hbus : m.bus.IsByteMemory mem) (s : MipsBase MipsTlbNormal δ) :
    (load8 m a).Returns s fun value t =>
      value = some (mem s.device (ksegPhysical a)) ∧ Between mem s t := by
  have hphys : (ksegPhysical a).toNat < 2 ^ 29 := by
    rw [ksegPhysical_toNat]
    omega
  obtain ⟨hvalue, hcalls, hmem⟩ := hbus.load8 s.device (ksegPhysical a) hphys
  rw [load8, loadWith]
  refine .bind_ok (read_run _ _) ?_
  rw [translate_kseg hkseg, if_pos rfl]
  refine .bind_ok (Prog.modify_run _ _) ?_
  refine .bind_ok (a := some (mem s.device (ksegPhysical a)))
    (t := { s with
      device := (m.bus.load8 s.device (ksegPhysical a)).device
      trace := .load 1 a :: s.trace }) ?_ ?_
  · simp [access, hvalue, hcalls]
  · exact .of_pure ⟨rfl, rfl, rfl, hmem⟩

lemma store8_kseg (hm : m.IsN64) (hbus : m.bus.IsByteMemory mem) (byte : BitVec 8)
    {s : MipsBase MipsTlbNormal δ} (hopen : isolated m s = false) :
    (store8 m a byte).Returns s fun _ t =>
      (t.gpr = s.gpr ∧ t.cop0.sr = s.cop0.sr) ∧
        mem t.device = Function.update (mem s.device) (ksegPhysical a) byte := by
  have hphys : (ksegPhysical a).toNat < 2 ^ 29 := by
    rw [ksegPhysical_toNat]
    omega
  obtain ⟨hcalls, hmem⟩ := hbus.store8 s.device (ksegPhysical a) byte hphys
  rw [store8, storeWith]
  refine .bind_ok (isIsolated_run hm s) ?_
  rw [hopen, if_neg (by simp)]
  refine .bind_ok (read_run _ _) ?_
  rw [translate_kseg hkseg, if_pos rfl, if_neg (by simp)]
  refine .bind_ok (Prog.modify_run _ _) ?_
  have hrun : access (fun d => m.bus.store8 d (ksegPhysical a) byte)
      { s with trace := .store 1 a :: s.trace } = .ok ((), { s with
        device := (m.bus.store8 s.device (ksegPhysical a) byte).device
        trace := .store 1 a :: s.trace }) := by
    simp [access, hcalls]
  exact .of_ok hrun ⟨⟨rfl, rfl⟩, hmem⟩

end Byte

/-! ## The loops -/

section Loops

variable {n w : ℕ} {a : BitVec 64}

/-- Where byte `j` of the unit at `a` is in memory. -/
def place (a : BitVec 64) (j : ℕ) : BitVec 64 := ksegPhysical (a + BitVec.ofNat 64 j)

lemma place_injOn (hn : n ≤ 8) : Set.InjOn (place a) {j | j < n} := by
  intro i hi j hj heq
  have hi' : i < n := hi
  have hj' : j < n := hj
  have hplace := congrArg BitVec.toNat heq
  simp only [place, ksegPhysical_toNat, BitVec.toNat_add, BitVec.toNat_ofNat] at hplace
  omega

lemma reverse_injOn : Set.InjOn (fun j => n - 1 - j) {j | j < n} := by
  intro i hi j hj heq
  have hi' : i < n := hi
  have hj' : j < n := hj
  have heq' : n - 1 - i = n - 1 - j := heq
  omega

/-- Step `i` of a loop works on the byte numbered `item i`. -/
structure Walks (a : BitVec 64) (n : ℕ) (l : List ℕ) (item : ℕ → ℕ) (address : ℕ → BitVec 64)
    (shamt : ℕ → ℕ) : Prop where
  lt : ∀ i ∈ l, item i < n
  address : ∀ i ∈ l, address i = a + BitVec.ofNat 64 (item i)
  shamt : ∀ i ∈ l, shamt i = (n - 1 - item i) * 8

variable {item : ℕ → ℕ} {address : ℕ → BitVec 64} {shamt : ℕ → ℕ}

lemma Walks.tail {i : ℕ} {l : List ℕ} (h : Walks a n (i :: l) item address shamt) :
    Walks a n l item address shamt :=
  ⟨fun j hj => h.lt j (.tail i hj), fun j hj => h.address j (.tail i hj),
    fun j hj => h.shamt j (.tail i hj)⟩

/-- The items of a loop are among those of the unit. -/
lemma Walks.subset {l : List ℕ} (h : Walks a n l item address shamt) :
    {j | j ∈ l.map item} ⊆ {j | j < n} := by
  intro j hj
  obtain ⟨i, hi, rfl⟩ := List.mem_map.mp hj
  exact h.lt i hi

lemma items_cons (i : ℕ) (l : List ℕ) :
    {j | j ∈ (i :: l).map item} = {item i} ∪ {j | j ∈ l.map item} := by
  ext j
  simp

/-- One round of `loadBytes`. -/
def mergeByte {T : Type} [MipsTlbBase T] (m : MipsSetup δ) (address : ℕ → BitVec 64)
    (shamt : ℕ → ℕ) (value : BitVec w) (i : ℕ) : CpuM T δ (BitVec w) := do
  let loadResult ← load8 m (address i)
  match loadResult with
  | some byte => pure (insertByte value byte (shamt i))
  | none => pure value

/-- The bytes that are loaded take their places in the register. -/
lemma mergeBytes_returns (hbus : m.bus.IsByteMemory mem) (hw : w = n * 8)
    (hkseg : ∀ j < n, inKseg (a + BitVec.ofNat 64 j) = true) (l : List ℕ)
    (hl : Walks a n l item address shamt) (value : BitVec w) (s : MipsBase MipsTlbNormal δ) :
    (l.foldlM (mergeByte m address shamt) value).Returns s fun value' t =>
      Between mem s t ∧ Written (fun j => n - 1 - j) (fun j => mem s.device (place a j))
        {j | j ∈ l.map item} (byteAt value) (byteAt value') := by
  induction l generalizing value s with
  | nil =>
      refine .of_pure ⟨⟨rfl, rfl, rfl⟩, ?_⟩
      simpa using Written.empty
  | cons i l ih =>
      have hlt := hl.lt i List.mem_cons_self
      rw [List.foldlM_cons, items_cons]
      have hround : (mergeByte m address shamt value i).Returns s fun value' t =>
          Between mem s t ∧ Written (fun j => n - 1 - j) (fun j => mem s.device (place a j))
            {item i} (byteAt value) (byteAt value') := by
        rw [mergeByte, hl.address i List.mem_cons_self, hl.shamt i List.mem_cons_self]
        refine (load8_kseg (hkseg _ hlt) hbus s).bind fun loadResult t ht => ?_
        obtain ⟨rfl, hbetween⟩ := ht
        refine .of_pure ⟨hbetween, ?_⟩
        rw [byteAt_insertByte hw _ _ (show n - 1 - item i < n by omega)]
        exact .single (item i)
      refine hround.bind fun value' t ht => ?_
      refine (ih hl.tail value' t).mono fun value'' u hu => ⟨ht.1.trans hu.1, ?_⟩
      have hrest := hu.2
      rw [ht.1.memory] at hrest
      refine ht.2.union (reverse_injOn.mono ?_) hrest
      rw [← items_cons]
      exact hl.subset

/-- The bytes that are stored take their places in memory. -/
lemma storeEach_returns (hm : m.IsN64) (hbus : m.bus.IsByteMemory mem) (hn : n ≤ 8)
    (hkseg : ∀ j < n, inKseg (a + BitVec.ofNat 64 j) = true) (l : List ℕ)
    (hl : Walks a n l item address shamt) (value : BitVec w) {s : MipsBase MipsTlbNormal δ}
    (hopen : isolated m s = false) :
    (ForM.forM l fun i => store8 m (address i) ((value >>> shamt i).setWidth 8)).Returns s
      fun _ t => (t.gpr = s.gpr ∧ t.cop0.sr = s.cop0.sr) ∧
        Written (place a) (fun j => byteAt value (n - 1 - j)) {j | j ∈ l.map item}
          (mem s.device) (mem t.device) := by
  induction l generalizing s with
  | nil =>
      refine .of_pure ⟨⟨rfl, rfl⟩, ?_⟩
      simpa using Written.empty
  | cons i l ih =>
      have hlt := hl.lt i List.mem_cons_self
      rw [List.forM_cons, items_cons, hl.address i List.mem_cons_self,
        hl.shamt i List.mem_cons_self]
      refine (store8_kseg (hkseg _ hlt) hm hbus _ hopen).bind fun _ t ht => ?_
      obtain ⟨⟨hgpr, hsr⟩, hmem⟩ := ht
      have hopen' : isolated m t = false := by
        rw [isolated, hsr]
        exact hopen
      refine (ih hl.tail hopen').mono fun _ u hu => ?_
      refine ⟨⟨hu.1.1.trans hgpr, hu.1.2.trans hsr⟩, ?_⟩
      have hfirst : Written (place a) (fun j => byteAt value (n - 1 - j)) {item i}
          (mem s.device) (mem t.device) := by
        rw [hmem]
        exact .single (item i)
      refine hfirst.union ((place_injOn hn).mono ?_) hu.2
      rw [← items_cons]
      exact hl.subset

/-! ## Left and right -/

lemma low_toNat (b : ℕ) (hb : b < 64) (address : BitVec 64) :
    (address &&& BitVec.ofNat 64 (2 ^ b - 1)).toNat = address.toNat % 2 ^ b := by
  have hlt : 2 ^ b - 1 < 2 ^ 64 :=
    Nat.lt_of_le_of_lt (Nat.sub_le _ _) (Nat.pow_lt_pow_right (by omega) hb)
  rw [BitVec.toNat_and, BitVec.toNat_ofNat, Nat.mod_eq_of_lt hlt, Nat.and_two_pow_sub_one_eq_mod]

lemma leftCount_big {b : ℕ} (hb : b < 64) (address : BitVec 64) :
    leftCount true (2 ^ b - 1) address = 2 ^ b - address.toNat % 2 ^ b := by
  have hlt : address.toNat % 2 ^ b < 2 ^ b := Nat.mod_lt _ (Nat.two_pow_pos b)
  rw [leftCount, low_toNat b hb, if_pos rfl]
  omega

lemma rightCount_big {b : ℕ} (hb : b < 64) (address : BitVec 64) :
    rightCount true (2 ^ b - 1) address = address.toNat % 2 ^ b + 1 := by
  have hlt : address.toNat % 2 ^ b < 2 ^ b := Nat.mod_lt _ (Nat.two_pow_pos b)
  rw [rightCount, low_toNat b hb, if_pos rfl]
  omega

lemma walks_left {count : ℕ} (hcount : count ≤ n) :
    Walks a n (List.range count) id (fun i => a + BitVec.ofNat 64 i) fun i => (n - 1 - i) * 8 where
  lt _ hi := (List.mem_range.mp hi).trans_le hcount
  address _ _ := rfl
  shamt _ _ := rfl

lemma walks_right {b : BitVec 64} (hb : b = a + BitVec.ofNat 64 (n - 1)) {count : ℕ}
    (hcount : count ≤ n) :
    Walks a n (List.range count) (fun i => n - 1 - i) (fun i => b - BitVec.ofNat 64 i)
      fun i => i * 8 where
  lt i hi := by
    have := List.mem_range.mp hi
    omega
  address i hi := by
    have hi' := List.mem_range.mp hi
    have hsplit : n - 1 = n - 1 - i + i := by omega
    rw [hb, hsplit, BitVec.ofNat_add, ← BitVec.add_assoc, BitVec.add_sub_cancel, Nat.add_sub_cancel]
  shamt i hi := by
    have := List.mem_range.mp hi
    have hindex : n - 1 - (n - 1 - i) = i := by omega
    rw [hindex]

/-- On a big-endian processor the left instruction at `a` takes the bytes up to the end of the
aligned unit, and the right one at the last byte takes those from there on. -/
lemma pair_covers {b : ℕ} (hb : b < 64) (hn : n = 2 ^ b) :
    {j | j ∈ (List.range (n - a.toNat % n)).map id} ∪
      {j | j ∈ (List.range ((a + BitVec.ofNat 64 (n - 1)).toNat % n + 1)).map fun i => n - 1 - i} =
        {j | j < n} := by
  have hpos : 0 < n := hn ▸ Nat.two_pow_pos b
  have hdvd : n ∣ 2 ^ 64 := hn ▸ Nat.pow_dvd_pow 2 (by omega)
  have hlast : (a + BitVec.ofNat 64 (n - 1)).toNat % n = (a.toNat % n + (n - 1)) % n := by
    have hlt : n - 1 < 2 ^ 64 := by
      have := Nat.le_of_dvd (Nat.two_pow_pos 64) hdvd
      omega
    rw [BitVec.toNat_add, BitVec.toNat_ofNat, Nat.mod_eq_of_lt hlt, Nat.mod_mod_of_dvd _ hdvd,
      Nat.mod_add_mod]
  have hmod : a.toNat % n < n := Nat.mod_lt _ hpos
  rw [hlast]
  obtain ⟨r, hr⟩ : ∃ r, r = a.toNat % n := ⟨_, rfl⟩
  rw [← hr] at hmod ⊢
  -- An aligned address makes both instructions take everything.
  have hcount : (r + (n - 1)) % n + 1 = if r = 0 then n else r := by
    split
    · next h =>
        subst h
        rw [Nat.zero_add, Nat.mod_eq_of_lt (by omega)]
        omega
    · next h =>
        have hwrap : r + (n - 1) = r - 1 + n := by omega
        rw [hwrap, Nat.add_mod_right, Nat.mod_eq_of_lt (by omega)]
        omega
  rw [hcount]
  ext j
  simp only [List.map_id, List.mem_range, List.mem_map, Set.mem_union, Set.mem_ofPred_eq]
  constructor
  · rintro (hj | ⟨i, hi, rfl⟩)
    · omega
    · omega
  · intro hj
    by_cases hleft : j < n - r
    · exact .inl hleft
    · refine .inr ⟨n - 1 - j, ?_, by omega⟩
      split <;> omega

end Loops

/-! ## The instructions of a unit -/

/-- The units that can be accessed unaligned. -/
inductive AccessUnit where
  | word | doubleword

namespace AccessUnit

variable (u : AccessUnit)

/-- The number of bytes is two to this power. -/
def log : ℕ := match u with | word => 2 | doubleword => 3

def bytes : ℕ := match u with | word => 4 | doubleword => 8

def width : ℕ := match u with | word => 32 | doubleword => 64

lemma bytes_eq : u.bytes = 2 ^ u.log := by cases u <;> rfl

lemma log_lt : u.log < 64 := by cases u <;> decide

lemma bytes_le : u.bytes ≤ 8 := by cases u <;> decide

lemma width_eq : u.width = u.bytes * 8 := by cases u <;> rfl

/-- The part of a register that is stored. -/
def low (value : BitVec 64) : BitVec u.width :=
  match u with
  | word => value.setWidth 32
  | doubleword => value

/-- What a register holds once the part was loaded. -/
def extend (value : BitVec u.width) : BitVec 64 :=
  match u with
  | word => BitVec.signExtend 64 (w := 32) value
  | doubleword => value

/-- The part of a register an instruction reads. -/
def held {T : Type} (m : MipsSetup δ) (idx : BitVec 5) (s : MipsBase T δ) : BitVec u.width :=
  match u with
  | word => (s.gpr idx).setWidth 32
  | doubleword => gprValue m idx s

lemma low_extend (value : BitVec u.width) : u.low (u.extend value) = value := by
  cases u with
  | word => exact setWidth_signExtend (by decide) (w := 32) (v := 64) value
  | doubleword => rfl

variable {T : Type} [MipsTlbBase T] (m : MipsSetup δ) (opcode : BitVec 32)

def loadLeft : CpuM T δ Unit :=
  match u with | word => instLwl m opcode | doubleword => instLdl m opcode

def loadRight : CpuM T δ Unit :=
  match u with | word => instLwr m opcode | doubleword => instLdr m opcode

def storeLeft : CpuM T δ Unit :=
  match u with | word => instSwl m opcode | doubleword => instSdl m opcode

def storeRight : CpuM T δ Unit :=
  match u with | word => instSwr m opcode | doubleword => instSdr m opcode

end AccessUnit

section Handlers

variable {T : Type} [MipsTlbBase T] (u : AccessUnit) (opcode : BitVec 32) (s : MipsBase T δ)

omit [MipsTlbBase T] in
lemma readGpr64_value (idx : BitVec 5) (s : MipsBase T δ) :
    readGpr64 m idx s = .ok (gprValue m idx s, s) := rfl

omit [MipsTlbBase T] in
lemma held_eq (hm : m.IsN64) (idx : BitVec 5) : u.held m idx s = u.low (s.gpr idx) := by
  cases u with
  | word => rfl
  | doubleword => exact if_pos hm.is64Bit

lemma loadLeft_run : u.loadLeft m opcode s =
    (loadBytes m (fun i => effectiveAddress m opcode s + BitVec.ofNat 64 i)
      (fun i => (u.bytes - 1 - i) * 8)
      (leftCount m.config.useBigEndian (u.bytes - 1) (effectiveAddress m opcode s))
      (u.held m (rtField opcode) s) >>= fun value =>
        writeGpr64 (rtField opcode) (u.extend value)) s := by
  cases u with
  | word =>
      rw [AccessUnit.loadLeft, instLwl, Prog.bind_of_ok (readGpr64_value _ _),
        Prog.bind_of_ok (readGpr32_run _ _)]
      rfl
  | doubleword =>
      rw [AccessUnit.loadLeft, instLdl, Prog.bind_of_ok (readGpr64_value _ _),
        Prog.bind_of_ok (readGpr64_value _ _)]
      rfl

lemma loadRight_run : u.loadRight m opcode s =
    (loadBytes m (fun i => effectiveAddress m opcode s - BitVec.ofNat 64 i) (fun i => i * 8)
      (rightCount m.config.useBigEndian (u.bytes - 1) (effectiveAddress m opcode s))
      (u.held m (rtField opcode) s) >>= fun value =>
        writeGpr64 (rtField opcode) (u.extend value)) s := by
  cases u with
  | word =>
      rw [AccessUnit.loadRight, instLwr, Prog.bind_of_ok (readGpr64_value _ _),
        Prog.bind_of_ok (readGpr32_run _ _)]
      rfl
  | doubleword =>
      rw [AccessUnit.loadRight, instLdr, Prog.bind_of_ok (readGpr64_value _ _),
        Prog.bind_of_ok (readGpr64_value _ _)]
      rfl

lemma storeLeft_run : u.storeLeft m opcode s =
    storeBytes m (fun i => effectiveAddress m opcode s + BitVec.ofNat 64 i)
      (fun i => (u.bytes - 1 - i) * 8)
      (leftCount m.config.useBigEndian (u.bytes - 1) (effectiveAddress m opcode s))
      (u.held m (rtField opcode) s) s := by
  cases u with
  | word =>
      rw [AccessUnit.storeLeft, instSwl, Prog.bind_of_ok (readGpr64_value _ _),
        Prog.bind_of_ok (readGpr32_run _ _)]
      rfl
  | doubleword =>
      rw [AccessUnit.storeLeft, instSdl, Prog.bind_of_ok (readGpr64_value _ _),
        Prog.bind_of_ok (readGpr64_value _ _)]
      rfl

lemma storeRight_run : u.storeRight m opcode s =
    storeBytes m (fun i => effectiveAddress m opcode s - BitVec.ofNat 64 i) (fun i => i * 8)
      (rightCount m.config.useBigEndian (u.bytes - 1) (effectiveAddress m opcode s))
      (u.held m (rtField opcode) s) s := by
  cases u with
  | word =>
      rw [AccessUnit.storeRight, instSwr, Prog.bind_of_ok (readGpr64_value _ _),
        Prog.bind_of_ok (readGpr32_run _ _)]
      rfl
  | doubleword =>
      rw [AccessUnit.storeRight, instSdr, Prog.bind_of_ok (readGpr64_value _ _),
        Prog.bind_of_ok (readGpr64_value _ _)]
      rfl

end Handlers

/-! ## Pairs of instructions -/

lemma leftCount_unit (u : AccessUnit) (a : BitVec 64) :
    leftCount true (u.bytes - 1) a = u.bytes - a.toNat % u.bytes := by
  rw [u.bytes_eq, leftCount_big u.log_lt]

lemma rightCount_unit (u : AccessUnit) (a : BitVec 64) :
    rightCount true (u.bytes - 1) a = a.toNat % u.bytes + 1 := by
  rw [u.bytes_eq, rightCount_big u.log_lt]

lemma rightCount_le (u : AccessUnit) (a : BitVec 64) : a.toNat % u.bytes + 1 ≤ u.bytes := by
  have := Nat.mod_lt a.toNat (show 0 < u.bytes by cases u <;> decide)
  omega

/-- A left instruction at `a` and a right one at the last byte of the unit there, both with
register `rt`. -/
structure PairAt {T : Type} (m : MipsSetup δ) (u : AccessUnit) (a : BitVec 64) (rt : BitVec 5)
    (left right : BitVec 32) (s : MipsBase T δ) : Prop where
  rt_ne : rt ≠ 0
  left_rt : rtField left = rt
  right_rt : rtField right = rt
  base_ne : rsField right ≠ rt
  left_address : effectiveAddress m left s = a
  right_address : effectiveAddress m right s = a + BitVec.ofNat 64 (u.bytes - 1)

/-- Both programs return, whatever is done `Between` them. -/
def AfterPair {T : Type} (mem : δ → BitVec 64 → BitVec 8) (x y : CpuM T δ Unit)
    (s : MipsBase T δ) (Q : MipsBase T δ → Prop) : Prop :=
  x.Returns s fun _ t => ∀ t', Between mem t t' → y.Returns t' fun _ s' => Q s'

lemma AfterPair.mono {T : Type} {x y : CpuM T δ Unit} {s : MipsBase T δ}
    {P Q : MipsBase T δ → Prop} (h : AfterPair mem x y s P) (hPQ : ∀ s', P s' → Q s') :
    AfterPair mem x y s Q :=
  Prog.Returns.mono h fun _ _ ht t' hbetween => (ht t' hbetween).mono fun _ s' => hPQ s'

/-- Between the handlers of two entries of a block the cached interpreter does nothing else. -/
theorem AfterPair.runEntries {T : Type} [MipsTlbBase T] {left right : MipsCacheEntry}
    {s : MipsBase T δ} {Q : MipsBase T δ → Prop}
    (h : AfterPair mem (callInst m left.opcode left.func) (callInst m right.opcode right.func)
      (started left.opcode s) Q) :
    ∃ t s', runEntry m left s = .ok ((), t) ∧
      runEntry m right t = .ok ((), stepped 0xFFFFFFFF s') ∧ Q s' := by
  obtain ⟨⟨⟩, t, hleft, hafter⟩ := h
  have hbetween : Between mem t (started right.opcode (stepped 0xFFFFFFFF t)) := ⟨rfl, rfl, rfl⟩
  obtain ⟨⟨⟩, s', hright, hQ⟩ := hafter _ hbetween
  exact ⟨_, s', runEntry_ok.mpr ⟨t, hleft, rfl⟩, runEntry_ok.mpr ⟨s', hright, rfl⟩, hQ⟩

/-- Nor does the plain interpreter, when it can fetch the second instruction. -/
theorem AfterPair.runInsts {T : Type} [MipsTlbBase T] {left right : BitVec 32}
    {s : MipsBase T δ} {Q : MipsBase T δ → Prop} (hleft : fetch m s.pc s = .ok (left, s))
    (hright : ∀ t, runInst m s = .ok ((), t) → fetch m t.pc t = .ok (right, t))
    (h : AfterPair mem (callInst m left (getInstFuncPtr m.kIs64Bit left))
      (callInst m right (getInstFuncPtr m.kIs64Bit right)) (started left s) Q) :
    ∃ t s', runInst m s = .ok ((), t) ∧
      runInst m t = .ok ((), counted m 1 (stepped (BitVec.allOnes 64) s')) ∧ Q s' := by
  obtain ⟨⟨⟩, t, hfirst, hafter⟩ := h
  have hrun := runInst_ok.mpr ⟨left, s, t, hleft, hfirst, rfl⟩
  have hbetween : Between mem t
      (started right (counted m 1 (stepped (BitVec.allOnes 64) t))) := ⟨rfl, rfl, rfl⟩
  obtain ⟨⟨⟩, s', hsecond, hQ⟩ := hafter _ hbetween
  exact ⟨_, s', hrun, runInst_ok.mpr ⟨right, _, s', hright _ hrun, hsecond, rfl⟩, hQ⟩

/-- The register goes to memory, its most significant byte first, and nothing else does. -/
def StoresPair (m : MipsSetup δ) (mem : δ → BitVec 64 → BitVec 8) (u : AccessUnit)
    (a : BitVec 64) (rt : BitVec 5) (left right : BitVec 32) (s : MipsBase MipsTlbNormal δ) :
    Prop :=
  AfterPair mem (u.storeLeft m left) (u.storeRight m right) s fun s' =>
    Written (place a) (fun j => byteAt (u.low (s.gpr rt)) (u.bytes - 1 - j)) {j | j < u.bytes}
      (mem s.device) (mem s'.device)

/-- The register becomes the number in memory, whatever it held. -/
def LoadsPair (m : MipsSetup δ) (mem : δ → BitVec 64 → BitVec 8) (u : AccessUnit)
    (a : BitVec 64) (rt : BitVec 5) (left right : BitVec 32) (s : MipsBase MipsTlbNormal δ) :
    Prop :=
  AfterPair mem (u.loadLeft m left) (u.loadRight m right) s fun s' =>
    s'.gpr = Function.update s.gpr rt
      (u.extend (bigEndian u.width (fun j => mem s.device (place a j)) u.bytes)) ∧
    mem s'.device = mem s.device

/-- What the two pairs of a unit do at an address. -/
structure RoundTrips (m : MipsSetup δ) (mem : δ → BitVec 64 → BitVec 8) (u : AccessUnit)
    (a : BitVec 64) : Prop where
  stores : ∀ rt left right (s : MipsBase MipsTlbNormal δ),
    PairAt m u a rt left right s → isolated m s = false →
    StoresPair m mem u a rt left right s
  loads : ∀ rt left right (s : MipsBase MipsTlbNormal δ), PairAt m u a rt left right s →
    LoadsPair m mem u a rt left right s
  /-- What was stored is loaded again, into any register. -/
  undo : ∀ rt left right (s : MipsBase MipsTlbNormal δ), PairAt m u a rt left right s →
    isolated m s = false →
    AfterPair mem (u.storeLeft m left) (u.storeRight m right) s fun s' =>
      ∀ t rt' left' right', Between mem s' t → PairAt m u a rt' left' right' t →
        AfterPair mem (u.loadLeft m left') (u.loadRight m right') t fun t' =>
          t'.gpr rt' = u.extend (u.low (s.gpr rt))

section Pairs

variable (hm : m.IsN64) (hbus : m.bus.IsByteMemory mem) (hbig : m.config.useBigEndian = true)
  {u : AccessUnit} {a : BitVec 64} (hkseg : ∀ j < u.bytes, inKseg (a + BitVec.ofNat 64 j) = true)
  {rt : BitVec 5} {left right : BitVec 32} {s : MipsBase MipsTlbNormal δ}
  (hpair : PairAt m u a rt left right s)

include hm hbus hbig hkseg hpair

lemma pair_stores (hopen : isolated m s = false) : StoresPair m mem u a rt left right s := by
  have hleft : (u.storeLeft m left).Returns s fun _ t =>
      (t.gpr = s.gpr ∧ t.cop0.sr = s.cop0.sr) ∧
        Written (place a) (fun j => byteAt (u.low (s.gpr rt)) (u.bytes - 1 - j))
          {j | j ∈ (List.range (u.bytes - a.toNat % u.bytes)).map id}
          (mem s.device) (mem t.device) := by
    rw [Prog.Returns, storeLeft_run, hpair.left_address, hpair.left_rt, held_eq _ _ hm, hbig,
      leftCount_unit]
    exact storeEach_returns hm hbus u.bytes_le hkseg _ (walks_left (Nat.sub_le _ _)) _ hopen
  refine hleft.mono fun _ t ht t' hbetween => ?_
  obtain ⟨⟨hgpr, hsr⟩, hfirst⟩ := ht
  have haddress : effectiveAddress m right t' = a + BitVec.ofNat 64 (u.bytes - 1) := by
    rw [← hpair.right_address]
    exact effectiveAddress_congr (by rw [hbetween.gpr, hgpr])
  have hopen' : isolated m t' = false := by
    rw [isolated, hbetween.status, hsr]
    exact hopen
  have hright := storeEach_returns hm hbus u.bytes_le hkseg _
    (walks_right rfl (rightCount_le u (a + BitVec.ofNat 64 (u.bytes - 1)))) (u.low (s.gpr rt))
    hopen'
  rw [hbetween.memory] at hright
  rw [Prog.Returns, storeRight_run, haddress, hpair.right_rt, held_eq _ _ hm, hbetween.gpr, hgpr,
    hbig, rightCount_unit]
  refine hright.mono fun _ s' hs' => ?_
  have hboth := hfirst.union ((place_injOn u.bytes_le).mono ?_) hs'.2
  · rwa [pair_covers u.log_lt u.bytes_eq] at hboth
  · rw [pair_covers u.log_lt u.bytes_eq]

lemma pair_loads : LoadsPair m mem u a rt left right s := by
  have hleft : (u.loadLeft m left).Returns s fun _ t =>
      ∃ value, mem t.device = mem s.device ∧
        t.gpr = Function.update s.gpr rt (u.extend value) ∧
        Written (fun j => u.bytes - 1 - j) (fun j => mem s.device (place a j))
          {j | j ∈ (List.range (u.bytes - a.toNat % u.bytes)).map id}
          (byteAt (u.low (s.gpr rt))) (byteAt value) := by
    rw [Prog.Returns, loadLeft_run, hpair.left_address, hpair.left_rt, held_eq _ _ hm, hbig,
      leftCount_unit]
    refine (mergeBytes_returns hbus u.width_eq hkseg _ (walks_left (Nat.sub_le _ _)) _ s).bind
      fun value t ht => ?_
    rw [writeGpr64, if_neg hpair.rt_ne]
    refine .of_modify ⟨value, ht.1.memory, ?_, ht.2⟩
    rw [← ht.1.gpr]
  refine hleft.mono fun _ t ht t' hbetween => ?_
  obtain ⟨value, hkept, hgpr, hfirst⟩ := ht
  have haddress : effectiveAddress m right t' = a + BitVec.ofNat 64 (u.bytes - 1) := by
    rw [← hpair.right_address]
    exact effectiveAddress_congr (by rw [hbetween.gpr, hgpr, Function.update_of_ne hpair.base_ne])
  have hvalue : u.held m rt t' = value := by
    rw [held_eq _ _ hm, hbetween.gpr, hgpr, Function.update_self, u.low_extend]
  have hmem : mem t'.device = mem s.device := hbetween.memory.trans hkept
  have hright := mergeBytes_returns hbus u.width_eq hkseg _
    (walks_right rfl (rightCount_le u (a + BitVec.ofNat 64 (u.bytes - 1)))) value t'
  rw [hmem] at hright
  rw [Prog.Returns, loadRight_run, haddress, hpair.right_rt, hvalue, hbig, rightCount_unit]
  refine hright.bind fun value' s' hs' => ?_
  have hboth := hfirst.union (reverse_injOn.mono ?_) hs'.2
  · rw [pair_covers u.log_lt u.bytes_eq] at hboth
    -- All bytes were replaced, so nothing is left of what the register held.
    have hword : value' = bigEndian u.width (fun j => mem s.device (place a j)) u.bytes :=
      eq_bigEndian u.width_eq fun j hj => hboth.written j hj
    rw [writeGpr64, if_neg hpair.rt_ne]
    refine .of_modify ⟨?_, hs'.1.memory.trans hmem⟩
    rw [← hword, hs'.1.gpr, hbetween.gpr, hgpr, Function.update_idem]
  · rw [pair_covers u.log_lt u.bytes_eq]

end Pairs

/-- On a big-endian processor with a memory of bytes, the pairs of a unit store and load it at
any unmapped address, aligned or not, and loading undoes storing; stores have to reach
memory. -/
theorem unaligned_roundTrips (hm : m.IsN64) (hbus : m.bus.IsByteMemory mem)
    (hbig : m.config.useBigEndian = true) (u : AccessUnit) (a : BitVec 64)
    (hkseg : ∀ j < u.bytes, inKseg (a + BitVec.ofNat 64 j) = true) : RoundTrips m mem u a where
  stores _ _ _ _ hpair hopen := pair_stores hm hbus hbig hkseg hpair hopen
  loads _ _ _ _ hpair := pair_loads hm hbus hbig hkseg hpair
  undo rt left right s hpair hopen := by
    refine AfterPair.mono (pair_stores hm hbus hbig hkseg hpair hopen)
      fun s' hs' t rt' left' right' ht hpair' => ?_
    refine AfterPair.mono (pair_loads hm hbus hbig hkseg hpair') fun t' ht' => ?_
    have hword : u.low (s.gpr rt) =
        bigEndian u.width (fun j => mem t.device (place a j)) u.bytes := by
      refine eq_bigEndian u.width_eq fun j hj => ?_
      rw [ht.memory]
      exact (hs'.written j hj).symm
    rw [ht'.1, Function.update_self, hword]

/-! ### A memory of bytes -/

/-- The bus of a memory of bytes. -/
def byteBus : BusBase (BitVec 64 → BitVec 8) where
  fetch mem _ := (0, mem)
  load8 mem address := ⟨some (mem address), mem, []⟩
  load16 mem _ := ⟨none, mem, []⟩
  load32 mem _ := ⟨none, mem, []⟩
  load64 mem _ := ⟨none, mem, []⟩
  store8 mem address byte := ⟨(), Function.update mem address byte, []⟩
  store16 mem _ _ := ⟨(), mem, []⟩
  store32 mem _ _ := ⟨(), mem, []⟩
  store64 mem _ _ := ⟨(), mem, []⟩
  getInterrupt _ := false

lemma byteBus_isByteMemory : byteBus.IsByteMemory id :=
  ⟨fun _ _ _ => ⟨rfl, rfl, rfl⟩, fun _ _ _ _ => ⟨rfl, rfl⟩⟩

/-- A big-endian processor on a memory of bytes, with or without a cache that can be
isolated. -/
def bigEndianSetup (isolate : Bool) : MipsSetup (BitVec 64 → BitVec 8) :=
  bareSetup byteBus { useBigEndian := true, hasIsolateCacheBit := isolate }

/-- The status register has the bit that isolates the cache. -/
def byteState : MipsBase MipsTlbNormal (BitVec 64 → BitVec 8) where
  gpr := Function.update (Function.update (fun _ => 0) 1 0x80000001) 2 0x11223344
  tlb := {}
  cop0 := { sr := 0x34010000 }
  device := fun _ => 0

/-- `SWL $2, 0($1)` and `SWR $2, 3($1)`, or `LWL` and `LWR`. -/
lemma byteState_pair (isolate : Bool) (left right : BitVec 32)
    (h : (left, right) ∈ [(0xA8220000#32, 0xB8220003#32), (0x88220000, 0x98220003)]) :
    PairAt (bigEndianSetup isolate) .word 0x80000001 2 left right byteState := by
  simp only [List.mem_cons, Prod.mk.injEq, List.not_mem_nil, or_false] at h
  rcases h with ⟨rfl, rfl⟩ | ⟨rfl, rfl⟩ <;> cases isolate <;>
    exact ⟨by decide, by decide, by decide, by decide, by decide, by decide⟩

theorem byteState_roundTrips :
    StoresPair (bigEndianSetup false) id .word 0x80000001 2 0xA8220000 0xB8220003 byteState ∧
      LoadsPair (bigEndianSetup false) id .word 0x80000001 2 0x88220000 0x98220003 byteState := by
  have hround := unaligned_roundTrips (m := bigEndianSetup false) (bareSetup_isN64 _ _)
    byteBus_isByteMemory rfl .word 0x80000001 (by decide)
  exact ⟨hround.stores _ _ _ _ (byteState_pair _ _ _ (by decide)) rfl,
    hround.loads _ _ _ _ (byteState_pair _ _ _ (by decide))⟩

/-- With the cache isolated the bytes are dropped. -/
theorem byteState_isolated :
    (bigEndianSetup true).bus.IsByteMemory id ∧ (bigEndianSetup true).config.useBigEndian = true ∧
      PairAt (bigEndianSetup true) .word 0x80000001 2 0xA8220000 0xB8220003 byteState ∧
      ¬ StoresPair (bigEndianSetup true) id .word 0x80000001 2 0xA8220000 0xB8220003 byteState := by
  refine ⟨byteBus_isByteMemory, rfl, byteState_pair _ _ _ (by decide), ?_⟩
  rintro ⟨⟨⟩, t, hleft, hafter⟩
  obtain ⟨⟨⟩, s', hright, hwritten⟩ := hafter t ⟨rfl, rfl, rfl⟩
  have ht : t = lastState (AccessUnit.storeLeft .word (bigEndianSetup true) 0xA8220000)
    byteState := by
    rw [lastState, hleft]
  have hs' : s' = lastState (AccessUnit.storeRight .word (bigEndianSetup true) 0xB8220003) t := by
    rw [lastState, hright]
  have hbyte := hwritten.written 0 (show 0 < 4 by decide)
  rw [hs', ht] at hbyte
  exact absurd hbyte (by decide +kernel)

end MipsBase

end NgMips
