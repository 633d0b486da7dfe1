import NgMips.Proofs.BlockRange
import NgMips.Proofs.Elementary
import NgMips.Proofs.Unaligned

/-!
# Accesses inside an aligned unit

The byte accesses of `LWL`, `LWR`, `SWL`, `SWR`, `LDL`, `LDR`, `SDL` and `SDR` are those of a
list of addresses (`PartialAccess.addresses`), and a run reports the ones that are granted:
`inst_trace`.  The list stays inside the aligned unit of the effective address on a big-endian
processor; on a little-endian one the number of bytes changes but not the direction they are
walked in, and it stays inside for half of the addresses only (`PartialAccess.Fits`).
-/

namespace NgMips

/-! ## Translation inside a page -/

section Pages

variable (entry : MipsTlbEntry) (tlb : MipsTlbNormal) {x y : BitVec 64}

/-- Found or not, and read-only or not. -/
def SameGrant (r r' : MipsTlbTranslationResult) : Prop :=
  r.found = r'.found ∧ r.readOnly = r'.readOnly

lemma mask_page : entry.mask.toNat % 2 ^ 12 = 0 := by
  have hrange : IsRange (0xFFFFE000 : BitVec 64) 13 32 := by decide
  rw [MipsTlbEntry.mask, hrange.toNat_and]
  omega

lemma oddMask_page : (entry.oddMask.setWidth 64).toNat % 2 ^ 12 = 0 := by
  have hlow : (entry.pageMask ||| 0x1FFF).toNat % 2 ^ 13 = 2 ^ 13 - 1 := by
    apply Nat.eq_of_testBit_eq
    intro i
    have hones : (0x1FFF : BitVec 64).toNat = 2 ^ 13 - 1 := rfl
    rw [Nat.testBit_mod_two_pow, BitVec.toNat_or, hones, Nat.testBit_or,
      Nat.testBit_two_pow_sub_one]
    cases decide (i < 13) <;> simp
  have hnext : ((entry.pageMask ||| 0x1FFF) + 1).toNat % 2 ^ 13 = 0 := by
    rw [BitVec.toNat_add]
    change ((entry.pageMask ||| 0x1FFF).toNat + 1) % 2 ^ 64 % 2 ^ 13 = 0
    omega
  rw [MipsTlbEntry.oddMask, BitVec.toNat_setWidth, BitVec.toNat_setWidth, BitVec.toNat_ushiftRight,
    Nat.shiftRight_eq_div_pow]
  omega

/-- Whether an entry translates an address depends on the page of the address only. -/
lemma translate_page_grant (entryHi : BitVec 64) (h : x.toNat / 2 ^ 12 = y.toNat / 2 ^ 12) :
    Option.Rel SameGrant (entry.translate entryHi x) (entry.translate entryHi y) := by
  have hmatch : entry.matchesAddress entryHi x = entry.matchesAddress entryHi y := by
    rw [MipsTlbEntry.matchesAddress, MipsTlbEntry.matchesAddress, MipsTlbEntry.vpnMatch,
      MipsTlbEntry.vpnMatch, and_eq_of_page (mask_page entry) h]
  have hselect : entry.selectLo x = entry.selectLo y := by
    rw [MipsTlbEntry.selectLo, MipsTlbEntry.selectLo, and_eq_of_page (oddMask_page entry) h]
  simp only [MipsTlbEntry.translate, hmatch, hselect]
  split
  · split
    · exact .none
    · exact .some ⟨rfl, rfl⟩
  · exact .none

lemma rel_getD {α : Type} {r : α → α → Prop} {d : α} (hd : r d d) {o o' : Option α}
    (h : Option.Rel r o o') : r (o.getD d) (o'.getD d) := by
  cases h with
  | none => exact hd
  | some hr => exact hr

/-- Addresses of one page are translated together. -/
lemma translateAddress_page (h : x.toNat / 2 ^ 12 = y.toNat / 2 ^ 12) :
    SameGrant (tlb.translateAddress x) (tlb.translateAddress y) := by
  have hlow : (x &&& 0xFFFFFFFF).toNat / 2 ^ 12 = (y &&& 0xFFFFFFFF).toNat / 2 ^ 12 := by
    rw [mask_toNat, mask_toNat]
    omega
  have hseg : (isKseg0 (x &&& 0xFFFFFFFF) || isKseg1 (x &&& 0xFFFFFFFF)) =
      (isKseg0 (y &&& 0xFFFFFFFF) || isKseg1 (y &&& 0xFFFFFFFF)) := by
    have hx := inKseg_iff x
    have hy := inKseg_iff y
    rw [inKseg] at hx hy
    rw [Bool.eq_iff_iff, hx, hy]
    omega
  simp only [MipsTlbNormal.translateAddress, hseg]
  split
  · exact ⟨rfl, rfl⟩
  · exact rel_getD ⟨rfl, rfl⟩ (MipsTlbNormal.rel_findSome (List.finRange 32)
      fun i => translate_page_grant (tlb.entry i) tlb.entryHi hlow)

/-- A miss that is reported leaves the address space alone, and with it every translation. -/
lemma translateAddress_inform (address : BitVec 64) :
    (tlb.informTlbException address).translateAddress x = tlb.translateAddress x := by
  have hasid : (tlb.informTlbException address).entryHi &&& 0xFF = tlb.entryHi &&& 0xFF :=
    tlb.asid_refill address
  have hentry : ∀ i y, ((tlb.informTlbException address).entry i).translate
      (tlb.informTlbException address).entryHi y = (tlb.entry i).translate tlb.entryHi y := by
    intro i y
    simp only [MipsTlbEntry.translate, MipsTlbEntry.matchesAddress, MipsTlbEntry.asidMatch, hasid]
    rfl
  simp only [MipsTlbNormal.translateAddress, hentry]

end Pages

/-! ## Addresses -/

namespace MipsBase

variable {δ : Type}

/-- One of the eight instructions. -/
structure PartialAccess where
  unit : AccessUnit
  left : Bool
  store : Bool

namespace PartialAccess

variable (p : PartialAccess) (useBigEndian : Bool) (a : BitVec 64)

def inst {T : Type} [MipsTlbBase T] (m : MipsSetup δ) (opcode : BitVec 32) : CpuM T δ Unit :=
  match p.store, p.left with
  | false, true => p.unit.loadLeft m opcode
  | false, false => p.unit.loadRight m opcode
  | true, true => p.unit.storeLeft m opcode
  | true, false => p.unit.storeRight m opcode

/-- The address of step `i` of the loop. -/
def step (i : ℕ) : BitVec 64 :=
  if p.left then a + BitVec.ofNat 64 i else a - BitVec.ofNat 64 i

/-- The number of steps of the loop. -/
def count : ℕ :=
  if p.left then leftCount useBigEndian (p.unit.bytes - 1) a
  else rightCount useBigEndian (p.unit.bytes - 1) a

/-- The bytes accessed from the effective address `a`, in order. -/
def addresses : List (BitVec 64) := (List.range (p.count useBigEndian a)).map (p.step a)

/-- What is reported of an access. -/
def event (address : BitVec 64) : Event :=
  if p.store then .store 1 address else .load 1 address

/-- The direction of the loop agrees with the end of the unit it counts to. -/
def Fits : Prop :=
  useBigEndian = true ∨
    if p.left then 2 * (a.toNat % p.unit.bytes) < p.unit.bytes
    else p.unit.bytes ≤ 2 * (a.toNat % p.unit.bytes)

/-- The byte is one of the aligned unit of `a`. -/
def Inside (x : BitVec 64) : Prop := x.toNat / p.unit.bytes = a.toNat / p.unit.bytes

variable {p useBigEndian a}

lemma count_left (h : p.left = true) : p.count useBigEndian a =
    if useBigEndian then p.unit.bytes - a.toNat % p.unit.bytes else a.toNat % p.unit.bytes + 1 := by
  rw [count, if_pos h]
  cases useBigEndian with
  | true => exact leftCount_unit p.unit a
  | false => rw [leftCount, p.unit.bytes_eq, low_toNat _ p.unit.log_lt]; rfl

lemma count_right (h : p.left = false) : p.count useBigEndian a =
    if useBigEndian then a.toNat % p.unit.bytes + 1 else p.unit.bytes - a.toNat % p.unit.bytes := by
  rw [count, if_neg (by simp [h])]
  cases useBigEndian with
  | true => exact rightCount_unit p.unit a
  | false =>
      have hlt : a.toNat % 2 ^ p.unit.log < 2 ^ p.unit.log := Nat.mod_lt _ (Nat.two_pow_pos _)
      rw [rightCount, p.unit.bytes_eq, low_toNat _ p.unit.log_lt]
      simp only [Bool.false_eq_true, if_false]
      omega

/-- To the right, the unit ends with its last byte. -/
lemma inside_right_iff {n x k : ℕ} (hn : n = 4 ∨ n = 8) (hx : x < 2 ^ 64) (hk : k ≤ n) :
    (∀ i < k, (x + i) % 2 ^ 64 / n = x / n) ↔ x % n + k ≤ n := by
  have hmod : x % n < n := Nat.mod_lt _ (by omega)
  constructor
  · intro h
    by_contra hbeyond
    have hfirst := h (n - x % n) (by omega)
    rcases hn with rfl | rfl <;> omega
  · intro h i hi
    rcases hn with rfl | rfl <;> omega

/-- To the left, it ends with its first byte. -/
lemma inside_left_iff {n x k : ℕ} (hn : n = 4 ∨ n = 8) (hx : x < 2 ^ 64) (hk : k ≤ n) :
    (∀ i < k, (2 ^ 64 - i + x) % 2 ^ 64 / n = x / n) ↔ k ≤ x % n + 1 := by
  have hmod : x % n < n := Nat.mod_lt _ (by omega)
  constructor
  · intro h
    by_contra hbeyond
    have hfirst := h (x % n + 1) (by omega)
    rcases hn with rfl | rfl <;> omega
  · intro h i hi
    rcases hn with rfl | rfl <;> omega

lemma step_toNat (p : PartialAccess) (a : BitVec 64) {i : ℕ} (hi : i < 8) :
    (p.step a i).toNat = (if p.left then a.toNat + i else 2 ^ 64 - i + a.toNat) % 2 ^ 64 := by
  have hmod : i % 2 ^ 64 = i := Nat.mod_eq_of_lt (by omega)
  rw [step]
  split
  · rw [BitVec.toNat_add, BitVec.toNat_ofNat, hmod]
  · rw [BitVec.toNat_sub, BitVec.toNat_ofNat, hmod]

/-- The accesses stay inside the unit exactly when they are made in the direction of the end
that was counted to. -/
lemma inside_iff : (∀ x ∈ p.addresses useBigEndian a, p.Inside a x) ↔ p.Fits useBigEndian a := by
  have hbytes : p.unit.bytes = 4 ∨ p.unit.bytes = 8 := by cases p.unit <;> simp [AccessUnit.bytes]
  have hmod : a.toNat % p.unit.bytes < p.unit.bytes := Nat.mod_lt _ (by omega)
  have hcount : p.count useBigEndian a ≤ p.unit.bytes := by
    cases hleft : p.left with
    | true => rw [count_left hleft]; split <;> omega
    | false => rw [count_right hleft]; split <;> omega
  have hsteps : (∀ x ∈ p.addresses useBigEndian a, p.Inside a x) ↔
      ∀ i < p.count useBigEndian a,
        (if p.left then a.toNat + i else 2 ^ 64 - i + a.toNat) % 2 ^ 64 / p.unit.bytes =
          a.toNat / p.unit.bytes := by
    simp only [addresses, List.mem_map, List.mem_range, forall_exists_index, and_imp,
      forall_apply_eq_imp_iff₂, Inside]
    refine forall₂_congr fun i hi => ?_
    rw [step_toNat p a (by omega)]
  rw [hsteps, Fits]
  cases hleft : p.left with
  | true =>
      simp only [if_true]
      rw [inside_right_iff hbytes a.isLt hcount, count_left hleft]
      cases useBigEndian with
      | true => simp only [if_true, true_or, iff_true]; omega
      | false => simp only [Bool.false_eq_true, if_false, false_or]; omega
  | false =>
      simp only [Bool.false_eq_true, if_false]
      rw [inside_left_iff hbytes a.isLt hcount, count_right hleft]
      cases useBigEndian with
      | true => simp only [if_true, true_or, iff_true]; omega
      | false => simp only [Bool.false_eq_true, if_false, false_or]; omega

end PartialAccess

/-! ## Reports of any processor -/

section Reports

variable {T : Type} {m : MipsSetup δ}

lemma never_takeException {cause : ExceptionCause} (h : cause.isTlb = true) (epc : BitVec 64)
    (bd : Bool) : Prog.Moves (fun _ _ => False) (takeException (T := T) m cause epc bd) := by
  refine .bind_last (fun _ _ _ => id) fun _ => .bind_last (fun _ _ _ => id) fun _ =>
    .bind_last (fun _ _ _ => id) fun _ => .bind_last (fun _ _ _ => id) fun sr => ?_
  simp only [h, if_true]
  split
  · split
    · exact .bind_last (fun _ _ _ => id) fun _ => .of_throw _
    · exact .bind_last (fun _ _ _ => id) fun _ => .bind_last (fun _ _ _ => id) fun _ => .of_throw _
  · exact .bind_last (fun _ _ _ => id) fun _ => .of_throw _

variable [MipsTlbBase T]

/-- With exceptions a translation fault ends in a `PANIC`, whatever sits in the slots. -/
lemma never_triggerException (hexc : m.config.hasException = true) {cause : ExceptionCause}
    (h : cause.isTlb = true) :
    Prog.Moves (fun _ _ => False) (triggerException (T := T) m cause) := by
  rw [triggerException, if_pos hexc]
  refine .bind_last (fun _ _ _ => id) fun _ => .bind_last (fun _ _ _ => id) fun pc =>
    .bind_last (fun _ _ _ => id) fun hasBranchDelay => ?_
  split
  · refine .bind_last (fun _ _ _ => id) fun _ => .bind_last (fun _ _ _ => id) fun opcode => ?_
    split
    · exact never_takeException h _ true
    · exact .of_throw _
  · exact never_takeException h pc false

/-- The accesses reported between two states are to bytes in `S`. -/
def TouchesOnly (store : Bool) (S : BitVec 64 → Prop) (s s' : MipsBase T δ) : Prop :=
  ∃ new, s'.trace = new ++ s.trace ∧
    ∀ e ∈ new, ∃ x, S x ∧ e = if store then .store 1 x else .load 1 x

variable {store : Bool} {S : BitVec 64 → Prop}

omit [MipsTlbBase T] in
lemma touchesOnly_of_eq {s s' : MipsBase T δ} (h : s'.trace = s.trace) :
    TouchesOnly store S s s' := ⟨[], h, by simp⟩

omit [MipsTlbBase T] in
lemma touchesOnly_refl (s : MipsBase T δ) : TouchesOnly store S s s := touchesOnly_of_eq rfl

omit [MipsTlbBase T] in
lemma touchesOnly_trans (s t u : MipsBase T δ) (h : TouchesOnly store S s t)
    (h' : TouchesOnly store S t u) : TouchesOnly store S s u := reports_trans h h'

omit [MipsTlbBase T] in
lemma touchesOnly_access {α : Type} (f : δ → Served δ α) :
    Prog.Moves (TouchesOnly store S) (access (T := T) f) := by
  intro s a s' h
  obtain ⟨_, _, _, rfl⟩ := access_ok h
  exact touchesOnly_refl s

lemma touchesOnly_fault {cause : ExceptionCause} (h : cause.isTlb = true) (address : BitVec 64) :
    Prog.Moves (TouchesOnly store S)
      (translationFault (T := T) m (triggerException m) cause address) := by
  have hwrite : Prog.Moves (TouchesOnly store S) (copWrite64Internal (T := T) m 8 address) := by
    rw [copWrite64Internal]
    split
    · intro s a s' hrun
      rw [← Prog.state_eq hrun]
      exact touchesOnly_refl s
    · exact .of_modify touchesOnly_refl
    · exact .of_pure touchesOnly_refl ()
  refine .bind touchesOnly_trans hwrite fun _ =>
    .bind touchesOnly_trans (.of_modify touchesOnly_refl) fun _ => ?_
  cases hexc : m.config.hasException with
  | true => exact (never_triggerException hexc h).mono fun _ _ => False.elim
  | false =>
      intro s a s' hrun
      rw [triggerException_off hexc] at hrun
      rw [← Prog.state_eq hrun]
      exact touchesOnly_refl s

omit [MipsTlbBase T] in
lemma touchesOnly_emit (store : Bool) {x : BitVec 64} (hx : S x) :
    Prog.Moves (TouchesOnly store S)
      (emit (T := T) (δ := δ) (if store then .store 1 x else .load 1 x)) :=
  .of_modify fun _ => ⟨[_], rfl, fun _ he => ⟨x, hx, List.mem_singleton.mp he⟩⟩

omit [MipsTlbBase T] in
lemma touchesOnly_read {α : Type} (f : MipsBase T δ → α) :
    Prog.Moves (TouchesOnly store S) (read f) := .of_read touchesOnly_refl f

lemma touchesOnly_load8 {x : BitVec 64} (hx : S x) :
    Prog.Moves (TouchesOnly false S) (load8 (T := T) m x) := by
  refine .bind touchesOnly_trans (touchesOnly_read _) fun result => ?_
  split
  · refine .bind touchesOnly_trans (touchesOnly_emit false hx) fun _ =>
      .bind touchesOnly_trans (touchesOnly_access _) fun value => ?_
    split
    · exact .of_pure touchesOnly_refl value
    · exact .of_throw _
  · exact .bind touchesOnly_trans (touchesOnly_fault rfl x) fun _ => .of_pure touchesOnly_refl none

lemma touchesOnly_store8 {x : BitVec 64} (hx : S x) (byte : BitVec 8) :
    Prog.Moves (TouchesOnly true S) (store8 (T := T) m x byte) := by
  have hisolated : Prog.Moves (TouchesOnly true S) (isIsolated (T := T) m) := by
    rw [isIsolated]
    split
    · refine .bind touchesOnly_trans ?_ fun _ => .of_pure touchesOnly_refl _
      rw [copRead32Internal]
      split
      · intro s a s' hrun
        rw [← Prog.state_eq hrun]
        exact touchesOnly_refl s
      · exact touchesOnly_read _
      · exact .of_pure touchesOnly_refl _
    · exact .of_pure touchesOnly_refl _
  refine .bind touchesOnly_trans hisolated fun isolated => ?_
  split
  · exact .of_pure touchesOnly_refl ()
  · refine .bind touchesOnly_trans (touchesOnly_read _) fun result => ?_
    split
    · split
      · exact touchesOnly_fault rfl x
      · exact .bind touchesOnly_trans (touchesOnly_emit true hx) fun _ =>
          touchesOnly_access _
    · exact touchesOnly_fault rfl x

namespace PartialAccess

variable (p : PartialAccess) (opcode : BitVec 32) (s : MipsBase T δ)

/-- The instruction is a loop over its addresses, and for a load a write of the register. -/
lemma inst_load (h : p.store = false) : ∃ (shamt : ℕ → ℕ) (value : BitVec p.unit.width),
    p.inst m opcode s =
      (loadBytes m (p.step (effectiveAddress m opcode s)) shamt
        (p.count m.config.useBigEndian (effectiveAddress m opcode s)) value >>= fun value =>
          writeGpr64 (rtField opcode) (p.unit.extend value)) s := by
  obtain ⟨u, left, store⟩ := p
  obtain rfl : store = false := h
  cases left with
  | true => exact ⟨_, _, loadLeft_run u opcode s⟩
  | false => exact ⟨_, _, loadRight_run u opcode s⟩

lemma inst_store (h : p.store = true) : ∃ (shamt : ℕ → ℕ) (value : BitVec p.unit.width),
    p.inst m opcode s =
      storeBytes m (p.step (effectiveAddress m opcode s)) shamt
        (p.count m.config.useBigEndian (effectiveAddress m opcode s)) value s := by
  obtain ⟨u, left, store⟩ := p
  obtain rfl : store = true := h
  cases left with
  | true => exact ⟨_, _, storeLeft_run u opcode s⟩
  | false => exact ⟨_, _, storeRight_run u opcode s⟩

variable {p opcode s}

lemma mem_addresses {useBigEndian : Bool} {a : BitVec 64} {i : ℕ}
    (hi : i ∈ List.range (p.count useBigEndian a)) : p.step a i ∈ p.addresses useBigEndian a :=
  List.mem_map.mpr ⟨i, hi, rfl⟩

/-- Whatever the processor, a run touches no other bytes than those of the list. -/
lemma inst_touches {s' : MipsBase T δ} (h : p.inst m opcode s = .ok ((), s')) :
    TouchesOnly p.store
      (· ∈ p.addresses m.config.useBigEndian (effectiveAddress m opcode s)) s s' := by
  cases hstore : p.store with
  | false =>
      obtain ⟨shamt, value, hrun⟩ := p.inst_load (m := m) opcode s hstore
      rw [hrun] at h
      obtain ⟨value', t, hloop, hwrite⟩ := Prog.bind_ok.mp h
      have hloads := Prog.Moves.foldlM touchesOnly_refl touchesOnly_trans
        (f := mergeByte (T := T) m (p.step (effectiveAddress m opcode s)) shamt)
        (R := TouchesOnly false
          (· ∈ p.addresses m.config.useBigEndian (effectiveAddress m opcode s)))
        (List.range (p.count m.config.useBigEndian (effectiveAddress m opcode s)))
        (fun value i hi => .bind touchesOnly_trans (touchesOnly_load8 (mem_addresses hi))
          fun loadResult => by cases loadResult <;> exact .of_pure touchesOnly_refl _)
        value s value' t hloop
      obtain ⟨gpr, rfl⟩ := writeGpr64_ok hwrite
      exact hloads
  | true =>
      obtain ⟨shamt, value, hrun⟩ := p.inst_store (m := m) opcode s hstore
      rw [hrun] at h
      exact Prog.Moves.forM touchesOnly_refl touchesOnly_trans _
        (fun i hi => touchesOnly_store8 (mem_addresses hi) _) s () s' h

end PartialAccess

end Reports

/-! ## Reports of the main processor -/

/-- A reported miss does not change what is translated. -/
def StableTranslation (T : Type) [MipsTlbBase T] : Prop :=
  ∀ (tlb : T) x y, translateAddress (informTlbException tlb x) y = translateAddress tlb y

lemma stable_normal : StableTranslation MipsTlbNormal := fun tlb x _ =>
  translateAddress_inform tlb x

lemma stable_dummy : StableTranslation MipsTlbDummy := fun _ _ _ => rfl

section Granted

variable {T : Type} [MipsTlbBase T] {m : MipsSetup δ}

/-- The access to a byte reaches the bus. -/
def granted (m : MipsSetup δ) (store : Bool) (s : MipsBase T δ) (x : BitVec 64) : Bool :=
  (translateAddress s.tlb x).found &&
    (!store || !isolated m s && !(translateAddress s.tlb x).readOnly)

/-- What is granted in one state is granted in the other. -/
def SameGrants (m : MipsSetup δ) (s t : MipsBase T δ) : Prop :=
  ∀ store x, granted m store t x = granted m store s x

lemma sameGrants_faulted (hT : StableTranslation T) (address : BitVec 64) (s : MipsBase T δ) :
    SameGrants m s (faulted address s) := by
  intro store x
  simp only [granted, isolated, faulted, hT s.tlb address x]

variable (hm : m.IsN64) (hT : StableTranslation T)

include hm hT

lemma load8_report {x : BitVec 64} {s t : MipsBase T δ} {value : Option (BitVec 8)}
    (h : load8 m x s = .ok (value, t)) :
    SameGrants m s t ∧
      t.trace = (if granted m false s x then [.load 1 x] else []) ++ s.trace := by
  rw [load8, loadWith, Prog.bind_of_ok (read_run _ _)] at h
  cases hfound : (translateAddress s.tlb x).found with
  | true =>
      rw [if_pos hfound, emit, Prog.bind_of_ok (Prog.modify_run _ _)] at h
      obtain ⟨a, u, haccess, hvalue⟩ := Prog.bind_ok.mp h
      obtain ⟨_, _, _, rfl⟩ := access_ok haccess
      split at hvalue
      · obtain ⟨-, rfl⟩ := Prog.ok_inj hvalue
        refine ⟨fun _ _ => rfl, ?_⟩
        simp [granted, hfound]
      · exact absurd hvalue (by simp)
  | false =>
      rw [if_neg (by simp [hfound])] at h
      obtain ⟨⟨⟩, u, hfault, hvalue⟩ := Prog.bind_ok.mp h
      obtain ⟨-, rfl⟩ := translationFault_ok hm rfl hfault
      obtain ⟨-, rfl⟩ := Prog.ok_inj hvalue
      refine ⟨sameGrants_faulted hT x s, ?_⟩
      simp [granted, hfound, faulted]

lemma store8_report {x : BitVec 64} {byte : BitVec 8} {s t : MipsBase T δ}
    (h : store8 m x byte s = .ok ((), t)) :
    SameGrants m s t ∧
      t.trace = (if granted m true s x then [.store 1 x] else []) ++ s.trace := by
  rw [store8, storeWith, Prog.bind_of_ok (isIsolated_run hm s)] at h
  cases hisolated : isolated m s with
  | true =>
      rw [hisolated, if_pos rfl] at h
      rw [← Prog.state_eq h]
      exact ⟨fun _ _ => rfl, by simp [granted, hisolated]⟩
  | false =>
      rw [hisolated, if_neg (by simp), Prog.bind_of_ok (read_run _ _)] at h
      have hfault : ∀ cause : ExceptionCause, cause.isTlb = true →
          translationFault m (triggerException m) cause x s = .ok ((), t) →
            SameGrants m s t ∧ t.trace = s.trace := by
        intro cause hcause hrun
        obtain ⟨-, rfl⟩ := translationFault_ok hm hcause hrun
        exact ⟨sameGrants_faulted hT x s, rfl⟩
      cases hfound : (translateAddress s.tlb x).found with
      | false =>
          rw [if_neg (by simp [hfound])] at h
          obtain ⟨hsame, htrace⟩ := hfault _ rfl h
          exact ⟨hsame, by simp [granted, hfound, htrace]⟩
      | true =>
          rw [if_pos hfound] at h
          cases hread : (translateAddress s.tlb x).readOnly with
          | true =>
              rw [if_pos hread] at h
              obtain ⟨hsame, htrace⟩ := hfault _ rfl h
              exact ⟨hsame, by simp [granted, hread, htrace]⟩
          | false =>
              rw [if_neg (by simp [hread]), emit, Prog.bind_of_ok (Prog.modify_run _ _)] at h
              obtain ⟨_, _, _, rfl⟩ := access_ok h
              exact ⟨fun _ _ => rfl, by simp [granted, hfound, hread, hisolated]⟩

/-- A loop reports its granted accesses, the last one first. -/
lemma loads_report {w : ℕ} {address : ℕ → BitVec 64} {shamt : ℕ → ℕ} (l : List ℕ) (value : BitVec w)
    {s t : MipsBase T δ} {value' : BitVec w}
    (h : l.foldlM (mergeByte m address shamt) value s = .ok (value', t)) :
    t.trace = ((l.map address).filter (granted m false s)).reverse.map (.load 1) ++ s.trace := by
  induction l generalizing value s with
  | nil =>
      rw [← Prog.state_eq h]
      rfl
  | cons i l ih =>
      rw [List.foldlM_cons] at h
      obtain ⟨value'', u, hround, hrest⟩ := Prog.bind_ok.mp h
      obtain ⟨loadResult, u', hload, hmerge⟩ := Prog.bind_ok.mp hround
      obtain rfl : u' = u := by
        cases loadResult <;> exact Prog.state_eq hmerge
      obtain ⟨hsame, htrace⟩ := load8_report hm hT hload
      have hgranted : granted m false u' = granted m false s := funext (hsame false)
      rw [ih value'' hrest, htrace, hgranted, List.map_cons, List.filter_cons]
      split <;> simp

lemma stores_report {w : ℕ} {address : ℕ → BitVec 64} {shamt : ℕ → ℕ} (l : List ℕ)
    (value : BitVec w) {s t : MipsBase T δ}
    (h : (ForM.forM l fun i => store8 m (address i) ((value >>> shamt i).setWidth 8)) s =
      .ok ((), t)) :
    t.trace = ((l.map address).filter (granted m true s)).reverse.map (.store 1) ++ s.trace := by
  induction l generalizing s with
  | nil =>
      rw [← Prog.state_eq h]
      rfl
  | cons i l ih =>
      rw [List.forM_cons] at h
      obtain ⟨⟨⟩, u, hstore, hrest⟩ := Prog.bind_ok.mp h
      obtain ⟨hsame, htrace⟩ := store8_report hm hT hstore
      have hgranted : granted m true u = granted m true s := funext (hsame true)
      rw [ih hrest, htrace, hgranted, List.map_cons, List.filter_cons]
      split <;> simp

/-- A run reports the accesses of the list that are granted. -/
lemma inst_trace {p : PartialAccess} {opcode : BitVec 32} {s t : MipsBase T δ}
    (h : p.inst m opcode s = .ok ((), t)) :
    t.trace =
      ((p.addresses m.config.useBigEndian (effectiveAddress m opcode s)).filter
        (granted m p.store s)).reverse.map p.event ++ s.trace := by
  cases hstore : p.store with
  | false =>
      have hevent : p.event = .load 1 := by
        funext x
        rw [PartialAccess.event, hstore, if_neg (by simp)]
      obtain ⟨shamt, value, hrun⟩ := p.inst_load (m := m) opcode s hstore
      rw [hrun] at h
      obtain ⟨value', u, hloop, hwrite⟩ := Prog.bind_ok.mp h
      have hreport := loads_report hm hT _ value hloop
      obtain ⟨gpr, rfl⟩ := writeGpr64_ok hwrite
      rw [hevent]
      exact hreport
  | true =>
      have hevent : p.event = .store 1 := by
        funext x
        rw [PartialAccess.event, hstore, if_pos rfl]
      obtain ⟨shamt, value, hrun⟩ := p.inst_store (m := m) opcode s hstore
      rw [hrun] at h
      rw [hevent]
      exact stores_report hm hT _ value h

end Granted

/-! ## Staying inside -/

/-- What holds of an instruction at an effective address, in every run on every processor. -/
structure StaysInside (p : PartialAccess) (useBigEndian : Bool) (a : BitVec 64) : Prop where
  inside : ∀ (T δ : Type) [MipsTlbBase T] (m : MipsSetup δ) (opcode : BitVec 32)
    (s s' : MipsBase T δ), m.config.useBigEndian = useBigEndian →
      effectiveAddress m opcode s = a → p.inst m opcode s = .ok ((), s') →
        TouchesOnly p.store (p.Inside a) s s'
  /-- Also when the run stops before the end of the loop. -/
  attempted : ∀ x ∈ p.addresses useBigEndian a, p.Inside a x
  page : ∀ x ∈ p.addresses useBigEndian a, x.toNat / 2 ^ 12 = a.toNat / 2 ^ 12
  /-- All bytes reach the bus or none does. -/
  together : ∀ (δ : Type) (m : MipsSetup δ) (opcode : BitVec 32)
    (s s' : MipsBase MipsTlbNormal δ), m.IsN64 → m.config.useBigEndian = useBigEndian →
      effectiveAddress m opcode s = a → p.inst m opcode s = .ok ((), s') →
        s'.trace = s.trace ∨
          s'.trace = (p.addresses useBigEndian a).reverse.map p.event ++ s.trace

/-- A byte of the unit is on the page of the unit. -/
lemma PartialAccess.Inside.page {p : PartialAccess} {a x : BitVec 64} (h : p.Inside a x) :
    x.toNat / 2 ^ 12 = a.toNat / 2 ^ 12 := by
  have hbytes : p.unit.bytes = 4 ∨ p.unit.bytes = 8 := by cases p.unit <;> simp [AccessUnit.bytes]
  rw [PartialAccess.Inside] at h
  rcases hbytes with hn | hn <;> rw [hn] at h <;> omega

/-- Bytes of one page are granted together. -/
lemma granted_page {m : MipsSetup δ} (store : Bool) (s : MipsBase MipsTlbNormal δ)
    {x y : BitVec 64} (h : x.toNat / 2 ^ 12 = y.toNat / 2 ^ 12) :
    granted m store s x = granted m store s y := by
  obtain ⟨hfound, hreadOnly⟩ := translateAddress_page s.tlb h
  have hfound' : (translateAddress s.tlb x).found = (translateAddress s.tlb y).found := hfound
  have hreadOnly' : (translateAddress s.tlb x).readOnly = (translateAddress s.tlb y).readOnly :=
    hreadOnly
  rw [granted, granted, hfound', hreadOnly']

lemma staysInside_of_fits {p : PartialAccess} {useBigEndian : Bool} {a : BitVec 64}
    (h : p.Fits useBigEndian a) : StaysInside p useBigEndian a := by
  have hinside := PartialAccess.inside_iff.mpr h
  refine ⟨?_, hinside, fun x hx => (hinside x hx).page, ?_⟩
  · rintro T δ _ m opcode s s' rfl rfl hrun
    obtain ⟨new, htrace, hnew⟩ := p.inst_touches hrun
    refine ⟨new, htrace, fun e he => ?_⟩
    obtain ⟨x, hx, rfl⟩ := hnew e he
    exact ⟨x, hinside x hx, rfl⟩
  · rintro δ m opcode s s' hm rfl rfl hrun
    rw [inst_trace hm stable_normal hrun]
    have hgranted : ∀ x ∈ p.addresses m.config.useBigEndian (effectiveAddress m opcode s),
        granted m p.store s x = granted m p.store s (effectiveAddress m opcode s) :=
      fun x hx => granted_page p.store s (hinside x hx).page
    cases hall : granted m p.store s (effectiveAddress m opcode s) with
    | false =>
        left
        rw [List.filter_eq_nil_iff.mpr fun x hx => by simp [hgranted x hx, hall]]
        rfl
    | true =>
        right
        rw [List.filter_eq_self.mpr fun x hx => (hgranted x hx).trans hall]

/-! ### A processor on which every access is granted -/

/-- The processor with a memory of bytes and no translation. -/
def flatSetup (useBigEndian : Bool) : MipsSetup (BitVec 64 → BitVec 8) :=
  bareSetup byteBus { useBigEndian := useBigEndian }

/-- Register 1 holds the address. -/
def flatState (a : BitVec 64) : MipsBase MipsTlbDummy (BitVec 64 → BitVec 8) where
  gpr := Function.update (fun _ => 0) 1 a
  tlb := {}
  device := fun _ => 0

/-- The fields of an instruction on `$2` with base `$1` and offset 0. -/
def flatOpcode : BitVec 32 := 0x00220000

lemma flat_address (useBigEndian : Bool) (a : BitVec 64) :
    effectiveAddress (flatSetup useBigEndian) flatOpcode (flatState a) = a := by
  have himm : sextItypeImmI64 flatOpcode = 0#64 := by decide
  have hbase : rsField flatOpcode = 1 := by decide
  have hvalue : gprValue (flatSetup useBigEndian) 1 (flatState a) = a :=
    Function.update_self (β := fun _ : BitVec 5 => BitVec 64) 1 a fun _ => 0
  rw [effectiveAddress, himm, hbase, hvalue, BitVec.add_zero]

lemma flat_returns (p : PartialAccess) (useBigEndian : Bool) (opcode : BitVec 32)
    (s : MipsBase MipsTlbDummy (BitVec 64 → BitVec 8)) :
    (p.inst (flatSetup useBigEndian) opcode).Returns s fun _ _ => True := by
  have hload : ∀ (x : BitVec 64) (s : MipsBase MipsTlbDummy (BitVec 64 → BitVec 8)),
      (load8 (flatSetup useBigEndian) x).Returns s fun _ _ => True :=
    fun x s => .of_ok rfl trivial
  have hstore : ∀ (x : BitVec 64) (byte : BitVec 8)
      (s : MipsBase MipsTlbDummy (BitVec 64 → BitVec 8)),
      (store8 (flatSetup useBigEndian) x byte).Returns s fun _ _ => True :=
    fun x byte s => .of_ok rfl trivial
  cases hkind : p.store with
  | false =>
      obtain ⟨shamt, value, hrun⟩ := p.inst_load (m := flatSetup useBigEndian) opcode s hkind
      rw [Prog.Returns, hrun]
      refine (Prog.Returns.foldlM (fun value i s => ?_) _ value s).bind fun value' t _ => ?_
      · refine (hload _ s).bind fun loadResult t _ => ?_
        cases loadResult <;> exact .of_pure trivial
      · rw [writeGpr64]
        split
        · exact .of_pure trivial
        · exact .of_modify trivial
  | true =>
      obtain ⟨shamt, value, hrun⟩ := p.inst_store (m := flatSetup useBigEndian) opcode s hkind
      rw [Prog.Returns, hrun]
      exact Prog.Returns.forM (fun i s => hstore _ _ s) _ s

/-- A run on this processor reports every byte of the loop. -/
lemma fits_of_inside {p : PartialAccess} {useBigEndian : Bool} {a : BitVec 64}
    (h : StaysInside p useBigEndian a) : p.Fits useBigEndian a := by
  refine PartialAccess.inside_iff.mp fun x hx => ?_
  obtain ⟨⟨⟩, s', hrun, -⟩ := flat_returns p useBigEndian flatOpcode (flatState a)
  obtain ⟨new, htrace, hnew⟩ :=
    h.inside _ _ _ _ _ _ rfl (flat_address useBigEndian a) hrun
  have hreport := inst_trace (m := flatSetup useBigEndian) (bareSetup_isN64 _ _) stable_dummy hrun
  have hall : ∀ y, granted (flatSetup useBigEndian) p.store (flatState a) y = true := by
    intro y
    cases p.store <;> rfl
  rw [flat_address, List.filter_eq_self.mpr fun y _ => hall y] at hreport
  have hnew' : new = (p.addresses useBigEndian a).reverse.map p.event :=
    List.append_cancel_right (htrace.symm.trans hreport)
  obtain ⟨y, hy, hevent⟩ :=
    hnew (p.event x) (hnew' ▸ List.mem_map_of_mem (List.mem_reverse.mpr hx))
  rw [PartialAccess.event] at hevent
  cases hkind : p.store with
  | false =>
      rw [hkind, if_neg (by simp), if_neg (by simp)] at hevent
      exact (Event.load.inj hevent).2 ▸ hy
  | true =>
      rw [hkind, if_pos rfl, if_pos rfl] at hevent
      exact (Event.store.inj hevent).2 ▸ hy

/-- The instruction stays inside the aligned unit of its address exactly on a big-endian
processor, or when the loop runs away from the nearer end of the unit. -/
theorem staysInside_iff (p : PartialAccess) (useBigEndian : Bool) (a : BitVec 64) :
    StaysInside p useBigEndian a ↔ p.Fits useBigEndian a :=
  ⟨fits_of_inside, staysInside_of_fits⟩

/-- `LWL` at the last byte of a word, little-endian: the three bytes after the word are loaded. -/
theorem littleEndianLwl_leaves : ¬ StaysInside ⟨.word, true, false⟩ false 0x80000003 := by
  intro h
  rcases fits_of_inside h with hbig | hhalf
  · exact absurd hbig (by decide)
  · exact absurd hhalf (by decide)

end MipsBase

end NgMips
