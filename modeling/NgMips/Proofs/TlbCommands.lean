import NgMips.Lib.XorLinear
import NgMips.Proofs.Cop0Regs
import NgMips.Proofs.Tlb
import NgMips.Source.Machine

/-!
# Random and Index

Two ways for a program to choose an entry of the translation unit.  `Random` is read from a
generator until a number is found that is not below `Wired`: the generator comes by all words but
zero (`xorshift_period`), so this ends exactly when `Wired` is the number of an entry
(`randomRespectsWired_iff`).  `Index` is set by a probe, and shows its result exactly when
there was a match (`indexShowsProbe_iff`): the mark of a miss is among the bits that are not
stored.
-/

namespace NgMips

/-! ## The generator -/

lemma xorLinear_xorshift : XorLinear xorshift := by
  have hleft : ∀ n : ℕ, XorLinear fun x : BitVec 32 => x ^^^ x <<< n :=
    fun n => XorLinear.id.xor (.shiftLeft n)
  have hright : ∀ n : ℕ, XorLinear fun x : BitVec 32 => x ^^^ x >>> n :=
    fun n => XorLinear.id.xor (.ushiftRight n)
  exact (hleft 5).comp ((hright 17).comp (hleft 13))

/-- The generator comes back to its first word after `2 ^ 32 - 1` steps. -/
lemma xorshift_period : Function.IsPeriodicPt xorshift (2 ^ 32 - 1) (xorshift 1) := by
  have hcolumns := iterate_two_pow xorLinear_xorshift (rfl : IsColumns _ xorshift) 32 1
  have hcomputed : applyColumns
      (square^[32] ((List.range 32).map fun i => xorshift (BitVec.twoPow 32 i))) 0 1 =
        xorshift 1 := by decide +kernel
  rw [Function.IsPeriodicPt, Function.IsFixedPt, ← Function.iterate_succ_apply]
  exact hcolumns.symm.trans hcomputed

/-- From everywhere on its way the generator reaches a word whose five low bits are set. -/
lemma xorshift_hits (n : ℕ) :
    ∃ j, 1 ≤ j ∧ j ≤ 2 ^ 32 ∧ xorshift^[j] (xorshift^[n] 1) &&& 0x1F = 31 := by
  obtain ⟨j, hj, hle, hhit⟩ := exists_iterate_of_isPeriodicPt (by decide) xorshift_period
    (k := 79) (by decide) (by decide) n
  refine ⟨j, hj, by omega, ?_⟩
  rw [hhit]
  decide +kernel

/-! ## The loop -/

lemma randomLoop_some {wired : BitVec 32} : ∀ {n : ℕ} {state rn state' : BitVec 32},
    randomLoop wired n state = some (rn, state') →
      rn.toNat ≤ 31 ∧ wired ≤ rn ∧ ∃ j, state' = xorshift^[j] state
  | n + 1, state, rn, state', h => by
      rw [randomLoop] at h
      by_cases hstop : wired ≤ xorshift state &&& 0x1F
      · rw [if_pos hstop] at h
        obtain ⟨rfl, rfl⟩ := Prod.mk.inj (Option.some.inj h)
        refine ⟨?_, hstop, 1, rfl⟩
        rw [BitVec.toNat_and]
        exact Nat.and_le_right
      · rw [if_neg hstop] at h
        obtain ⟨hlt, hle, j, hj⟩ := randomLoop_some h
        exact ⟨hlt, hle, j + 1, hj⟩

/-- The loop ends as soon as a number is large enough. -/
lemma randomLoop_isSome {wired : BitVec 32} : ∀ {n : ℕ} {state : BitVec 32} {j : ℕ}, 1 ≤ j → j ≤ n →
    wired ≤ xorshift^[j] state &&& 0x1F → (randomLoop wired n state).isSome = true
  | 0, _, _, hj, hle, _ => by omega
  | n + 1, state, j, hj, hle, hhit => by
      rw [randomLoop]
      by_cases hstop : wired ≤ xorshift state &&& 0x1F
      · rw [if_pos hstop]
        rfl
      · rw [if_neg hstop]
        obtain ⟨j, rfl⟩ : ∃ i, j = i + 1 := ⟨j - 1, by omega⟩
        have hpos : 1 ≤ j := by
          rcases Nat.eq_zero_or_pos j with rfl | hpos
          · exact absurd hhit hstop
          · exact hpos
        exact randomLoop_isSome hpos (by omega) hhit

/-- No number is large enough for a `Wired` beyond the last entry. -/
lemma randomLoop_beyond {wired : BitVec 32} (h : 31 < wired.toNat) (n : ℕ) (state : BitVec 32) :
    randomLoop wired n state = none := by
  cases hrun : randomLoop wired n state with
  | none => rfl
  | some r =>
      obtain ⟨rn, state'⟩ := r
      obtain ⟨hlt, hle, -⟩ := randomLoop_some hrun
      rw [BitVec.le_def] at hle
      omega

namespace MipsBase

variable {T δ : Type} [MipsTlbBase T] {m : MipsSetup δ} {opcode : BitVec 32} {func : MipsInstId}

/-! ## The states of the generator -/

/-- The generator moves on, or does nothing. -/
def Generates (s s' : MipsBase T δ) : Prop := ∃ j, s'.xorshiftState = xorshift^[j] s.xorshiftState

omit [MipsTlbBase T] in
lemma Generates.of_same {s s' : MipsBase T δ} (h : s'.xorshiftState = s.xorshiftState) :
    Generates s s' := ⟨0, h⟩

omit [MipsTlbBase T] in
lemma Generates.trans {s t u : MipsBase T δ} (h : Generates s t) (h' : Generates t u) :
    Generates s u := by
  obtain ⟨j, hj⟩ := h
  obtain ⟨k, hk⟩ := h'
  exact ⟨k + j, by rw [hk, hj, Function.iterate_add_apply]⟩

omit [MipsTlbBase T] in
/-- Reading `Random` is the loop. -/
lemma readRandom_some {s s' : MipsBase T δ} {rn : BitVec 32}
    (h : readRandom s = .ok (rn, s')) :
    ∃ state, randomLoop s.cop0.wired (2 ^ 32) s.xorshiftState = some (rn, state) ∧
      s' = { s with xorshiftState := state } := by
  rw [readRandom] at h
  cases hloop : randomLoop s.cop0.wired (2 ^ 32) s.xorshiftState with
  | none =>
      rw [hloop] at h
      exact absurd h (by simp)
  | some r =>
      rw [hloop] at h
      obtain ⟨hrn, hs⟩ := Prog.ok_inj h
      exact ⟨r.2, by rw [← hrn], hs.symm⟩

lemma generates_elem (α : Type) (x : CpuM T δ α) (hx : Elem m opcode func α x) :
    Prog.Moves Generates x := by
  intro s a s' h
  have hinternal : Internals m x → Generates s s' := fun hx => by
    obtain ⟨_, _, _, _, _, _, _, _, _, -, rfl⟩ := changed_internals hx s a s' h
    exact .of_same rfl
  cases hx with
  | readStatus => exact hinternal (internal_copRead32Internal 12)
  | fault cause _ address =>
      exact hinternal (internal_translationFault internal_triggerException cause address)
  | writeGpr idx value =>
      obtain ⟨gpr, rfl⟩ := writeGpr64_ok h
      exact .of_same rfl
  | access f =>
      obtain ⟨device, halt, cache, rfl⟩ := access_ok h
      exact .of_same rfl
  | random =>
      obtain ⟨state, hloop, rfl⟩ := readRandom_some h
      exact (randomLoop_some hloop).2.2
  | fpu f =>
      obtain ⟨fpu, rfl⟩ := setFpu_ok h
      exact .of_same rfl
  | eret _ _ _ =>
      rw [eret_run] at h
      rw [← Prog.state_eq h]
      exact .of_same rfl
  | panic α reason => exact absurd h (by simp)
  | _ =>
      rw [← Prog.state_eq h]
      exact .of_same rfl

/-- Every instruction leaves the generator on its way. -/
lemma generates_execute {s s' : MipsBase T δ} (h : execute m opcode func s = .ok ((), s')) :
    Generates s s' := by
  rw [execute_run] at h
  have hstart : Generates s (started opcode s) := .of_same rfl
  refine hstart.trans ((callInst_core m opcode func).moves (fun _ => .of_same rfl)
    (fun _ _ _ => .trans) (fun α x hx => ?_) _ _ _ h)
  rcases hx with hx | hx
  · intro s a s' h
    obtain ⟨_, _, _, _, _, _, _, _, _, -, rfl⟩ := changed_internals (.op hx) s a s' h
    exact .of_same rfl
  · exact generates_elem α x (elem_core α x hx)

variable (m) in
/-- The states a run can reach, as far as the generator is concerned.  It is shared by all
processors, and nobody resets it. -/
inductive GeneratorReachable : MipsBase T δ → Prop
  | start {s : MipsBase T δ} (h : s.xorshiftState = 1) : GeneratorReachable s
  /-- An instruction is executed. -/
  | inst {opcode : BitVec 32} {func : MipsInstId} {s s' : MipsBase T δ}
      (hreach : GeneratorReachable s) (h : execute m opcode func s = .ok ((), s')) :
      GeneratorReachable s'
  /-- Another processor uses the generator, or something happens that does not concern it. -/
  | other {s s' : MipsBase T δ} (hreach : GeneratorReachable s) (h : Generates s s') :
      GeneratorReachable s'

lemma GeneratorReachable.generated {s : MipsBase T δ} (h : GeneratorReachable m s) :
    ∃ n, s.xorshiftState = xorshift^[n] 1 := by
  have hstep : ∀ {t u : MipsBase T δ}, (∃ n, t.xorshiftState = xorshift^[n] 1) → Generates t u →
      ∃ n, u.xorshiftState = xorshift^[n] 1 := by
    rintro t u ⟨n, hn⟩ ⟨j, hj⟩
    exact ⟨j + n, by rw [hj, hn, Function.iterate_add_apply]⟩
  induction h with
  | start h => exact ⟨0, h⟩
  | inst _ h ih => exact hstep ih (generates_execute h)
  | other _ h ih => exact hstep ih h

/-- With the number of an entry in `Wired`, reading `Random` ends. -/
lemma readRandom_ends {s : MipsBase T δ} (hreach : GeneratorReachable m s)
    (hwired : s.cop0.wired.toNat ≤ 31) :
    ∃ rn state, readRandom s = .ok (rn, { s with xorshiftState := state }) ∧ rn.toNat ≤ 31 ∧
      s.cop0.wired ≤ rn := by
  obtain ⟨n, hn⟩ := hreach.generated
  obtain ⟨j, hj, hle, hhit⟩ := xorshift_hits n
  have hstop : s.cop0.wired ≤ xorshift^[j] s.xorshiftState &&& 0x1F := by
    rw [hn, hhit]
    exact hwired
  obtain ⟨⟨rn, state⟩, hloop⟩ := Option.isSome_iff_exists.mp (randomLoop_isSome hj hle hstop)
  obtain ⟨hlt, hge, -⟩ := randomLoop_some hloop
  refine ⟨rn, state, ?_, hlt, hge⟩
  rw [readRandom, hloop]

/-! ## Random -/

variable (m) in
/-- The loop behind `Random` ends, reading the register returns the number of an entry that is not
wired, and `TLBWR` leaves the wired entries alone. -/
structure RandomRespectsWired (s : MipsBase MipsTlbNormal δ) : Prop where
  ends : ∃ n, (randomLoop s.cop0.wired n s.xorshiftState).isSome = true
  read : ∀ opcode, readsReg m 1 opcode = true → ∃ s' rn,
    execute m opcode (getInstFuncPtr m.kIs64Bit opcode) s = .ok ((), s') ∧
      (rtField opcode ≠ 0 → s'.gpr (rtField opcode) = movedValue opcode (rn.setWidth 64)) ∧
      rn.toNat ≤ 31 ∧ (s.cop0.wired.toNat ≤ 31 → s.cop0.wired.toNat ≤ (rn : BitVec 32).toNat)
  write : ∀ opcode, isCop0Command m opcode 0x06 = true → ∃ s',
    execute m opcode (getInstFuncPtr m.kIs64Bit opcode) s = .ok ((), s') ∧
      ∀ i : Fin 32, i.val < s.cop0.wired.toNat → s'.tlb.entry i = s.tlb.entry i

/-- Only the entry of the number is written. -/
lemma tlbWrite_entry {rn : BitVec 32} (hrn : rn.toNat ≤ 31) (tlb : MipsTlbNormal) {i : Fin 32}
    (hi : i.val < rn.toNat) : (tlbWrite rn tlb).entry i = tlb.entry i := by
  have hindex : (entryIndex rn).val = rn.toNat := by
    have hlow : (rn &&& 31).toNat = rn.toNat := by
      have hmask : (31 : BitVec 32).toNat = 2 ^ 5 - 1 := rfl
      rw [BitVec.toNat_and, hmask, Nat.and_two_pow_sub_one_eq_mod]
      omega
    change (rn &&& 31).toNat % 32 = _
    omega
  refine Function.update_of_ne (fun heq => ?_) _ _
  have hval := congrArg Fin.val heq
  omega

/-- Reading `Random` and `TLBWR` do what they should exactly when `Wired` is the number of an entry:
otherwise the loop goes on forever. -/
theorem randomRespectsWired_iff (hm : m.IsN64) {s : MipsBase MipsTlbNormal δ}
    (hreach : GeneratorReachable m s) :
    RandomRespectsWired m s ↔ s.cop0.wired.toNat ≤ 31 := by
  constructor
  · intro h
    obtain ⟨n, hn⟩ := h.ends
    by_contra hbeyond
    rw [randomLoop_beyond (by omega)] at hn
    exact absurd hn (by simp)
  · intro hwired
    have hends : ∀ opcode, ∃ rn state, readRandom (started opcode s) =
        .ok (rn, { started opcode s with xorshiftState := state }) ∧ rn.toNat ≤ 31 ∧
          s.cop0.wired ≤ rn := fun opcode =>
      readRandom_ends (m := m) (.other hreach (.of_same rfl)) hwired
    refine ⟨⟨2 ^ 32, ?_⟩, fun opcode hr => ?_, fun opcode hc => ?_⟩
    · obtain ⟨rn, state, hrun, -⟩ := readRandom_ends hreach hwired
      obtain ⟨state', hloop, -⟩ := readRandom_some hrun
      rw [hloop]
      rfl
    · obtain ⟨rn, state, hrun, hlt, hge⟩ := hends opcode
      have hread : cop0Read64 (1 : BitVec 5).toNat (started opcode s) =
          .ok (rn.setWidth 64, { started opcode s with xorshiftState := state }) :=
        Prog.bind_of_ok hrun
      rw [execute_run, callInst_readsReg hm hr, Prog.bind_of_ok hread, writeGpr64]
      by_cases hrt : rtField opcode = 0
      · rw [if_pos hrt]
        exact ⟨_, rn, rfl, fun hne => absurd hrt hne, hlt, fun _ => hge⟩
      · rw [if_neg hrt]
        exact ⟨_, rn, rfl, fun _ => Function.update_self (β := fun _ : BitVec 5 => BitVec 64) _ _ _,
          hlt, fun _ => hge⟩
    · obtain ⟨rn, state, hrun, hlt, hge⟩ := hends opcode
      obtain ⟨hfunct, hcall⟩ := callInst_isCop0Command hm hc (started opcode s)
      rw [execute_run, hcall, cop0Command, hfunct]
      change ∃ s', (readRandom >>= fun rn => modifyTlb (tlbWrite rn)) (started opcode s) = _ ∧ _
      rw [Prog.bind_of_ok hrun]
      exact ⟨_, rfl, fun i hi => tlbWrite_entry hlt s.tlb (lt_of_lt_of_le hi hge)⟩

/-- A processor with all but one of its entries wired. -/
def wiredUp : MipsBase MipsTlbNormal WordMemory :=
  { programState 0x80001000 0x1000 [] with cop0 := { wired := 31 } }

theorem wiredUp_respects : wiredUp.cop0.wired = 31 ∧ RandomRespectsWired exceptionSetup wiredUp :=
  ⟨rfl, (randomRespectsWired_iff (n64Setup_isN64 _) (.start rfl)).mpr (by decide)⟩

/-- `MTC0 $1, Wired` with 32 in the register. -/
def overWired : MipsBase MipsTlbNormal WordMemory :=
  lastState (execute exceptionSetup 0x40813000 .kMtc)
    { programState 0x80001000 0x1000 [0x40813000] with gpr := fun idx => if idx = 1 then 32 else 0 }

/-- Nothing holds the guest back from writing it, and the loop never ends. -/
theorem overWired_hangs :
    overWired.cop0.wired = 32 ∧ GeneratorReachable exceptionSetup overWired ∧
      (∀ n, randomLoop overWired.cop0.wired n overWired.xorshiftState = none) ∧
      ¬ RandomRespectsWired exceptionSetup overWired := by
  have hwired : overWired.cop0.wired = 32 := by decide +kernel
  have hbeyond : 31 < overWired.cop0.wired.toNat := by rw [hwired]; decide
  refine ⟨hwired, .start (by decide +kernel), fun n => randomLoop_beyond hbeyond n _, fun h => ?_⟩
  obtain ⟨n, hn⟩ := h.ends
  rw [randomLoop_beyond hbeyond] at hn
  exact absurd hn (by simp)

/-! ## Index -/

variable (m) in
/-- After a probe, reading `Index` returns what the probe found. -/
def IndexShowsProbe (probe load : BitVec 32) (s : MipsBase MipsTlbNormal δ) : Prop :=
  ∃ t u, execute m probe (getInstFuncPtr m.kIs64Bit probe) s = .ok ((), t) ∧
    execute m load (getInstFuncPtr m.kIs64Bit load) t = .ok ((), u) ∧
    u.gpr (rtField load) = movedValue load (s.tlb.probeTlbEntry.setWidth 64)

/-- What the register holds after a probe. -/
lemma probeTlbEntry_masked_iff (tlb : MipsTlbNormal) :
    tlb.probeTlbEntry &&& 0x3F = tlb.probeTlbEntry ↔
      ∃ i, (tlb.entry i).matchesProbe tlb.entryHi = true := by
  rw [MipsTlbNormal.probeTlbEntry]
  cases hscan : (List.finRange 32).find? fun i => (tlb.entry i).matchesProbe tlb.entryHi with
  | none =>
      refine iff_of_false (by decide) ?_
      rintro ⟨i, hi⟩
      have hno := find?_finRange_eq_none_iff.mp hscan i
      exact absurd (hno.symm.trans hi) (by simp)
  | some i =>
      have hentry : ∀ i : Fin 32, BitVec.ofNat 32 i &&& 0x3F = BitVec.ofNat 32 i := by decide
      exact iff_of_true (hentry i) ⟨i, (find?_finRange_eq_some_iff.mp hscan).1⟩

/-- A probe is shown by `Index` exactly when it found an entry: the mark of a miss is cut off, and
what is left is the number of entry 0. -/
theorem indexShowsProbe_iff (hm : m.IsN64) {probe load : BitVec 32}
    (hprobe : isCop0Command m probe 0x08 = true) (hload : readsReg m 0 load = true)
    (hrt : rtField load ≠ 0) (s : MipsBase MipsTlbNormal δ) :
    IndexShowsProbe m probe load s ↔ ∃ i, (s.tlb.entry i).matchesProbe s.tlb.entryHi = true := by
  obtain ⟨hfunct, hcall⟩ := callInst_isCop0Command hm hprobe (started probe s)
  have ht : execute m probe (getInstFuncPtr m.kIs64Bit probe) s =
      .ok ((), { started probe s with tlb := tlbProbe s.tlb }) := by
    rw [execute_run, hcall, cop0Command, hfunct]
    rfl
  obtain ⟨t, hs⟩ : ∃ t, t = { started probe s with tlb := tlbProbe s.tlb } := ⟨_, rfl⟩
  have hindex : t.tlb.index = s.tlb.probeTlbEntry &&& 0x3F := by rw [hs]; rfl
  rw [← hs] at ht
  have hu : execute m load (getInstFuncPtr m.kIs64Bit load) t = .ok ((), { started load t with
      gpr := Function.update t.gpr (rtField load)
        (movedValue load ((s.tlb.probeTlbEntry &&& 0x3F).setWidth 64)) }) := by
    have hread : cop0Read64 (0 : BitVec 5).toNat (started load t) =
        .ok (t.tlb.index.setWidth 64, started load t) := rfl
    rw [execute_run, callInst_readsReg hm hload, Prog.bind_of_ok hread, writeGpr64, if_neg hrt,
      ← hindex]
    rfl
  rw [← probeTlbEntry_masked_iff]
  constructor
  · rintro ⟨t', u', ht', hu', hvalue⟩
    rw [ht] at ht'
    obtain rfl := Prog.state_eq ht'
    rw [hu] at hu'
    rw [← Prog.state_eq hu'] at hvalue
    exact movedValue_inj
      ((Function.update_self (β := fun _ : BitVec 5 => BitVec 64) _ _ _).symm.trans
      hvalue)
  · intro hkept
    rw [hkept] at hu
    exact ⟨t, _, ht, hu, Function.update_self (β := fun _ : BitVec 5 => BitVec 64) _ _ _⟩

/-- A probe followed by `MFC0 $2, Index`, with the page number of `EntryHi` in entry 5 or in no
entry. -/
def probing (entryHi : BitVec 64) : MipsBase MipsTlbNormal WordMemory :=
  { programState 0x80001000 0x1000 [0x42000008, 0x40020000] with
    tlb := {
      entry := fun i => { entryHi := if i = entryIndex 5 then 0x2000 else 0x4000 }
      entryHi := entryHi } }

/-- Entry 5 is found. -/
theorem probedHit_shown : IndexShowsProbe exceptionSetup 0x42000008 0x40020000 (probing 0x2000) :=
  (indexShowsProbe_iff (n64Setup_isN64 _) (by decide) (by decide) (by decide) _).mpr
    ⟨5, by decide⟩

/-- No entry is found, and `Index` is 0. -/
theorem probedMiss_hidden :
    (probing 0x6000).tlb.probeTlbEntry = 0x80000000 ∧
      isCop0Command exceptionSetup 0x42000008 0x08 = true ∧
      readsReg exceptionSetup 0 0x40020000 = true ∧
      ¬ IndexShowsProbe exceptionSetup 0x42000008 0x40020000 (probing 0x6000) := by
  refine ⟨by decide, by decide, by decide, ?_⟩
  rintro ⟨t, u, ht, hu, hvalue⟩
  have hs : t = lastState (execute exceptionSetup 0x42000008 .kCop) (probing 0x6000) := by
    rw [lastState, ← show getInstFuncPtr exceptionSetup.kIs64Bit 0x42000008 = .kCop by decide, ht]
  have hs' : u = lastState (execute exceptionSetup 0x40020000 .kMfc) t := by
    rw [lastState, ← show getInstFuncPtr exceptionSetup.kIs64Bit 0x40020000 = .kMfc by decide, hu]
  rw [hs', hs] at hvalue
  exact absurd hvalue (by decide +kernel)

end MipsBase

end NgMips
