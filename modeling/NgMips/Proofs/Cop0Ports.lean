import NgMips.Proofs.Count

/-!
# The two ports of coprocessor 0

The registers of coprocessor 0 are read and written by four switches, one for each width and
direction, and the model of the ports shares one between the widths.  Here the four are written
out, and compared through the register file they describe: `regFile` is what a register reads
as, and a write updates it in one place (`regFile_write32`, `regFile_write64`).  The widths agree
on all registers but `Context`, whose four low bits the 64-bit write does not clear.
-/

namespace NgMips

namespace MipsBase

/-! ## The four switches -/

section Switches

variable {T δ : Type} [MipsTlbBase T]

def read32Switch (idx : ℕ) : CpuM T δ (BitVec 32) :=
  match idx with
  | 0 => read fun s => MipsTlbBase.getIndex s.tlb
  | 1 => readRandom
  | 2 => read fun s => (MipsTlbBase.getEntryLo0 s.tlb).setWidth 32
  | 3 => read fun s => (MipsTlbBase.getEntryLo1 s.tlb).setWidth 32
  | 4 => read fun s => s.cop0.context.setWidth 32
  | 5 => read fun s => (MipsTlbBase.getPageMask s.tlb).setWidth 32
  | 6 => read fun s => s.cop0.wired
  | 8 => read fun s => s.cop0.badvaddr.setWidth 32
  | 9 => onCop0 fun ts cop0 => cop0.getCount ts
  | 10 => read fun s => (MipsTlbBase.getEntryHi s.tlb).setWidth 32
  | 11 => read fun s => s.cop0.compare
  | 12 => read fun s => s.cop0.sr
  | 13 => read fun s => s.cop0.cause
  | 14 => read fun s => s.cop0.epc.setWidth 32
  | 15 => pure 2
  | 28 => pure 0
  | 30 => read fun s => s.cop0.errorEpc.setWidth 32
  | _ => pure 0

def write32Switch (idx : ℕ) (value : BitVec 32) : CpuM T δ Unit :=
  match idx with
  | 0 => modifyTlb fun tlb => MipsTlbBase.setIndex tlb value
  | 2 => modifyTlb fun tlb => MipsTlbBase.setEntryLo0 tlb (value.setWidth 64)
  | 3 => modifyTlb fun tlb => MipsTlbBase.setEntryLo1 tlb (value.setWidth 64)
  | 4 => setCop0 fun _ cop0 => { cop0 with context := (value &&& 0xFFFFFFF0).setWidth 64 }
  | 5 => modifyTlb fun tlb => MipsTlbBase.setPageMask tlb (value.setWidth 64)
  | 6 => setCop0 fun _ cop0 => { cop0 with wired := value }
  | 8 => setCop0 fun _ cop0 => { cop0 with badvaddr := value.setWidth 64 }
  | 9 => setCop0 fun ts cop0 => cop0.writeCount ts value
  | 10 => modifyTlb fun tlb => MipsTlbBase.setEntryHi tlb (value.setWidth 64)
  | 11 => do
      setCop0 fun _ cop0 => cop0.writeCompare value
      clearCompareInterrupt
  | 12 => setCop0 fun _ cop0 => { cop0 with sr := value }
  | 13 => setCop0 fun _ cop0 =>
      { cop0 with cause := (cop0.cause &&& ~~~0x300#32) ||| (value &&& 0x300) }
  | 14 => setCop0 fun _ cop0 => { cop0 with epc := value.setWidth 64 }
  | 30 => setCop0 fun _ cop0 => { cop0 with errorEpc := value.setWidth 64 }
  | _ => pure ()

omit [MipsTlbBase T] in
/-- Widening a word and taking the low word again. -/
lemma lowWord_widened (x : CpuM T δ (BitVec 32)) :
    ((do let value ← x; pure (value.setWidth 64)) >>= fun value =>
      pure (value.setWidth 32) : CpuM T δ (BitVec 32)) = x := by
  funext s
  cases hx : x s with
  | ok r =>
      have hwidth : (r.1.setWidth 64).setWidth 32 = r.1 := by simp
      rw [Prog.bind_of_ok (Prog.bind_of_ok hx), Prog.pure_run, hwidth]
  | error e =>
      rw [Prog.bind_run, Prog.bind_run, hx]
      rfl

/-- The 32-bit ports of the processor are these switches. -/
theorem cop0Read32_switch (idx : ℕ) :
    (cop0Read32 idx : CpuM T δ (BitVec 32)) = read32Switch idx := by
  rw [cop0Read32, cop0Read64.eq_def]
  split
  case h_17 =>
    rw [read32Switch.eq_def]
    split <;> first | rfl | contradiction
  all_goals
    rw [read32Switch]
    first
      | rfl
      | exact lowWord_widened (read _)
      | exact lowWord_widened _

theorem cop0Write32_switch (idx : ℕ) (value : BitVec 32) :
    (cop0Write32 idx value : CpuM T δ Unit) = write32Switch idx value := by
  have hwidth : (value.setWidth 64).setWidth 32 = value := by simp
  rw [cop0Write32, cop0Write.eq_def]
  simp only [hwidth]
  rfl

end Switches

/-! ## The register file -/

section File

variable {δ : Type} {s : MipsBase MipsTlbNormal δ}

/-- What a register reads as; `Random` has no value of its own. -/
def regFile (s : MipsBase MipsTlbNormal δ) (idx : ℕ) : BitVec 64 :=
  match idx with
  | 0 => s.tlb.index.setWidth 64
  | 2 => s.tlb.entryLo0
  | 3 => s.tlb.entryLo1
  | 4 => s.cop0.context
  | 5 => s.tlb.pageMask
  | 6 => s.cop0.wired.setWidth 64
  | 8 => s.cop0.badvaddr
  | 9 => (s.cop0.getCount s.timestamp).1.setWidth 64
  | 10 => s.tlb.entryHi
  | 11 => s.cop0.compare.setWidth 64
  | 12 => s.cop0.sr.setWidth 64
  | 13 => s.cop0.cause.setWidth 64
  | 14 => s.cop0.epc
  | 15 => 2
  | 30 => s.cop0.errorEpc
  | _ => 0

/-- What a register reads as after a write of `value`, where `context` is what is stored in
`Context`. -/
def stored (context value : BitVec 64) (s : MipsBase MipsTlbNormal δ) (idx : ℕ) : BitVec 64 :=
  match idx with
  | 0 => (value.setWidth 32 &&& 0x3F).setWidth 64
  | 2 | 3 | 8 | 14 | 30 => value
  | 4 => context
  | 5 => value &&& 0x1FFE000
  | 6 | 11 | 12 => (value.setWidth 32).setWidth 64
  -- A count beyond the timestamp restarts at zero.
  | 9 => if s.timestamp < (value.setWidth 32).setWidth 64 then 0
      else (value.setWidth 32).setWidth 64
  | 10 => value &&& 0xFFFFE0FF
  | 13 => ((s.cop0.cause &&& ~~~0x300#32) ||| (value.setWidth 32 &&& 0x300)).setWidth 64
  | idx => regFile s idx

lemma cop0Read64_regFile {idx : ℕ} (hidx : idx ≠ 1) (s : MipsBase MipsTlbNormal δ) :
    ∃ s', cop0Read64 idx s = .ok (regFile s idx, s') := by
  rw [cop0Read64.eq_def]
  split
  case h_2 => exact absurd rfl hidx
  case h_17 =>
    refine ⟨s, ?_⟩
    rw [regFile.eq_def]
    split <;> first | rfl | contradiction
  all_goals exact ⟨_, rfl⟩

/-- What `Count` reads as is derived from its start only. -/
lemma getCount_congr {cop0 cop0' : MipsCop0} {t : BitVec 64}
    (h : cop0'.countStartTimestamp = cop0.countStartTimestamp) :
    (cop0'.getCount t).1 = (cop0.getCount t).1 := by
  rw [MipsCop0.getCount, MipsCop0.getCount, h]
  split <;> rfl

/-- Reading `Count` after it was written. -/
lemma getCount_writeCount (cop0 : MipsCop0) (t : BitVec 64) (v : BitVec 32) :
    ((cop0.writeCount t v).getCount t).1 = if t < v.setWidth 64 then 0 else v := by
  rw [MipsCop0.getCount_of_le (MipsCop0.writeCount_start_le cop0 t v),
    MipsCop0.writeCount_start]
  split
  · simp
  · have hsub : t - (t - v.setWidth 64) = v.setWidth 64 := by
      simp
    rw [hsub]
    simp

/-- A write to `Count` changes its start, and may keep the next check from raising anything. -/
lemma writeCount_fields (cop0 : MipsCop0) (t : BitVec 64) (v : BitVec 32) :
    ∃ start surpress, cop0.writeCount t v =
      { cop0 with countStartTimestamp := start, surpressCompareInterrupt := surpress } := by
  rw [MipsCop0.writeCount]
  split
  · exact ⟨_, _, rfl⟩
  · exact ⟨_, _, rfl⟩

/-- A write updates the register file in one place. -/
lemma cop0Write_regFile (context : BitVec 64) (idx : ℕ) (value : BitVec 64)
    (s : MipsBase MipsTlbNormal δ) :
    ∃ s', cop0Write context idx value s = .ok ((), s') ∧
      regFile s' = Function.update (regFile s) idx (stored context value s idx) ∧
      s'.xorshiftState = s.xorshiftState := by
  have hupdate : ∀ {s' : MipsBase MipsTlbNormal δ} {idx : ℕ} {x : BitVec 64}, regFile s' idx = x →
      (∀ i ≠ idx, regFile s' i = regFile s i) → regFile s' = Function.update (regFile s) idx x := by
    intro s' idx x hself hother
    funext i
    by_cases hi : i = idx
    · rw [hi, Function.update_self, hself]
    · rw [Function.update_of_ne hi, hother i hi]
  rw [cop0Write.eq_def]
  split
  case h_15 =>
    refine ⟨s, rfl, hupdate ?_ fun _ _ => rfl, rfl⟩
    rw [stored.eq_def]
    split <;> first | rfl | contradiction
  case h_8 =>
    refine ⟨{ s with cop0 := s.cop0.writeCount s.timestamp (value.setWidth 32) }, rfl,
      hupdate ?_ fun i hi => ?_, rfl⟩
    · have hread := getCount_writeCount s.cop0 s.timestamp (value.setWidth 32)
      refine (congrArg (BitVec.setWidth 64) hread).trans ?_
      rw [stored]
      split <;> rfl
    · obtain ⟨start, surpress, hcop0⟩ :=
        writeCount_fields s.cop0 s.timestamp (value.setWidth 32)
      rw [hcop0, regFile.eq_def, regFile.eq_def]
      split
      case h_8 => exact absurd rfl hi
      all_goals rfl
  all_goals
    refine ⟨_, rfl, hupdate rfl fun i hi => ?_, rfl⟩
    rw [regFile.eq_def, regFile.eq_def]
    split <;> first
      | rfl
      | exact absurd rfl hi
      | exact congrArg (BitVec.setWidth 64) (getCount_congr rfl)

lemma returned_read64 {idx : ℕ} (hidx : idx ≠ 1) (s : MipsBase MipsTlbNormal δ) :
    returnedValue (cop0Read64 idx) s = some (regFile s idx) := by
  obtain ⟨s', hrun⟩ := cop0Read64_regFile hidx s
  rw [returnedValue, hrun]

lemma returned_read32 {idx : ℕ} (hidx : idx ≠ 1) (s : MipsBase MipsTlbNormal δ) :
    returnedValue (read32Switch idx) s = some ((regFile s idx).setWidth 32) := by
  obtain ⟨s', hrun⟩ := cop0Read64_regFile hidx s
  rw [← cop0Read32_switch, cop0Read32, returnedValue, Prog.bind_of_ok hrun, Prog.pure_run]

/-! ## The ports compared -/

/-- Every register but the one written reads as before, and the seed behind `Random` is the
same. -/
structure OthersKept (idx : ℕ) (s s' : MipsBase MipsTlbNormal δ) : Prop where
  reads : ∀ other ≠ idx, other ≠ 1 →
    returnedValue (cop0Read64 other) s' = returnedValue (cop0Read64 other) s
  random : s'.xorshiftState = s.xorshiftState

/-- The two ports describe one register file, as far as the register `idx` and the value `v` show:
what reads back after a write does not depend on the width of the write, no other register
changes, and a 32-bit read is the low word of a 64-bit read. -/
structure PortsAgree (s : MipsBase MipsTlbNormal δ) (idx : ℕ) (v : BitVec 64) : Prop where
  writes : ∃ s₆₄ s₃₂, cop0Write64 idx v s = .ok ((), s₆₄) ∧
    write32Switch idx (v.setWidth 32) s = .ok ((), s₃₂) ∧
    returnedValue (read32Switch idx) s₆₄ = returnedValue (read32Switch idx) s₃₂ ∧
    OthersKept idx s s₆₄ ∧ OthersKept idx s s₃₂
  reads : returnedValue (read32Switch idx) s =
    (returnedValue (cop0Read64 idx) s).map (BitVec.setWidth 32)

lemma othersKept_of_update {idx : ℕ} {x : BitVec 64} {s s' : MipsBase MipsTlbNormal δ}
    (hfile : regFile s' = Function.update (regFile s) idx x)
    (hrandom : s'.xorshiftState = s.xorshiftState) : OthersKept idx s s' where
  reads other hother hone := by
    rw [returned_read64 hone, returned_read64 hone, hfile, Function.update_of_ne hother]
  random := hrandom

/-- The low word that is stored depends on the low word of the value only, `Context` apart. -/
lemma stored_lowWord {idx : ℕ} (hidx : idx ≠ 4) (context context' v : BitVec 64)
    (s : MipsBase MipsTlbNormal δ) :
    (stored context v s idx).setWidth 32 =
      (stored context' ((v.setWidth 32).setWidth 64) s idx).setWidth 32 := by
  have hwidth : ((v.setWidth 32).setWidth 64).setWidth 32 = v.setWidth 32 := by simp
  rw [stored.eq_def, stored.eq_def]
  split
  case h_7 => exact absurd rfl hidx
  all_goals simp only [hwidth, BitVec.setWidth_and]

/-- The mask of the 32-bit port changes nothing when the four low bits are clear. -/
lemma context_masked_iff (v : BitVec 64) :
    v.setWidth 32 = v.setWidth 32 &&& 0xFFFFFFF0 ↔ v &&& 0xF = 0#64 := by
  have hhigh : IsRange (0xFFFFFFF0 : BitVec 32) 4 32 := by decide
  have hlow : IsRange (0xF : BitVec 64) 0 4 := by decide
  rw [← BitVec.toNat_inj, ← BitVec.toNat_inj, hhigh.toNat_and, hlow.toNat_and,
    BitVec.toNat_setWidth, BitVec.toNat_zero]
  omega

/-- The two ports describe one register file exactly for all registers but `Context`, and for
values whose four low bits are clear. -/
theorem portsAgree_iff {idx : ℕ} (hidx : idx ≠ 1) (s : MipsBase MipsTlbNormal δ) (v : BitVec 64) :
    PortsAgree s idx v ↔ idx ≠ 4 ∨ v &&& 0xF = 0#64 := by
  obtain ⟨s₆₄, hwrite₆₄, hfile₆₄, hrandom₆₄⟩ := cop0Write_regFile v idx v s
  obtain ⟨s₃₂, hwrite₃₂, hfile₃₂, hrandom₃₂⟩ := cop0Write_regFile
    ((v.setWidth 32 &&& 0xFFFFFFF0).setWidth 64) idx ((v.setWidth 32).setWidth 64) s
  have hread : returnedValue (read32Switch idx) s₆₄ = returnedValue (read32Switch idx) s₃₂ ↔
      idx ≠ 4 ∨ v &&& 0xF = 0#64 := by
    rw [returned_read32 hidx, returned_read32 hidx, hfile₆₄, hfile₃₂, Function.update_self,
      Function.update_self, Option.some_inj]
    by_cases hcontext : idx = 4
    · subst hcontext
      have hwidth : ∀ x : BitVec 32, (x.setWidth 64).setWidth 32 = x := by
        intro x
        simp
      simp only [stored, hwidth]
      rw [context_masked_iff]
      exact ⟨Or.inr, fun h => h.resolve_left (by simp)⟩
    · exact iff_of_true (stored_lowWord hcontext _ _ v s) (Or.inl hcontext)
  constructor
  · intro h
    obtain ⟨t, t', ht, ht', hsame, -⟩ := h.writes
    have ht₆₄ : t = s₆₄ := Prog.state_eq (ht.symm.trans hwrite₆₄)
    have ht₃₂ : t' = s₃₂ := by
      rw [← cop0Write32_switch] at ht'
      exact Prog.state_eq (ht'.symm.trans hwrite₃₂)
    rw [ht₆₄, ht₃₂] at hsame
    exact hread.mp hsame
  · intro h
    refine ⟨⟨s₆₄, s₃₂, hwrite₆₄, ?_, hread.mpr h, othersKept_of_update hfile₆₄ hrandom₆₄,
      othersKept_of_update hfile₃₂ hrandom₃₂⟩, ?_⟩
    · rw [← cop0Write32_switch]
      exact hwrite₃₂
    · rw [returned_read32 hidx, returned_read64 hidx, Option.map_some]

/-- The ports agree on `EPC`. -/
theorem epcPorts_agree :
    PortsAgree (programState 0x80000000 0 []) 14 0xFFFFFFFF80000180 :=
  portsAgree_iff (by decide) _ _ |>.mpr (Or.inl (by decide))

/-- A 64-bit write to `Context` keeps the four low bits, which the 32-bit write clears. -/
theorem contextPorts_differ :
    returnedValue (read32Switch 4)
        (lastState (cop0Write64 4 0x1F) (programState 0x80000000 0 [])) = some 0x1F ∧
      returnedValue (read32Switch 4)
        (lastState (write32Switch 4 0x1F) (programState 0x80000000 0 [])) = some 0x10 ∧
      ¬ PortsAgree (programState 0x80000000 0 []) 4 0x1F := by
  refine ⟨by decide, by decide, fun h => ?_⟩
  obtain ⟨s₆₄, s₃₂, hwrite₆₄, hwrite₃₂, hsame, -⟩ := h.writes
  rw [← Prog.state_eq hwrite₆₄, ← Prog.state_eq hwrite₃₂] at hsame
  exact absurd hsame (by decide)

end File

end MipsBase

end NgMips
