import NgMips.Proofs.Exception
import NgMips.Proofs.Shape

/-!
# One instruction

Inversion of the programs around a handler: what `runInst` and `runEntry` do is what the
handler does from the state `started`, in which the observer was told and a pending jump was
used up.  At the end, what the calls of the interface share: those that only set something, and
what all of them keep.
-/

namespace NgMips

namespace MipsBase

variable {T δ : Type} [MipsTlbBase T] {m : MipsSetup δ}

/-! ## Around a handler -/

/-- The state after a pending jump was used up. -/
def advanced (s : MipsBase T δ) : MipsBase T δ :=
  { s with
    nextPc := if s.hasBranchDelay then s.branchDelayDst else s.pc + 4
    hasBranchDelay := false }

/-- The state in which a handler is called. -/
def started (opcode : BitVec 32) (s : MipsBase T δ) : MipsBase T δ :=
  advanced (told (.preExecute s.pc opcode) s)

/-- The state after the program counter was set. -/
def stepped (mask : BitVec 64) (s : MipsBase T δ) : MipsBase T δ :=
  { s with pc := s.nextPc &&& mask }

/-- The state after the cycles of some instructions were counted. -/
def counted (m : MipsSetup δ) (executed : ℕ) (s : MipsBase T δ) : MipsBase T δ :=
  let cpiCounter := s.cpiCounter + executed * m.config.cpi.toNat
  { s with
    cpiCounter := cpiCounter % 256
    cycleSpent := s.cycleSpent + cpiCounter / 256
    cycleSpentTotal := s.cycleSpentTotal + BitVec.ofNat 64 (cpiCounter / 256) }

omit [MipsTlbBase T] in
lemma advance_run (s : MipsBase T δ) : advance s = .ok ((), advanced s) := by
  rw [advance, Prog.modify_run, advanced]
  cases hbd : s.hasBranchDelay with
  | true => simp
  | false => simp

lemma execute_run (opcode : BitVec 32) (func : MipsInstId) (s : MipsBase T δ) :
    execute m opcode func s = callInst m opcode func (started opcode s) := by
  rw [execute, Prog.bind_of_ok (read_run _ _), emit, Prog.bind_of_ok (Prog.modify_run _ _),
    Prog.bind_of_ok (advance_run _)]
  rfl

omit [MipsTlbBase T] in
lemma countCycles_run (executed : ℕ) (s : MipsBase T δ) :
    countCycles m executed s = .ok ((), counted m executed s) := rfl

/-- A successful run of an entry is one of its handler. -/
lemma runEntry_ok {entry : MipsCacheEntry} {s s' : MipsBase T δ} :
    runEntry m entry s = .ok ((), s') ↔
      ∃ t, callInst m entry.opcode entry.func (started entry.opcode s) = .ok ((), t) ∧
        s' = stepped 0xFFFFFFFF t := by
  rw [runEntry, Prog.bind_ok]
  constructor
  · rintro ⟨⟨⟩, t, hcall, hset⟩
    rw [execute_run] at hcall
    rw [Prog.modify_run] at hset
    exact ⟨t, hcall, (Prog.state_eq hset).symm⟩
  · rintro ⟨t, hcall, rfl⟩
    exact ⟨(), t, by rw [execute_run, hcall], rfl⟩

/-- A successful run of an instruction from memory is a fetch and a run of its handler. -/
lemma runInst_ok {s s' : MipsBase T δ} :
    runInst m s = .ok ((), s') ↔
      ∃ opcode t₀ t, fetch m s.pc s = .ok (opcode, t₀) ∧
        callInst m opcode (getInstFuncPtr m.kIs64Bit opcode) (started opcode t₀) = .ok ((), t) ∧
        s' = counted m 1 (stepped (BitVec.allOnes 64) t) := by
  have hones : ∀ t : MipsBase T δ, stepped (BitVec.allOnes 64) t = { t with pc := t.nextPc } := by
    intro t
    rw [stepped, BitVec.and_allOnes]
  rw [runInst, Prog.bind_of_ok (read_run _ _), Prog.bind_ok]
  constructor
  · rintro ⟨opcode, t₀, hfetch, hrest⟩
    obtain ⟨⟨⟩, t, hcall, hset⟩ := Prog.bind_ok.mp hrest
    rw [execute_run] at hcall
    rw [Prog.bind_of_ok (Prog.modify_run _ _), countCycles_run] at hset
    exact ⟨opcode, t₀, t, hfetch, hcall, by rw [hones]; exact (Prog.state_eq hset).symm⟩
  · rintro ⟨opcode, t₀, t, hfetch, hcall, rfl⟩
    refine ⟨opcode, t₀, hfetch, Prog.bind_ok.mpr ⟨(), t, by rw [execute_run, hcall], ?_⟩⟩
    rw [hones, Prog.bind_of_ok (Prog.modify_run _ _), countCycles_run]

/-! ## Fetches -/

lemma fetch_found {address : BitVec 64} {s : MipsBase T δ}
    (h : (translateAddress s.tlb address).found = true) :
    fetch m address s = .ok (wordAt m address s, fetched m address s) :=
  fetchWith_found _ h

/-- With exceptions, a fetch that succeeds is one of a translated address. -/
lemma fetch_ok (hm : m.IsN64) (hexc : m.config.hasException = true) {address : BitVec 64}
    {opcode : BitVec 32} {s t : MipsBase T δ} (h : fetch m address s = .ok (opcode, t)) :
    (translateAddress s.tlb address).found = true ∧ opcode = wordAt m address s ∧
      t = fetched m address s := by
  cases hfound : (translateAddress s.tlb address).found with
  | true =>
      rw [fetch_found hfound] at h
      obtain ⟨hop, ht⟩ := Prog.ok_inj h
      exact ⟨rfl, hop.symm, ht.symm⟩
  | false =>
      obtain ⟨e, -, he⟩ :=
        triggerException_tlb hm hexc (rfl : ExceptionCause.kTlbMissLoad.isTlb = true)
          (faulted address s)
      rw [fetch, fetchWith_fault hm _ hfound, he] at h
      exact absurd h (by simp [Except.map])

/-! ## Raising -/

/-- What is reported before an exception is raised: the address of a misaligned access, or
the number of a coprocessor that is not usable. -/
inductive Reported (s : MipsBase T δ) : MipsBase T δ → Prop
  | nothing : Reported s s
  | address (address : BitVec 64) :
      Reported s { s with cop0 := { s.cop0 with badvaddr := address } }
  | copUnusable (copId : BitVec 2) : Reported s { s with copCause := copId.setWidth 32 }

/-- A handler that raises reports, and then raises a synchronous exception. -/
lemma raise_run (hm : m.IsN64) {x : CpuM T δ Unit} (hx : Raise m x) {s s' : MipsBase T δ}
    (h : x s = .ok ((), s')) :
    ∃ cause t, cause.isSynchronous = true ∧ Reported s t ∧
      triggerException m cause t = .ok ((), s') := by
  cases hx with
  | trigger cause hcause => exact ⟨cause, s, hcause, .nothing, h⟩
  | address cause hcause address =>
      rw [addressError, Prog.bind_of_ok (copWrite64Internal_badvaddr hm _ _)] at h
      exact ⟨cause, _, hcause, .address address, h⟩
  | copUnusable copId =>
      rw [MipsBase.copUnusable, Prog.bind_of_ok (Prog.modify_run _ _)] at h
      exact ⟨.kCop, _, rfl, .copUnusable copId, h⟩
  | «break» =>
      obtain ⟨⟨⟩, t, htrigger, hrest⟩ := Prog.bind_ok.mp h
      rw [if_pos hm.hasCop0] at hrest
      obtain rfl := Prog.state_eq hrest
      exact ⟨.kBkpt, s, rfl, .nothing, htrigger⟩

/-- Raising leaves no branch pending where none was. -/
lemma raised_flag (hm : m.IsN64) {cause : ExceptionCause} {s t s' : MipsBase T δ}
    (hbd : s.hasBranchDelay = false) (hreported : Reported s t)
    (h : triggerException m cause t = .ok ((), s')) : s'.hasBranchDelay = false := by
  rcases triggerException_flag hm h with hnone | rfl
  · exact hnone
  · cases hreported <;> exact hbd

/-! ## Looking -/

omit [MipsTlbBase T] in
lemma readGpr32_run (idx : BitVec 5) (s : MipsBase T δ) :
    readGpr32 idx s = .ok ((s.gpr idx).setWidth 32, s) := rfl

omit [MipsTlbBase T] in
lemma readGpr64_run (hm : m.IsN64) (idx : BitVec 5) (s : MipsBase T δ) :
    readGpr64 m idx s = .ok (s.gpr idx, s) := by
  rw [readGpr64, read_run, if_pos hm.is64Bit]

omit [MipsTlbBase T] in
/-- Looking changes nothing. -/
lemma look_moves (hm : m.IsN64) (α : Type) (x : CpuM T δ α) (hx : Look m α x) :
    Prog.Moves Eq x := by
  intro s a s' h
  cases hx with
  | gpr32 idx => exact Prog.state_eq h
  | gpr64 idx => exact Prog.state_eq h
  | copEnabled copId =>
      rw [isCopEnabled_run hm] at h
      exact Prog.state_eq h

/-- A successful run of a handler either raises, or performs its operations. -/
lemma callInst_cases (hm : m.IsN64) {opcode : BitVec 32} {func : MipsInstId}
    {s s' : MipsBase T δ} (h : callInst m opcode func s = .ok ((), s')) :
    (∃ cause t, cause.isSynchronous = true ∧ Reported s t ∧
      triggerException m cause t = .ok ((), s')) ∨
      ∃ x, Acts m opcode func x ∧ x s = .ok ((), s') := by
  rcases (callInst_body m opcode func).cases_run (look_moves hm) h with ⟨x, hx, hrun⟩ | hact
  · exact .inl (raise_run hm hx hrun)
  · exact .inr hact

/-! ## Calls -/

omit [MipsTlbBase T] in
/-- A unit that is reset is all that changes. -/
lemma resetCop_eq (copId : BitVec 2) (s : MipsBase T δ) :
    resetCop m copId s = { s with
      cop0 := if m.slot copId = .cop0 then {} else s.cop0
      fpu := if m.slot copId = .fpu then {} else s.fpu
      device := if m.slot copId = .device then m.cop.reset s.device copId else s.device } := by
  rw [resetCop]
  cases m.slot copId <;> rfl

/-- Registers are all that is set from outside, and register 0 is not. -/
lemma perform_setGpr {idx : BitVec 5} {value : BitVec 64} {r : Option ℤ} {s t : MipsBase T δ}
    (h : perform m (.setGpr idx value) s = .ok (r, t)) :
    r = none ∧ ∃ gpr, gpr 0 = s.gpr 0 ∧ t = { s with gpr := gpr } := by
  obtain ⟨⟨⟩, u, hset, hrest⟩ := Prog.bind_ok.mp h
  obtain ⟨rfl, rfl⟩ := Prog.ok_inj hrest
  refine ⟨rfl, ?_⟩
  rw [setGpr] at hset
  split at hset
  · exact ⟨s.gpr, rfl, (Prog.state_eq hset).symm⟩
  · next hidx =>
      refine ⟨Function.update s.gpr idx value, ?_, (Prog.state_eq hset).symm⟩
      exact Function.update_of_ne (Ne.symm hidx) value s.gpr

/-- What every call keeps is kept by all of them. -/
lemma performAll_keeps {I : MipsBase T δ → Prop} {calls : List (MipsCall δ)}
    (hkeeps : ∀ call ∈ calls, ∀ {r s t}, I s → perform m call s = .ok (r, t) → I t)
    {spent : List (Option ℤ)} {s u : MipsBase T δ} (hs : I s)
    (h : performAll m calls s = .ok (spent, u)) : I u := by
  induction calls generalizing s spent with
  | nil => exact Prog.state_eq h ▸ hs
  | cons call calls ih =>
      obtain ⟨r, t, hcall, hmore⟩ := Prog.bind_ok.mp h
      obtain ⟨rest, u', hrest, hpure⟩ := Prog.bind_ok.mp hmore
      obtain ⟨-, rfl⟩ := Prog.ok_inj hpure
      exact ih (fun call hmem => hkeeps call (List.mem_cons_of_mem _ hmem))
        (hkeeps call List.mem_cons_self hs hcall) hrest

end MipsBase

end NgMips
