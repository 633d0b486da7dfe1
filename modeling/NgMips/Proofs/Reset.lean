import NgMips.Proofs.Hide
import NgMips.Source.Machine

/-!
# Reset

After `Reset` a processor should not show what happened before.  `results` is what a sequence of
calls shows then: the cycles `Run` returned and the whole state but its unseen parts.  What
`Reset` leaves behind (`SameResidue`) are the registers of the translation unit, the seed behind
`Random`, and the poll counter of the cached interpreter.  Processors that agree on these cannot
be told apart by any sequence of calls (`reset_erases`); others can (`residue_shows`).
-/

namespace NgMips

namespace MipsBase

variable {T δ : Type} [MipsTlbBase T]

/-! ## What is seen of a processor -/

section Views

variable (m : MipsSetup δ)

omit [MipsTlbBase T] in
/-- The state without its unseen parts; `Run` starts to count its cycles anew. -/
def visible (s : MipsBase T δ) : MipsBase T δ :=
  hide m ⟨[], 0, {}⟩ { s with cycleSpent := 0 }

omit [MipsTlbBase T] in
/-- The visible state without the seed behind `Random` and the poll counter: registers, memory,
and the instructions and exceptions in the order in which they were reported. -/
def architectural (s : MipsBase T δ) : MipsBase T δ :=
  { visible m s with xorshiftState := 0, interruptPollCounter := 0 }

/-- The state after `Reset`; the observer, which is reset too, has no reports. -/
def afterReset (s : MipsBase T δ) : MipsBase T δ := { reset m s with trace := [] }

/-- What a sequence of calls after `Reset` shows. -/
def results (calls : List (MipsCall δ)) (s : MipsBase T δ) :
    Except Stop (List (Option ℤ) × MipsBase T δ) :=
  (performAll m calls (afterReset m s)).map fun r => (r.1, architectural m r.2)

end Views

variable {m : MipsSetup δ}

/-! ## What `Reset` does -/

section Parts

omit [MipsTlbBase T] in
/-- `Reset` up to the coprocessors. -/
def resetRegisters (s : MipsBase T δ) : MipsBase T δ :=
  { s with
    gpr := fun _ => 0, hi := 0, lo := 0, pc := 0, nextPc := 0, llbit := false
    cycleSpentTotal := 0, cpiCounter := 0
    hasBranchDelay := false, branchDelayDst := 0
    compareInterrupt := false, copCause := 0
    cache := MipsCache.reset, halt := false }

/-- The end of `Reset`. -/
def resetTlb (s : MipsBase T δ) : MipsBase T δ := { s with tlb := MipsTlbBase.reset s.tlb }

lemma reset_eq (s : MipsBase T δ) : reset m s =
    resetTlb (resetCop m 3 (resetCop m 2 (resetCop m 1 (resetCop m 0 (resetRegisters s))))) := rfl

omit [MipsTlbBase T] in
lemma visible_resetCop (copId : BitVec 2) (s : MipsBase T δ) :
    resetCop m copId (visible m s) = visible m (resetCop m copId s) := by
  rw [resetCop, resetCop]
  cases hslot : m.slot copId with
  | fpu => simp [visible, hide, (slot_fpu hslot).2]
  | _ => rfl

lemma visible_reset (s : MipsBase T δ) : reset m (visible m s) = visible m (reset m s) := by
  rw [reset_eq, reset_eq]
  have hregisters : resetRegisters (visible m s) = visible m (resetRegisters s) := rfl
  have htlb : ∀ t : MipsBase T δ, resetTlb (visible m t) = visible m (resetTlb t) := fun _ => rfl
  rw [hregisters, visible_resetCop, visible_resetCop, visible_resetCop, visible_resetCop, htlb]

variable (m) in
/-- What `Reset` does to the connected devices. -/
def resetDevices (d : δ) : δ :=
  [0, 1, 2, 3].foldl (fun d copId => if m.slot copId = .device then m.cop.reset d copId else d) d

/-- What is seen after `Reset`. -/
lemma visible_afterReset (hm : m.IsN64) (s : MipsBase T δ) :
    visible m (afterReset m s) =
      { tlb := MipsTlbBase.reset s.tlb
        device := resetDevices m s.device
        xorshiftState := s.xorshiftState
        interruptPollCounter :=
          if m.config.useCachedInterpreter then s.interruptPollCounter else 0 } := by
  have hslot : m.slot 0 = .cop0 := hm.slot_zero
  rw [afterReset, reset_eq]
  simp only [resetCop_eq, resetTlb, resetRegisters, visible, hide]
  congr 1
  · -- Coprocessor 0 sits in slot 0.
    simp only [if_pos hslot, ite_self]
  · -- The floating-point unit is reset, or nothing looks at it.
    split
    · simp only [ite_self]
    · rfl

end Parts

/-! ## Calls -/

omit [MipsTlbBase T] in
/-- Hiding what nothing looks at is done once. -/
lemma visible_hide (s : MipsBase T δ) : visible m (hide m ⟨[], 0, {}⟩ s) = visible m s := by
  simp only [visible, hide, List.append_nil]
  congr 1
  · split <;> rfl
  · split <;> rfl

/-- What `Run` shows depends on what is visible of the state only. -/
lemma noninterfering_run (fuel : ℕ) (cycle : ℤ) :
    Prog.Noninterfering (visible m) (run (T := T) m fuel cycle) := by
  -- `Run` sets the cycles of the call to zero before it does anything else.
  have hstart : ∀ s : MipsBase T δ,
      run m fuel cycle s = run m fuel cycle { s with cycleSpent := 0 } := by
    intro s
    rw [run]
    split <;> rfl
  have hshown : ∀ s : MipsBase T δ, (run m fuel cycle s).map (fun r => (r.1, visible m r.2)) =
      (run m fuel cycle (visible m s)).map fun r => (r.1, visible m r.2) := by
    intro s
    rw [visible, commutes_run, ← hstart]
    cases run m fuel cycle s with
    | error e => rfl
    | ok r => exact congrArg (fun t => Except.ok (r.1, t)) (visible_hide r.2).symm
  intro s t hst
  rw [hshown, hst, ← hshown]

lemma noninterfering_perform (call : MipsCall δ) :
    Prog.Noninterfering (visible m) (perform (T := T) m call) := by
  have hmodify : ∀ {x : CpuM T δ Unit}, Prog.Commutes (visible m) x →
      Prog.Noninterfering (visible m) (do x; pure none : CpuM T δ (Option ℤ)) :=
    fun hx => .bind (.of_commutes hx) fun _ => .of_pure none
  cases call with
  | run fuel cycle => exact .bind (noninterfering_run fuel cycle) fun spent => .of_pure _
  | reset => exact hmodify (.of_modify visible_reset)
  | setGpr idx value =>
      refine hmodify ?_
      rw [setGpr]
      split
      · exact .of_pure ()
      · exact fun _ => rfl
  | _ => exact hmodify fun _ => rfl

lemma noninterfering_performAll (calls : List (MipsCall δ)) :
    Prog.Noninterfering (visible m) (performAll (T := T) m calls) := by
  induction calls with
  | nil => exact .of_pure []
  | cons call calls ih =>
      exact .bind (noninterfering_perform call) fun spent => .bind ih fun rest => .of_pure _

/-! ## What `Reset` leaves behind -/

section N64

variable {δ : Type} {m : MipsSetup δ}

/-- Two processors agree on what `Reset` leaves behind. -/
structure SameResidue (m : MipsSetup δ) (s t : MipsBase MipsTlbNormal δ) : Prop where
  entryHi : s.tlb.entryHi = t.tlb.entryHi
  entryLo0 : s.tlb.entryLo0 = t.tlb.entryLo0
  entryLo1 : s.tlb.entryLo1 = t.tlb.entryLo1
  pageMask : s.tlb.pageMask = t.tlb.pageMask
  index : s.tlb.index = t.tlb.index
  random : s.xorshiftState = t.xorshiftState
  poll : m.config.useCachedInterpreter = true → s.interruptPollCounter = t.interruptPollCounter

/-- `Reset` clears the entries of the translation unit, and leaves its registers alone. -/
lemma resetTlb_eq_iff {tlb tlb' : MipsTlbNormal} :
    tlb.reset = tlb'.reset ↔ tlb.entryHi = tlb'.entryHi ∧ tlb.entryLo0 = tlb'.entryLo0 ∧
      tlb.entryLo1 = tlb'.entryLo1 ∧ tlb.pageMask = tlb'.pageMask ∧ tlb.index = tlb'.index := by
  simp [MipsTlbNormal.reset]

/-- **What `Reset` erases.**  Two processors with the same devices that agree on what `Reset`
leaves behind show the same after it, whatever is done to them.  If they show the same, they
agree on the registers of the translation unit. -/
theorem reset_erases (hm : m.IsN64) {s t : MipsBase MipsTlbNormal δ}
    (hdevice : s.device = t.device) :
    (SameResidue m s t → ∀ calls, results m calls s = results m calls t) ∧
      ((∀ calls, results m calls s = results m calls t) → s.tlb.reset = t.tlb.reset) := by
  constructor
  · intro h calls
    have htlb : (MipsTlbBase.reset s.tlb : MipsTlbNormal) = MipsTlbBase.reset t.tlb :=
      resetTlb_eq_iff.mpr ⟨h.entryHi, h.entryLo0, h.entryLo1, h.pageMask, h.index⟩
    have hpoll : (if m.config.useCachedInterpreter then s.interruptPollCounter else 0) =
        if m.config.useCachedInterpreter then t.interruptPollCounter else 0 := by
      split
      · next hmode => exact h.poll hmode
      · rfl
    have hvisible : visible m (afterReset m s) = visible m (afterReset m t) := by
      rw [visible_afterReset hm, visible_afterReset hm, htlb, hdevice, h.random, hpoll]
    have hcalls := noninterfering_performAll calls _ _ hvisible
    -- The architectural state is a part of the visible one.
    have hpart : ∀ x : Except Stop (List (Option ℤ) × MipsBase MipsTlbNormal δ),
        (x.map fun r => (r.1, architectural m r.2)) =
          (x.map fun r => (r.1, visible m r.2)).map fun r =>
            (r.1, { r.2 with xorshiftState := 0, interruptPollCounter := 0 }) := by
      intro x
      cases x <;> rfl
    rw [results, results, hpart, hpart, hcalls]
  · intro h
    have hnone : architectural m (afterReset m s) = architectural m (afterReset m t) :=
      (Prog.state_eq (h []))
    have htlb := congrArg MipsBase.tlb hnone
    rw [architectural, architectural, visible_afterReset hm, visible_afterReset hm] at htlb
    exact htlb

/-! ## What is seen of it -/

/-- A processor that was just built. -/
def built (d : δ) : MipsBase MipsTlbNormal δ := { tlb := {}, device := d }

variable (m) in
/-- The states a processor can be brought into. -/
def Reachable (s : MipsBase MipsTlbNormal δ) : Prop :=
  ∃ d calls spent, performAll m calls (built d) = .ok (spent, s)

variable (m) in
/-- After `Reset`, processors with the same devices show the same. -/
def ResetErases : Prop :=
  ∀ s t : MipsBase MipsTlbNormal δ, Reachable m s → Reachable m t → s.device = t.device →
    ∀ calls, results m calls s = results m calls t

end N64

/-- A history that leaves memory alone and shows in a register after `Reset`. -/
lemma not_resetErases (m : MipsSetup WordMemory) (d : WordMemory)
    (history calls : List (MipsCall WordMemory)) (idx : BitVec 5)
    (hhistory : (returnedValue (performAll m history) (built d)).isSome = true)
    (hdevice : (lastState (performAll m history) (built d)).device = d)
    (hbuilt : (returnedValue (performAll m calls) (afterReset m (built d))).isSome = true)
    (hcalled : (returnedValue (performAll m calls)
      (afterReset m (lastState (performAll m history) (built d)))).isSome = true)
    (hshown : (lastState (performAll m calls) (afterReset m (built d))).gpr idx ≠
      (lastState (performAll m calls)
        (afterReset m (lastState (performAll m history) (built d)))).gpr idx) :
    ¬ ResetErases m := by
  intro h
  obtain ⟨t, ht⟩ : ∃ t, t = lastState (performAll m history) (built d) := ⟨_, rfl⟩
  rw [← ht] at hdevice hcalled hshown
  obtain ⟨spent, hspent⟩ := Option.isSome_iff_exists.mp hhistory
  obtain ⟨first, hfirst⟩ := Option.isSome_iff_exists.mp hbuilt
  obtain ⟨second, hsecond⟩ := Option.isSome_iff_exists.mp hcalled
  have hreached : Reachable m t := ⟨d, history, spent, ht ▸ run_of_returned hspent⟩
  have hsame := h (built d) t ⟨d, [], [], rfl⟩ hreached hdevice.symm calls
  rw [results, results, run_of_returned hfirst, run_of_returned hsecond] at hsame
  exact hshown (congrArg (fun u => u.gpr idx) (Prog.state_eq hsame))

/-- `ADDIU $1, $0, 0x55`, `MTC0 $1, EntryHi`, `MFC0 $2, EntryHi` at the start of memory. -/
def entryHiMemory : WordMemory := [(0, 0x24010055), (4, 0x40815000), (8, 0x40025000)]

/-- `ADDIU $1, $0, 0x401`, `MTC0 $1, SR` enable the interrupt; the jump behind them, to itself,
counts in its delay slot: `J 2`, `ADDIU $3, $3, 1`. -/
def countingMemory : WordMemory :=
  [(0, 0x24010401), (4, 0x40816000), (8, 0x08000002), (12, 0x24630001)]

/-- The cached interpreter on the memory, with the interrupt line up. -/
def interruptedSetup : MipsSetup WordMemory :=
  { n64Setup { useCachedInterpreter := true, hasException := true } with
    bus := { wordBus with getInterrupt := fun _ => true } }

/-- Run a number of cycles from an address. -/
def runFrom (pc : BitVec 64) (cycle : ℤ) : List (MipsCall WordMemory) :=
  [.setPc pc, .run 600 cycle]

/-- A value written to EntryHi before `Reset` is read from it afterwards; and a block entered
before `Reset` lets the cached interpreter take an interrupt one round earlier afterwards. -/
theorem residue_shows : ¬ ResetErases (n64Setup {}) ∧ ¬ ResetErases interruptedSetup := by
  constructor
  · exact not_resetErases _ entryHiMemory (runFrom 0xFFFFFFFF80000000 2)
      (runFrom 0xFFFFFFFF80000008 1) 2 (by decide +kernel) (by decide +kernel) (by decide +kernel)
      (by decide +kernel) (by decide +kernel)
  · exact not_resetErases _ countingMemory (runFrom 0xFFFFFFFF80000000 1)
      (runFrom 0xFFFFFFFF80000000 13) 3 (by decide +kernel) (by decide +kernel) (by decide +kernel)
      (by decide +kernel) (by decide +kernel)

/-- A processor that executed `ADDIU $1, $0, 0x55`. -/
def addiuState : MipsBase MipsTlbNormal WordMemory :=
  lastState (performAll (n64Setup {}) (runFrom 0xFFFFFFFF80000000 1)) (built entryHiMemory)

/-- `reset_erases` on this processor, whose history is in a general register only. -/
theorem addiu_erased : addiuState.gpr 1 = 0x55 ∧
    ∀ calls, results (n64Setup {}) calls addiuState =
      results (n64Setup {}) calls (built entryHiMemory) := by
  have hdevice : addiuState.device = (built entryHiMemory).device := by decide +kernel
  have hresidue : SameResidue (n64Setup {}) addiuState (built entryHiMemory) := by
    constructor <;> decide +kernel
  exact ⟨by decide +kernel, (reset_erases (n64Setup_isN64 _) hdevice).1 hresidue⟩

end MipsBase

end NgMips
