import NgMips.Proofs.Elementary
import NgMips.Proofs.Step

/-!
# The clock

The cycle counters are three fields: the cycles of the running call, the fraction of a cycle
that is left over, and the timestamp.  No handler touches them (`SameClock`), with one exception:
a jump to itself with nothing in its delay slot is taken for an idle loop, and a hundred cycles
pass at once (`SkipsIdle`, `callInst_skipped`).
-/

namespace NgMips

namespace MipsBase

variable {T δ : Type}

/-! ## Programs that do not touch the clock -/

section Same

/-- The cycle counters. -/
def clock (s : MipsBase T δ) : ℕ × ℕ × BitVec 64 := (s.cycleSpent, s.cpiCounter, s.cycleSpentTotal)

/-- The cycle counters are the same. -/
def SameClock (s s' : MipsBase T δ) : Prop := s'.clock = s.clock

lemma SameClock.refl (s : MipsBase T δ) : SameClock s s := rfl

lemma SameClock.trans {s t u : MipsBase T δ} (h : SameClock s t) (h' : SameClock t u) :
    SameClock s u := Eq.trans h' h

variable {m : MipsSetup δ}

lemma sameClock_internals {α : Type} {x : CpuM T δ α} (hx : Internals m x) :
    Prog.Moves SameClock x := by
  intro s a s' h
  obtain ⟨_, _, _, _, _, _, _, _, _, -, rfl⟩ := changed_internals hx s a s' h
  exact rfl

variable [MipsTlbBase T] {opcode : BitVec 32} {func : MipsInstId}

/-- Only `BEQ` and `J` look for idle loops. -/
lemma sameClock_portElem (hbeq : func ≠ .kBeq) (hj : func ≠ .kJ) (α : Type) (x : CpuM T δ α)
    (hx : PortElem m opcode func α x) : Prog.Moves SameClock x := by
  intro s a s' h
  obtain ⟨hspent, hcpi, htotal⟩ := (portElem_ok hx h).2 hbeq hj
  simp only [SameClock, clock, hspent, hcpi, htotal]

lemma sameClock_coreElem (hbeq : func ≠ .kBeq) (hj : func ≠ .kJ) (α : Type) (x : CpuM T δ α)
    (hx : CoreElem m opcode func α x) : Prog.Moves SameClock x := by
  cases hx with
  | port hport => exact sameClock_portElem hbeq hj _ _ hport
  | writeGpr idx value =>
      intro s a s' h
      obtain ⟨gpr, rfl⟩ := writeGpr64_ok h
      exact rfl
  | writeHi value => exact .of_modify fun _ => rfl
  | writeLo value => exact .of_modify fun _ => rfl

/-- The other handlers leave the clock alone. -/
lemma sameClock_callInst (hbeq : func ≠ .kBeq) (hj : func ≠ .kJ) :
    Prog.Moves SameClock (callInst (T := T) m opcode func) := by
  refine (callInst_core m opcode func).moves .refl (fun _ _ _ => .trans) fun α x hx => ?_
  rcases hx with hinternal | hcore
  · exact sameClock_internals (.op hinternal)
  · exact sameClock_coreElem hbeq hj α x hcore

/-- A conditional branch leaves the clock alone. -/
lemma sameClock_branchR (likely : Bool) (cond : BitVec 64 → BitVec 64 → Bool) :
    Prog.Moves SameClock (branchR (T := T) m opcode likely cond) := by
  -- The branch is part of `BNE`, which does not look for idle loops.
  have hacts : Acts m opcode .kBne (branchR (T := T) m opcode likely cond) := acts_branchR rfl _ _
  exact (hacts.refine core_actOp).moves .refl (fun _ _ _ => .trans)
    (sameClock_coreElem (by simp) (by simp))

end Same

/-! ## Idle loops -/

section Idle

variable [MipsTlbBase T] (m : MipsSetup δ)

/-- The word a look at the delay slot reads; it is zero when the address is not translated. -/
def delaySlotWord (s : MipsBase T δ) : BitVec 32 :=
  if (translateAddress s.tlb (s.pc + 4)).found then wordAt m (s.pc + 4) s else 0

/-- The instruction is a jump to itself with nothing in its delay slot: `BEQ $0, $0, -1`, or a
`J` whose target is its own address. -/
def SkipsIdle (opcode : BitVec 32) (func : MipsInstId) (s : MipsBase T δ) : Prop :=
  (func = .kBeq ∧ opcode = 0x1000FFFF ∨
    func = .kJ ∧ (jumpTarget opcode s.pc).setWidth 64 = s.pc) ∧ delaySlotWord m s = 0

instance (opcode : BitVec 32) (func : MipsInstId) (s : MipsBase T δ) :
    Decidable (SkipsIdle m opcode func s) := inferInstanceAs (Decidable (_ ∧ _))

omit [MipsTlbBase T] in
/-- Idle loops were skipped: for each of them a hundred cycles passed. -/
structure Skipped (k : ℕ) (s s' : MipsBase T δ) : Prop where
  cycleSpent : s'.cycleSpent = s.cycleSpent + 100 * k
  cpiCounter : s'.cpiCounter = s.cpiCounter
  cycleSpentTotal : s'.cycleSpentTotal = s.cycleSpentTotal + BitVec.ofNat 64 (100 * k)

namespace Skipped

omit [MipsTlbBase T]

lemma of_sameClock {s s' : MipsBase T δ} (h : SameClock s s') : Skipped 0 s s' := by
  obtain ⟨hspent, hcpi, htotal⟩ : s'.cycleSpent = s.cycleSpent ∧ s'.cpiCounter = s.cpiCounter ∧
      s'.cycleSpentTotal = s.cycleSpentTotal := by simpa [SameClock, clock] using h
  exact ⟨hspent, hcpi, by simpa using htotal⟩

lemma trans {k l : ℕ} {s t u : MipsBase T δ} (h : Skipped k s t) (h' : Skipped l t u) :
    Skipped (k + l) s u where
  cycleSpent := by rw [h'.cycleSpent, h.cycleSpent, Nat.mul_add, Nat.add_assoc]
  cpiCounter := h'.cpiCounter.trans h.cpiCounter
  cycleSpentTotal := by
    rw [h'.cycleSpentTotal, h.cycleSpentTotal, Nat.mul_add, BitVec.ofNat_add, BitVec.add_assoc]

end Skipped

variable {m} {opcode : BitVec 32} {func : MipsInstId}

lemma fetch_word {address : BitVec 64} {s t : MipsBase T δ} {word : BitVec 32}
    (h : fetch m address s = .ok (word, t)) :
    word = if (translateAddress s.tlb address).found then wordAt m address s else 0 := by
  split
  · next hfound =>
      rw [fetch_found hfound] at h
      exact (Prog.ok_inj h).1.symm
  · next hfound =>
      rw [fetch, fetchWith, Prog.bind_of_ok (read_run _ _), if_neg hfound] at h
      obtain ⟨_, u, -, hzero⟩ := Prog.bind_ok.mp h
      exact (Prog.ok_inj hzero).1.symm

/-- The look at the delay slot counts a hundred cycles when nothing is there. -/
lemma detectIdleLoop_skipped {s t : MipsBase T δ} (h : detectIdleLoop m s = .ok ((), t)) :
    Skipped (if delaySlotWord m s = 0 then 1 else 0) s t := by
  rw [detectIdleLoop, Prog.bind_of_ok (read_run _ _)] at h
  obtain ⟨word, u, hfetch, hcount⟩ := Prog.bind_ok.mp h
  have hsame : Skipped 0 s u :=
    .of_sameClock (sameClock_internals (internal_fetch _) s word u hfetch)
  have hword : word = delaySlotWord m s := fetch_word hfetch
  rw [← hword]
  split at hcount
  · next hzero =>
      rw [if_pos hzero, ← Prog.state_eq hcount]
      have hcounted : Skipped 1 u { u with
          cycleSpent := u.cycleSpent + 100
          cycleSpentTotal := u.cycleSpentTotal + 100 } := ⟨rfl, rfl, rfl⟩
      exact hsame.trans hcounted
  · next hword0 =>
      rw [if_neg hword0, ← Prog.state_eq hcount]
      exact hsame

/-- **A handler counts cycles for an idle loop only.**  The program counter, the translation unit
and the devices are those in which the handler is called. -/
theorem callInst_skipped {s t : MipsBase T δ} (h : callInst m opcode func s = .ok ((), t)) :
    Skipped (if SkipsIdle m opcode func s then 1 else 0) s t := by
  by_cases hbeq : func = .kBeq
  · subst hbeq
    have hrun : instBeq m opcode s = .ok ((), t) := h
    rw [instBeq] at hrun
    split at hrun
    · next hop =>
        obtain ⟨_, u, hidle, hbranch⟩ := Prog.bind_ok.mp hrun
        have hskip := (detectIdleLoop_skipped hidle).trans
          (.of_sameClock (sameClock_branchR false _ u () t hbranch))
        simpa [SkipsIdle, hop] using hskip
    · next hop =>
        have hno : ¬ SkipsIdle m opcode .kBeq s := by
          rintro ⟨⟨-, hop'⟩ | ⟨hfunc, -⟩, -⟩
          · exact hop hop'
          · exact absurd hfunc (by simp)
        rw [if_neg hno]
        exact .of_sameClock (sameClock_branchR false _ s () t hrun)
  · by_cases hj : func = .kJ
    · subst hj
      have hrun : instJ m opcode s = .ok ((), t) := h
      rw [instJ, Prog.bind_of_ok (read_run _ _), jump32, setBranchDelay,
        Prog.bind_of_ok (Prog.modify_run _ _)] at hrun
      generalize hjump : ({ s with
        hasBranchDelay := true
        branchDelayDst := (jumpTarget opcode s.pc).setWidth 64 } : MipsBase T δ) = u at hrun
      have hclock : Skipped 0 s u := .of_sameClock (by rw [← hjump]; rfl)
      have hword : delaySlotWord m u = delaySlotWord m s := by rw [← hjump]; rfl
      split at hrun
      · next htarget =>
          have hskip := hclock.trans (detectIdleLoop_skipped hrun)
          simpa [SkipsIdle, htarget, hword] using hskip
      · next htarget =>
          rw [← Prog.state_eq hrun]
          simpa [SkipsIdle, htarget] using hclock
    · have hno : ¬ SkipsIdle m opcode func s := by
        rintro ⟨⟨hfunc, -⟩ | ⟨hfunc, -⟩, -⟩
        · exact hbeq hfunc
        · exact hj hfunc
      rw [if_neg hno]
      exact .of_sameClock (sameClock_callInst hbeq hj s () t h)

end Idle

end MipsBase

end NgMips
