import NgMips.Proofs.Destination
import NgMips.Proofs.Pointers
import NgMips.Proofs.Timekeeping
import NgMips.Proofs.TlbCommands

/-!
# What holds of every processor

However a processor is used from the moment it is built, some things can be relied on between two
calls (`WellFormed`): register 0 is zero, the counters are in their ranges, the generator behind
`Random` is on its orbit, and the block cache holds nothing but blocks that were built, stored under
their keys.  A pointer of its lookup array may dangle; one that denotes an element denotes the one
of its key.
-/

namespace NgMips

namespace MipsBase

variable {T δ : Type}

/-- The invariants of a processor between two calls. -/
structure WellFormed (m : MipsSetup δ) (s : MipsBase T δ) : Prop where
  zero : s.gpr 0 = 0
  counter : s.cpiCounter < 256
  polls : s.interruptPollCounter < kInterruptCheckInterval
  random : ∃ n, s.xorshiftState = xorshift^[n] 1
  blocks : EachBlock (BlockBuilt m.kIs64Bit) s.cache
  orderly : s.cache.Orderly

/-! ## Polls -/

/-- The number of rounds since the last look for interrupts is the same. -/
def SamePolls (s s' : MipsBase T δ) : Prop := s'.interruptPollCounter = s.interruptPollCounter

lemma SamePolls.refl (s : MipsBase T δ) : SamePolls s s := rfl

lemma SamePolls.trans {s t u : MipsBase T δ} (h : SamePolls s t) (h' : SamePolls t u) :
    SamePolls s u := Eq.trans h' h

lemma samePolls_internals {m : MipsSetup δ} {α : Type} {x : CpuM T δ α} (hx : Internals m x) :
    Prog.Moves SamePolls x := by
  intro s a s' h
  obtain ⟨_, _, _, _, _, _, _, _, _, -, rfl⟩ := changed_internals hx s a s' h
  exact rfl

variable [MipsTlbBase T] {m : MipsSetup δ}

lemma samePolls_elem {opcode : BitVec 32} {func : MipsInstId} (α : Type) (x : CpuM T δ α)
    (hx : Elem m opcode func α x) : Prog.Moves SamePolls x := by
  intro s a s' h
  have hinternal : Internals m x → SamePolls s s' := fun hx => samePolls_internals hx s a s' h
  cases hx with
  | readStatus => exact hinternal (internal_copRead32Internal 12)
  | fault cause _ address =>
      exact hinternal (internal_translationFault internal_triggerException cause address)
  | writeGpr idx value =>
      obtain ⟨gpr, rfl⟩ := writeGpr64_ok h
      exact rfl
  | access f =>
      obtain ⟨device, halt, cache, rfl⟩ := access_ok h
      exact rfl
  | random =>
      obtain ⟨state, rfl⟩ := readRandom_ok h
      exact rfl
  | fpu f =>
      obtain ⟨fpu, rfl⟩ := setFpu_ok h
      exact rfl
  | eret _ _ _ =>
      rw [eret_run] at h
      rw [← Prog.state_eq h]
      exact rfl
  | panic α reason => exact absurd h (by simp)
  | _ =>
      rw [← Prog.state_eq h]
      exact rfl

/-- No handler counts rounds. -/
lemma samePolls_callInst (opcode : BitVec 32) (func : MipsInstId) :
    Prog.Moves SamePolls (callInst (T := T) m opcode func) := by
  refine (callInst_core m opcode func).moves .refl (fun _ _ _ => .trans) fun α x hx => ?_
  rcases hx with hinternal | hcore
  · exact samePolls_internals (.op hinternal)
  · exact samePolls_elem α x (elem_core α x hcore)

/-- A poll starts to count anew when it looks for interrupts. -/
lemma poll_polls {s t : MipsBase T δ} (h : poll m s = .ok ((), t))
    (hs : s.interruptPollCounter < kInterruptCheckInterval) :
    t.interruptPollCounter < kInterruptCheckInterval := by
  rw [poll] at h
  split at h
  · rw [Prog.bind_of_ok (Prog.modify_run _ _), Prog.bind_of_ok (read_run _ _)] at h
    split at h
    · rw [Prog.bind_of_ok (Prog.modify_run _ _)] at h
      have hsame : SamePolls _ t := samePolls_internals (m := m) internal_begin _ () t h
      exact hsame.symm ▸ Nat.zero_lt_succ 3
    · next hearly => exact Prog.state_eq h ▸ Nat.not_le.mp hearly
  · exact Prog.state_eq h ▸ hs

/-! ## Runs -/

/-- The invariants that do not concern the blocks, in every state a run goes through. -/
structure InRange (s : MipsBase T δ) : Prop where
  zero : s.gpr 0 = 0
  polls : s.interruptPollCounter < kInterruptCheckInterval
  random : ∃ n, s.xorshiftState = xorshift^[n] 1

omit [MipsTlbBase T] in
lemma inRange_internals {α : Type} {x : CpuM T δ α} (hx : Internals m x) {a : α}
    {s t : MipsBase T δ} (h : x s = .ok (a, t)) (hs : InRange s) : InRange t := by
  obtain ⟨_, _, _, _, _, _, _, _, _, -, rfl⟩ := changed_internals hx s a t h
  exact ⟨hs.zero, hs.polls, hs.random⟩

lemma keptBy_inRange : KeptBy (T := T) m (fun _ _ => True) InRange where
  fetch hfetch hs := inRange_internals (internal_fetch _) hfetch hs
  poll {s t} hpoll hs := by
    have hsame : Prog.Moves (fun s t : MipsBase T δ =>
        t.gpr = s.gpr ∧ t.xorshiftState = s.xorshiftState) (poll m) :=
      moves_poll (fun _ => ⟨rfl, rfl⟩) (fun _ _ _ h h' => ⟨h'.1.trans h.1, h'.2.trans h.2⟩)
        (fun hx s a t h => by
          obtain ⟨_, _, _, _, _, _, _, _, _, -, rfl⟩ := changed_internals hx s a t h
          exact ⟨rfl, rfl⟩) fun _ _ => ⟨rfl, rfl⟩
    obtain ⟨hgpr, hrandom⟩ := hsame s () t hpoll
    exact ⟨hgpr ▸ hs.zero, poll_polls hpoll hs.polls, hrandom ▸ hs.random⟩
  begin {s t} hbegin hs := by
    rw [beginRun] at hbegin
    split at hbegin
    · rw [← Prog.state_eq hbegin]
      exact ⟨hs.zero, hs.polls, hs.random⟩
    · exact inRange_internals (m := m) internal_begin hbegin ⟨hs.zero, hs.polls, hs.random⟩
  handler {opcode s t} _ hcall hs := by
    have hzero := (Confined.callInst _ _ m _ () _ hcall).gpr 0 fun hno => absurd rfl hno
    have hpolls : SamePolls _ t := samePolls_callInst _ _ _ () t hcall
    obtain ⟨n, hn⟩ := hs.random
    obtain ⟨j, hj⟩ := generates_execute ((execute_run opcode _ s).trans hcall)
    refine ⟨hzero.trans hs.zero, ?_, j + n, ?_⟩
    · rw [hpolls]
      exact hs.polls
    · rw [hj, hn, Function.iterate_add_apply]
  cache _ hs := ⟨hs.zero, hs.polls, hs.random⟩
  stepped _ hs := ⟨hs.zero, hs.polls, hs.random⟩
  counted _ hs := ⟨hs.zero, hs.polls, hs.random⟩
  passed _ hs := ⟨hs.zero, hs.polls, hs.random⟩

/-! ## Calls -/

namespace WellFormed

omit [MipsTlbBase T] in
lemma inRange {s : MipsBase T δ} (h : WellFormed m s) : InRange s := ⟨h.zero, h.polls, h.random⟩

omit [MipsTlbBase T] in
lemma paced {s : MipsBase T δ} (h : WellFormed m s) : Paced m s := ⟨h.counter, h.blocks⟩

omit [MipsTlbBase T] in
lemma new (tlb : T) (d : δ) : WellFormed m ({ tlb := tlb, device := d } : MipsBase T δ) where
  zero := rfl
  counter := Nat.zero_lt_succ _
  polls := Nat.zero_lt_succ _
  random := ⟨0, rfl⟩
  blocks := .reset
  orderly := .reset

end WellFormed

lemma inRange_reset {s : MipsBase T δ} (hs : InRange s) : InRange (reset m s) := by
  simp only [reset, resetCop_eq]
  exact ⟨rfl, hs.polls, hs.random⟩

lemma perform_inRange {call : MipsCall δ} {spent : Option ℤ} {s t : MipsBase T δ}
    (hd : DecodedBlocks m s.cache) (hs : InRange s) (h : perform m call s = .ok (spent, t)) :
    InRange t := by
  cases call with
  | run fuel cycle =>
      obtain ⟨r, u, hrun, hpure⟩ := Prog.bind_ok.mp h
      obtain ⟨-, rfl⟩ := Prog.ok_inj hpure
      obtain ⟨-, new, -, hkept⟩ := keptBy_inRange.run hrun hd
      exact hkept (fun _ _ => trivial) hs
  | reset => exact Prog.state_eq h ▸ inRange_reset hs
  | setGpr idx value =>
      obtain ⟨-, gpr, hzero, rfl⟩ := perform_setGpr h
      exact ⟨hzero.trans hs.zero, hs.polls, hs.random⟩
  | _ => exact Prog.state_eq h ▸ ⟨hs.zero, hs.polls, hs.random⟩

/-- Every call keeps the invariants. -/
lemma perform_wellFormed {call : MipsCall δ} {spent : Option ℤ} {s t : MipsBase T δ}
    (hs : WellFormed m s) (h : perform m call s = .ok (spent, t)) : WellFormed m t := by
  have hrange := perform_inRange (fun e he => (hs.blocks e he).decoded) hs.inRange h
  have hpaced := perform_paced hs.paced h
  exact {
    zero := hrange.zero
    counter := hpaced.counter
    polls := hrange.polls
    random := hrange.random
    blocks := hpaced.blocks
    orderly := orderly_cacheKept.perform call s spent t h hs.orderly }

/-- A processor that was started and idled for one round. -/
def idled : MipsBase MipsTlbNormal WordMemory :=
  lastState (performAll cachedSetup [.setPc 0xFFFFFFFF80000000, .run 257 1])
    { tlb := {}, device := idleLoop.device }

end MipsBase

end NgMips
