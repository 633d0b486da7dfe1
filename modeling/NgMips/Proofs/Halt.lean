import NgMips.Proofs.Points
import NgMips.Proofs.Poll
import NgMips.Source.Machine

/-!
# Halting

Both loops test `halt_` before an instruction or a block, so a halted processor executes
nothing in later runs.  In the run in which an instruction sets `halt_` the plain interpreter
stops at once.  The cached one first goes through the rest of the block, and then polls; it
stops behind the instruction exactly when control leaves the block there and the poll takes
no interrupt.
-/

namespace NgMips

namespace MipsBase

variable {T δ : Type} [MipsTlbBase T] {m : MipsSetup δ}

/-- Nothing was executed between the two states. -/
def NoExecute (s s' : MipsBase T δ) : Prop :=
  ∃ new, s'.trace = new ++ s.trace ∧ ∀ e ∈ new, e.isExecute = false

/-- The run that executed the instruction before `u` ends in `s'` as that instruction left
it. -/
structure StopsAt (u s' : MipsBase T δ) : Prop where
  quiet : NoExecute u s'
  gpr : s'.gpr = u.gpr
  device : s'.device = u.device
  pc : s'.pc = u.pc

/-- More runs, one after the other. -/
inductive LaterRuns (m : MipsSetup δ) (s : MipsBase T δ) : MipsBase T δ → Prop
  | none : LaterRuns m s s
  | more {s' s'' : MipsBase T δ} {fuel : ℕ} {cycle r : ℤ} (h : LaterRuns m s s')
      (hrun : run m fuel cycle s' = .ok (r, s'')) : LaterRuns m s s''

/-- Control does not go on with the entries left. -/
def LeavesBlock (rest : List MipsCacheEntry) (u : MipsBase T δ) : Prop :=
  ∀ entry ∈ rest.head?, u.pc ≠ entry.address.setWidth 64

/-- The condition: there is no block, or it is left, and the poll that follows takes no
interrupt (unless the program is at the vector already). -/
def HaltHeard (m : MipsSetup δ) (cycle : ℤ) (rest : List MipsCacheEntry) (k : ℕ)
    (u : MipsBase T δ) : Prop :=
  m.config.useCachedInterpreter = false ∨
    (LeavesBlock rest u ∧ (((counted m k u).cycleSpent : ℤ) < cycle → m.kHasCop0 = true →
      PollInterrupts m (counted m k u) → u.pc = vecAddressGeneral))

/-! ## A halted processor -/

omit [MipsTlbBase T] in
lemma NoExecute.refl (s : MipsBase T δ) : NoExecute s s := ⟨[], rfl, by simp⟩

omit [MipsTlbBase T] in
lemma NoExecute.trans {s t u : MipsBase T δ} (h : NoExecute s t) (h' : NoExecute t u) :
    NoExecute s u := reports_trans h h'

/-- The state after the remaining cycles were passed. -/
structure Passed (s s' : MipsBase T δ) : Prop where
  eq : s' = { s with cycleSpentTotal := s'.cycleSpentTotal }

omit [MipsTlbBase T] in
/-- The loop of a halted processor polls and ends. -/
lemma runLoop_halted {before step : CpuM T δ Unit} {cycle r : ℤ} {n : ℕ}
    {u s' : MipsBase T δ} (hbefore : ∀ t, before u = .ok ((), t) → t.halt = true)
    (h : runLoop before step cycle n u = .ok (r, s')) :
    (¬ (u.cycleSpent : ℤ) < cycle ∧ s' = u) ∨
      ((u.cycleSpent : ℤ) < cycle ∧ ∃ t, before u = .ok ((), t) ∧ Passed t s') := by
  cases n with
  | zero => exact absurd h (by simp [runLoop])
  | succ n =>
      rw [runLoop, Prog.bind_of_ok (read_run _ _)] at h
      split at h
      · next hcycle =>
          obtain ⟨⟨⟩, t, hbef, hrest⟩ := Prog.bind_ok.mp h
          rw [Prog.bind_of_ok (read_run _ _), hbefore t hbef, if_pos rfl, passCycles,
            Prog.bind_of_ok (read_run _ _)] at hrest
          refine .inr ⟨hcycle, t, hbef, ?_⟩
          split at hrest
          · rw [Prog.bind_of_ok (Prog.modify_run _ _)] at hrest
            rw [← Prog.state_eq hrest]
            exact ⟨rfl⟩
          · rw [← Prog.state_eq hrest]
            exact ⟨rfl⟩
      · next hcycle => exact .inl ⟨hcycle, (Prog.state_eq h).symm⟩

omit [MipsTlbBase T] in
lemma Passed.background {s s' : MipsBase T δ} (h : Passed s s') : Background s s' := by
  rw [h.eq]
  exact .of_same rfl rfl rfl rfl rfl

omit [MipsTlbBase T] in
/-- What a loop of a halted processor leaves alone. -/
lemma background_runLoop {before step : CpuM T δ Unit} (hbefore : Prog.Moves Background before)
    {cycle r : ℤ} {n : ℕ} {u s' : MipsBase T δ} (hhalt : u.halt = true)
    (h : runLoop before step cycle n u = .ok (r, s')) : Background u s' := by
  have hkeep : ∀ t, before u = .ok ((), t) → t.halt = true := fun t ht =>
    (hbefore u () t ht).halt.trans hhalt
  rcases runLoop_halted hkeep h with ⟨-, rfl⟩ | ⟨-, t, ht, hpassed⟩
  · exact .refl s'
  · exact (hbefore u () t ht).trans hpassed.background

lemma beginRun_halted {s t₀ : MipsBase T δ} (hhalt : s.halt = true)
    (h : beginRun m s = .ok ((), t₀)) : NoExecute s t₀ ∧ t₀.halt = true := by
  rw [beginRun] at h
  split at h
  · rw [← Prog.state_eq h]
    exact ⟨⟨[], rfl, by simp⟩, hhalt⟩
  · have hback := background_internals internal_begin _ () t₀ h
    exact ⟨hback.trace, hback.halt.trans hhalt⟩

/-- A run of a halted processor executes nothing. -/
lemma run_halted {fuel : ℕ} {cycle r : ℤ} {s s' : MipsBase T δ} (hhalt : s.halt = true)
    (h : run m fuel cycle s = .ok (r, s')) : NoExecute s s' ∧ s'.halt = true := by
  obtain ⟨t₀, ht₀⟩ := run_begun h
  obtain ⟨hquiet, hhalt₀⟩ := beginRun_halted hhalt ht₀
  rw [run_begin ht₀] at h
  have hback : Background t₀ s' := by
    split at h
    · exact background_runLoop background_poll hhalt₀ h
    · exact background_runLoop (.of_pure .refl ()) hhalt₀ h
  exact ⟨hquiet.trans hback.trace, hback.halt.trans hhalt₀⟩

lemma laterRuns_halted {s s' : MipsBase T δ} (hhalt : s.halt = true) (h : LaterRuns m s s') :
    NoExecute s s' ∧ s'.halt = true := by
  induction h with
  | none => exact ⟨.refl s, hhalt⟩
  | more _ hrun ih =>
      obtain ⟨hquiet, hhalt'⟩ := run_halted ih.2 hrun
      exact ⟨ih.1.trans hquiet, hhalt'⟩

/-! ## The rest of the run -/

lemma runEntries_leave {rest : List MipsCacheEntry} {u : MipsBase T δ} (h : LeavesBlock rest u) :
    runEntries m rest u = .ok (0, u) := by
  cases rest with
  | nil => rfl
  | cons entry rest =>
      have hne : u.pc ≠ entry.address.setWidth 64 := h entry rfl
      rw [runEntries, Prog.bind_of_ok (read_run _ _), if_neg hne]
      rfl

/-- When control stays in the block, one more instruction is executed. -/
lemma not_noExecute_of_stays {rest : List MipsCacheEntry} {u s' : MipsBase T δ} {n k : ℕ}
    {cycle r : ℤ} (hmode : m.config.useCachedInterpreter = true) (h : ¬ LeavesBlock rest u)
    (hrun : restOfRun m cycle rest k n u = .ok (r, s')) : ¬ NoExecute u s' := by
  cases rest with
  | nil => exact absurd (fun entry he => absurd he (by simp)) h
  | cons entry rest =>
      have hpc : u.pc = entry.address.setWidth 64 := by
        by_contra hne
        refine h fun entry' he => ?_
        obtain rfl : entry = entry' := by simpa using he
        exact hne
      rw [restOfRun, if_pos hmode, runEntries] at hrun
      simp only [bind_assoc] at hrun
      rw [Prog.bind_of_ok (read_run _ _), if_pos hpc] at hrun
      simp only [bind_assoc] at hrun
      obtain ⟨⟨⟩, t, hentry, hrest⟩ := Prog.bind_ok.mp hrun
      obtain ⟨v, hcall, rfl⟩ := runEntry_ok.mp hentry
      have hextends : Extends (stepped 0xFFFFFFFF v) s' := by
        obtain ⟨executed, t₁, h₁, hrest⟩ := Prog.bind_ok.mp hrest
        simp only [pure_bind] at hrest
        obtain ⟨⟨⟩, t₂, h₂, h₃⟩ := Prog.bind_ok.mp hrest
        exact ((extends_runEntries rest _ _ _ h₁).trans (extends_countCycles _ _ _ _ h₂)).trans
          (extends_runLoop (extends_of_background background_poll) extends_runCachedBlock
            _ _ _ _ _ h₃)
      obtain ⟨new, htrace, -⟩ := (callInst_grown hcall).trace
      obtain ⟨new', htrace'⟩ := hextends
      rintro ⟨new'', htrace'', hquiet⟩
      have hsplit : new'' = new' ++ (new ++ [.preExecute u.pc entry.opcode]) := by
        refine (List.append_left_inj u.trace).mp ?_
        rw [← htrace'', htrace']
        change new' ++ v.trace = _
        rw [htrace]
        simp [started, advanced, told]
      have hmem : Event.preExecute u.pc entry.opcode ∈ new'' := by rw [hsplit]; simp
      exact absurd (hquiet _ hmem) (by simp [Event.isExecute])

/-- What a poll does to a halted program. -/
lemma poll_halted (hinst : m.IsN64 ∨ m.kHasCop0 = false) (hpure : m.bus.FetchPure)
    {u t : MipsBase T δ} (h : poll m u = .ok ((), t)) :
    (t.pc = u.pc ∧ t.device = u.device) ∧ (m.kHasCop0 = true → ¬ PollInterrupts m u) ∨
      (t.pc = vecAddressGeneral ∧ t.device = u.device) ∧ m.kHasCop0 = true ∧
        PollInterrupts m u := by
  rcases hinst with hm | hno
  · rcases poll_outcome hm h with ⟨hpoll, hpc, hdevice⟩ | ⟨hpoll, hpc, hdevice⟩
    · exact .inr ⟨⟨hpc, hdevice hpure⟩, hm.hasCop0, hpoll⟩
    · exact .inl ⟨⟨hpc, hdevice⟩, fun _ => hpoll⟩
  · rw [poll, if_neg (by simp [hno])] at h
    rw [← Prog.state_eq h]
    exact .inl ⟨⟨rfl, rfl⟩, fun hyes => absurd (hno.symm.trans hyes) (by simp)⟩

/-- The cached interpreter, when control left the block. -/
lemma stopsAt_of_leaves (hinst : m.IsN64 ∨ m.kHasCop0 = false) (hpure : m.bus.FetchPure)
    {u s' : MipsBase T δ} {n k : ℕ} {cycle r : ℤ} (hhalt : u.halt = true)
    (hrun : runLoop (poll m) (runCachedBlock m) cycle n (counted m k u) = .ok (r, s')) :
    StopsAt u s' ↔ (((counted m k u).cycleSpent : ℤ) < cycle → m.kHasCop0 = true →
      PollInterrupts m (counted m k u) → u.pc = vecAddressGeneral) := by
  have hback := background_runLoop background_poll (u := counted m k u) hhalt hrun
  have hkeep : ∀ t, poll m (counted m k u) = .ok ((), t) → t.halt = true := fun t ht =>
    (background_poll _ () t ht).halt.trans hhalt
  rcases runLoop_halted hkeep hrun with ⟨hcycle, rfl⟩ | ⟨hcycle, t, hpoll, hpassed⟩
  · exact ⟨fun _ hlt => absurd hlt hcycle, fun _ => ⟨.refl u, rfl, rfl, rfl⟩⟩
  · have hpc : s'.pc = t.pc := by rw [hpassed.eq]
    have hdevice : s'.device = t.device := by rw [hpassed.eq]
    rcases poll_halted hinst hpure hpoll with
      ⟨⟨hpc', hdevice'⟩, hno⟩ | ⟨⟨hpc', hdevice'⟩, hcop, hyes⟩
    · refine ⟨fun _ _ hcop hyes => absurd hyes (hno hcop), fun _ => ?_⟩
      exact ⟨hback.trace, hback.gpr, hdevice.trans hdevice', hpc.trans hpc'⟩
    · constructor
      · intro hstops _ _ _
        rw [← hstops.pc, hpc, hpc']
      · intro hvector
        refine ⟨hback.trace, hback.gpr, hdevice.trans hdevice', ?_⟩
        rw [hpc, hpc', hvector hcycle hcop hyes]

/-- After an instruction has set `halt_`, its run stops right there exactly when the plain
interpreter is used, or control leaves the block and the next poll takes no interrupt; and
later runs execute nothing in any case. -/
theorem haltStops_iff (hinst : m.IsN64 ∨ m.kHasCop0 = false) (hpure : m.bus.FetchPure)
    {fuel n k : ℕ} {cycle r : ℤ} {s u s' : MipsBase T δ} {rest : List MipsCacheEntry}
    (hpoint : RunPoint m fuel cycle s rest k n u) (hhalt : u.halt = true)
    (hrun : run m fuel cycle s = .ok (r, s')) :
    (StopsAt u s' ∧ ∀ s'', LaterRuns m s' s'' → NoExecute s' s'') ↔
      HaltHeard m cycle rest k u := by
  rw [hpoint.run_eq] at hrun
  cases hmode : m.config.useCachedInterpreter with
  | false =>
      rw [restOfRun, if_neg (by simp [hmode])] at hrun
      refine ⟨fun _ => .inl hmode, fun _ => ?_⟩
      have hkeep : ∀ t, (pure () : CpuM T δ Unit) u = .ok ((), t) → t.halt = true := by
        intro t ht
        rw [← Prog.state_eq ht]
        exact hhalt
      have hpure' : Prog.Moves Background (pure () : CpuM T δ Unit) := .of_pure .refl ()
      have hback := background_runLoop hpure' hhalt hrun
      refine ⟨⟨hback.trace, hback.gpr, ?_, ?_⟩, fun s'' hlater =>
        (laterRuns_halted (hback.halt.trans hhalt) hlater).1⟩
      all_goals
        rcases runLoop_halted hkeep hrun with ⟨-, rfl⟩ | ⟨-, t, ht, hpassed⟩
        · rfl
        · rw [hpassed.eq, ← Prog.state_eq ht]
  | true =>
      by_cases hleaves : LeavesBlock rest u
      · rw [restOfRun, if_pos hmode, Prog.bind_of_ok (runEntries_leave hleaves),
          Prog.bind_of_ok (countCycles_run _ _), Nat.zero_add] at hrun
        have hback := background_runLoop background_poll (u := counted m k u) hhalt hrun
        have hlater : ∀ s'', LaterRuns m s' s'' → NoExecute s' s'' := fun s'' h =>
          (laterRuns_halted (hback.halt.trans hhalt) h).1
        have hiff := stopsAt_of_leaves hinst hpure hhalt hrun
        constructor
        · exact fun h => .inr ⟨hleaves, hiff.mp h.1⟩
        · rintro (hplain | ⟨-, hquiet⟩)
          · exact absurd (hplain.symm.trans hmode) (by simp)
          · exact ⟨hiff.mpr hquiet, hlater⟩
      · constructor
        · intro h
          exact absurd h.1.quiet (not_noExecute_of_stays hmode hleaves hrun)
        · rintro (hplain | ⟨hleaves', -⟩)
          · exact absurd (hplain.symm.trans hmode) (by simp)
          · exact absurd hleaves' hleaves

/-! ## A block that goes on -/

/-- A write to the halting coprocessor, which `SR` makes usable (`CU2` is set), an addition to
register 1, and a system call. -/
def haltProgram : MipsBase MipsTlbNormal WordMemory :=
  { programState 0x80001000 0x1000 [0x48800000, 0x24010001, 0x0000000C] with
    cop0 := { sr := 0x40000000 } }

/-- The block of the program. -/
def haltBlock : MipsCacheBlock where
  start := 0x1000
  end_ := 0x100C
  entries := [⟨0x80001000, 0x48800000, .kMtc⟩, ⟨0x80001004, 0x24010001, .kAddiu⟩,
    ⟨0x80001008, 0x0000000C, .kSyscall⟩]

/-- The program with its block built, after the poll. -/
def haltEntered : MipsBase MipsTlbNormal WordMemory :=
  { haltProgram with
    interruptPollCounter := 1
    cache := (lastState (enterBlock cachedSetup)
      { haltProgram with interruptPollCounter := 1 }).cache }

/-- The program at an instruction of the block, after the write. -/
def haltedAt (pc : BitVec 64) (gpr : BitVec 5 → BitVec 64) (trace : List Event) :
    MipsBase MipsTlbNormal WordMemory :=
  { haltEntered with halt := true, pc := pc, nextPc := pc, gpr := gpr, trace := trace }

/-- The state behind the write. -/
def haltWritten : MipsBase MipsTlbNormal WordMemory :=
  haltedAt 0x80001004 haltProgram.gpr [.preExecute 0x80001000 0x48800000]

/-- The state behind the addition. -/
def haltAdded : MipsBase MipsTlbNormal WordMemory :=
  haltedAt 0x80001008 (Function.update haltProgram.gpr 1 1)
    [.preExecute 0x80001004 0x24010001, .preExecute 0x80001000 0x48800000]

/-- The state at the end of the block. -/
def haltBlockEnd : MipsBase MipsTlbNormal WordMemory :=
  haltedAt 0x8000100C (Function.update haltProgram.gpr 1 1)
    [.preExecute 0x80001008 0x0000000C, .preExecute 0x80001004 0x24010001,
      .preExecute 0x80001000 0x48800000]

/-- The cached interpreter executes the addition after the write has halted it. -/
theorem haltProgram_goes_on :
    ∃ (rest : List MipsCacheEntry) (s' : MipsBase MipsTlbNormal WordMemory),
      RunPoint cachedSetup 2 1 haltProgram rest 1 1 haltWritten ∧ haltProgram.halt = false ∧
        haltWritten.halt = true ∧ run cachedSetup 2 1 haltProgram = .ok (4, s') ∧
        ¬ StopsAt haltWritten s' := by
  have hfirst : BlockPoint cachedSetup haltBlock.entries haltEntered 1 _ haltWritten :=
    .first rfl rfl
  have hadd : BlockPoint cachedSetup haltBlock.entries haltEntered 2 _ haltAdded :=
    .next hfirst rfl rfl
  have hend : BlockPoint cachedSetup haltBlock.entries haltEntered 3 [] haltBlockEnd :=
    .next hadd rfl rfl
  have hloop : LoopPoint (poll cachedSetup) (runCachedBlock cachedSetup) 1 2 haltProgram 2
      haltProgram := .start
  have hblock : enterBlock cachedSetup { haltProgram with interruptPollCounter := 1 } =
      .ok (haltBlock, haltEntered) := rfl
  have hpoint : ∀ {k rest u}, BlockPoint cachedSetup haltBlock.entries haltEntered k rest u →
      RunPoint cachedSetup 2 1 haltProgram rest k 1 u := fun h =>
    .cached rfl rfl hloop (by decide) rfl rfl hblock h
  refine ⟨_, counted cachedSetup 3 haltBlockEnd, hpoint hfirst, rfl, rfl, ?_, ?_⟩
  · rw [(hpoint hend).run_eq]
    rfl
  · intro hstops
    exact absurd (congrFun hstops.gpr 1) (by decide)

/-- The plain interpreter on a processor whose timer is never checked. -/
def untimedSetup : MipsSetup WordMemory := n64Setup { hasIsolateCacheBit := true }

/-- The state behind the write, in the plain interpreter. -/
def haltWrittenPlain : MipsBase MipsTlbNormal WordMemory :=
  { haltProgram with
    halt := true, pc := 0x80001004, nextPc := 0x80001004, cpiCounter := 128, cycleSpent := 1
    cycleSpentTotal := 1, trace := [.preExecute 0x80001000 0x48800000] }

/-- The plain interpreter stops at once. -/
theorem haltProgram_stops :
    ∃ s', run untimedSetup 2 10 haltProgram = .ok (10, s') ∧ StopsAt haltWrittenPlain s' := by
  have hbegin : beginRun untimedSetup haltProgram = .ok ((), haltProgram) := rfl
  have hloop : LoopPoint (pure ()) (runInst untimedSetup) 10 2 haltProgram 2 haltProgram := .start
  have hpoint : RunPoint untimedSetup 2 10 haltProgram [] 0 1 haltWrittenPlain :=
    .plain rfl hbegin hloop (by decide) rfl rfl
  have hrun : run untimedSetup 2 10 haltProgram =
      .ok (10, { haltWrittenPlain with cycleSpentTotal := 10 }) := by
    rw [hpoint.run_eq]
    rfl
  have hiff := haltStops_iff (.inl (n64Setup_isN64 _)) wordBus_fetchPure hpoint rfl hrun
  exact ⟨_, hrun, (hiff.mpr (.inl rfl)).1⟩

end MipsBase

end NgMips
