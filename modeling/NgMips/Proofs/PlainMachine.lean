import Mathlib.Logic.Relation
import NgMips.Proofs.ProgramRuns

/-!
# One machine behind both interpreters

The machine a processor stands for executes one instruction after the other from memory.  Between
two of them time may pass, and it may look at its interrupt lines and at its timer (`PlainStep`).
Both interpreters refine this machine: over any number of slices, with the interrupts they take,
every instruction boundary of a run agrees with a state that the machine reaches, given the calls of
the interface that the run was given, in their order, and no others (`run_refines`).

The machine leaves open how much time passes, and so when the timer runs out.  The cached
interpreter counts the cycles of a block behind it, and an idle loop may be skipped by one
interpreter and not by the other; so the programs are those that do not read `Count`.  Nor do they
read the whole of `EPC`, whose high word depends on the interpreter.
-/

namespace NgMips

namespace MipsBase

variable {δ : Type} {m : MipsSetup δ}

/-! ## The machine -/

/-- The state at the time of another one: its clock, and the timestamps its timer remembers. -/
def atTime (clock s : MipsBase MipsTlbNormal δ) : MipsBase MipsTlbNormal δ :=
  { s with
    cycleSpent := clock.cycleSpent
    cpiCounter := clock.cpiCounter
    interruptPollCounter := clock.interruptPollCounter
    cycleSpentTotal := clock.cycleSpentTotal
    cop0 := { s.cop0 with
      countStartTimestamp := clock.cop0.countStartTimestamp
      lastCompareCheckTimestamp := clock.cop0.lastCompareCheckTimestamp
      surpressCompareInterrupt := clock.cop0.surpressCompareInterrupt } }

variable (m) in
/-- A step the machine takes by itself. -/
inductive PlainStep : MipsBase MipsTlbNormal δ → MipsBase MipsTlbNormal δ → Prop
  | inst {s t : MipsBase MipsTlbNormal δ} (hrun : runInst m s = .ok ((), t)) : PlainStep s t
  | time (clock s : MipsBase MipsTlbNormal δ) : PlainStep s (atTime clock s)
  | lines {s t : MipsBase MipsTlbNormal δ} (hcheck : checkInterrupt m s = .ok ((), t)) :
      PlainStep s t
  | timer {s t : MipsBase MipsTlbNormal δ} (hcompare : checkCompare m s = .ok ((), t)) :
      PlainStep s t

variable (m) in
/-- A run of the machine: it takes steps, and is given these calls in between, in this order. -/
inductive PlainRun : List (MipsCall δ) → MipsBase MipsTlbNormal δ → MipsBase MipsTlbNormal δ → Prop
  | steps {s t : MipsBase MipsTlbNormal δ} (hsteps : Relation.ReflTransGen (PlainStep m) s t) :
      PlainRun [] s t
  | call {calls : List (MipsCall δ)} {call : MipsCall δ} {r : Option ℤ}
      {s t u v : MipsBase MipsTlbNormal δ} (h : PlainRun calls s t)
      (hcall : perform m call t = .ok (r, u)) (hsteps : Relation.ReflTransGen (PlainStep m) u v) :
      PlainRun (calls ++ [call]) s v

/-- After its last call a run goes on by itself. -/
lemma PlainRun.goesOn {calls : List (MipsCall δ)} {s t u : MipsBase MipsTlbNormal δ}
    (h : PlainRun m calls s t) (hmore : Relation.ReflTransGen (PlainStep m) t u) :
    PlainRun m calls s u := by
  cases h with
  | steps hsteps => exact .steps (hsteps.trans hmore)
  | call hbefore hcall hsteps => exact .call hbefore hcall (hsteps.trans hmore)

variable (m) in
/-- The machine goes on by itself from `t` to a state that agrees with `s`. -/
def Answered (s t : MipsBase MipsTlbNormal δ) : Prop :=
  ∃ t', Relation.ReflTransGen (PlainStep m) t t' ∧ Agree s t'

namespace Answered

variable {s s' t t' : MipsBase MipsTlbNormal δ}

/-- Nothing is to be done. -/
lemma of_agree (h : Agree s t) : Answered m s t := ⟨t, .refl, h⟩

lemma of_step (hstep : PlainStep m t t') (h : Agree s t') : Answered m s t := ⟨t', .single hstep, h⟩

/-- What was answered before is answered by going on. -/
lemma trans (h : Answered m s t) (hnext : ∀ u, Agree s u → Answered m s' u) : Answered m s' t := by
  obtain ⟨u, hsteps, hagree⟩ := h
  obtain ⟨v, hmore, hagree'⟩ := hnext u hagree
  exact ⟨v, hsteps.trans hmore, hagree'⟩

end Answered

/-! ## Interrupts -/

lemma agree_atTime {s t : MipsBase MipsTlbNormal δ} (h : Agree s t)
    (clock : MipsBase MipsTlbNormal δ) : Agree s (atTime clock t) :=
  { h with cop0 := { h.cop0 with } }

/-- Whether an interrupt is ready does not depend on what agreement leaves out. -/
lemma interruptReady_congr {s t : MipsBase MipsTlbNormal δ} (h : Agree s t) :
    InterruptReady m s ↔ InterruptReady m t := by
  rw [InterruptReady, InterruptReady, h.cop0.sr, h.cop0.cause, h.device, h.compareInterrupt]

lemma respects_checkInterrupt (hm : m.IsN64) :
    Respects (checkInterrupt (T := MipsTlbNormal) m) := by
  intro s t h a s' hs
  cases checkInterrupt_cases hm hs with
  | idle hno hstate =>
      rw [hstate]
      exact ⟨t, checkInterrupt_idle hm fun hexc hready =>
        hno hexc ((interruptReady_congr h).mpr hready), h⟩
  | taken hexc hready htrigger =>
      rw [checkInterrupt_ready hm hexc ((interruptReady_congr h).mp hready)]
      exact respects_triggerException hm .kInt s t h a s' htrigger

/-- At the same time, the timers of states that agree have run out or not. -/
lemma crossed_atTime {s t : MipsBase MipsTlbNormal δ} (h : Agree s t) :
    ((atTime s t).cop0.checkCompareInterrupt (atTime s t).timestamp).1 =
      (s.cop0.checkCompareInterrupt s.timestamp).1 := by
  have hcompare : (atTime s t).cop0.compare = s.cop0.compare := h.cop0.compare.symm
  have htimestamp : (atTime s t).timestamp = s.timestamp := rfl
  simp only [MipsCop0.checkCompareInterrupt, apply_ite Prod.fst, htimestamp, hcompare]
  rfl

lemma agree_checked {s t : MipsBase MipsTlbNormal δ} (h : Agree s t) :
    Agree (checked m s) (checked m t) := by
  have hlatched : (latched m s).cop0.Agree (latched m t).cop0 := by
    refine { h.cop0 with cause := ?_ }
    simp only [latched, h.cop0.cause, h.device, h.compareInterrupt]
  have hs := agree_checkCompareInterrupt (latched m s).cop0 s.timestamp
  have ht := agree_checkCompareInterrupt (latched m t).cop0 t.timestamp
  have hcop0 : (checked m s).cop0.Agree (checked m t).cop0 :=
    { context := (hs.context.trans hlatched.context).trans ht.context.symm
      wired := (hs.wired.trans hlatched.wired).trans ht.wired.symm
      badvaddr := (hs.badvaddr.trans hlatched.badvaddr).trans ht.badvaddr.symm
      compare := (hs.compare.trans hlatched.compare).trans ht.compare.symm
      sr := (hs.sr.trans hlatched.sr).trans ht.sr.symm
      cause := (hs.cause.trans hlatched.cause).trans ht.cause.symm
      epc := (hs.epc.trans hlatched.epc).trans ht.epc.symm
      errorEpc := (hs.errorEpc.trans hlatched.errorEpc).trans ht.errorEpc.symm }
  exact { h with cop0 := hcop0 }

/-- At the same time, states that agree look at their lines alike. -/
lemma checkCompare_atTime (hm : m.IsN64) {s t s' : MipsBase MipsTlbNormal δ} (h : Agree s t)
    (hs : checkCompare m s = .ok ((), s')) :
    ∃ t', checkCompare m (atTime s t) = .ok ((), t') ∧ Agree s' t' := by
  have hchecked : Agree (checked m s) (checked m (atTime s t)) := agree_checked (agree_atTime h s)
  cases hiso : m.config.hasIsolateCacheBit with
  | true =>
      rw [checkCompare_isolated hiso] at hs ⊢
      rw [← Prog.state_eq hs]
      exact ⟨_, rfl, agree_atTime h s⟩
  | false =>
      rw [checkCompare_run hm hiso] at hs ⊢
      rw [crossed_atTime h]
      split at hs
      · next hcrossed =>
          have hline : Agree { checked m s with compareInterrupt := true }
              { checked m (atTime s t) with compareInterrupt := true } :=
            { hchecked with compareInterrupt := rfl }
          rw [if_pos hcrossed]
          exact respects_checkInterrupt hm _ _ hline () s' hs
      · next hcrossed =>
          rw [if_neg hcrossed, ← Prog.state_eq hs]
          exact ⟨_, rfl, hchecked⟩

lemma answered_checkInterrupt (hm : m.IsN64) {s t s' : MipsBase MipsTlbNormal δ} (h : Agree s t)
    (hs : checkInterrupt m s = .ok ((), s')) : Answered m s' t := by
  obtain ⟨t', ht, hagree⟩ := respects_checkInterrupt hm s t h () s' hs
  exact .of_step (.lines ht) hagree

/-- A look at the timer is answered by waiting until the same time, and looking. -/
lemma answered_checkCompare (hm : m.IsN64) {s t s' : MipsBase MipsTlbNormal δ} (h : Agree s t)
    (hs : checkCompare m s = .ok ((), s')) : Answered m s' t := by
  obtain ⟨t', ht, hagree⟩ := checkCompare_atTime hm h hs
  exact ⟨t', .tail (.single (.time s t)) (.timer ht), hagree⟩

lemma answered_poll (hm : m.IsN64) {s t s' : MipsBase MipsTlbNormal δ} (h : Agree s t)
    (hs : poll m s = .ok ((), s')) : Answered m s' t := by
  cases poll_cases hm hs with
  | counts hearly hstate =>
      rw [hstate]
      exact .of_agree { h with }
  | looks hdue v hcheck hcompare =>
      have hpolling : Agree (polling s) t := { h with }
      exact (answered_checkInterrupt hm hpolling hcheck).trans fun u hu =>
        answered_checkCompare hm hu hcompare

/-- What a run does before its loop. -/
lemma answered_beginRun (hm : m.IsN64) {s t s' : MipsBase MipsTlbNormal δ} (h : Agree s t)
    (hs : beginRun m s = .ok ((), s')) : Answered m s' t := by
  have hreset : Agree { s with cycleSpent := 0 } t := { h with }
  rw [beginRun] at hs
  split at hs
  · rw [← Prog.state_eq hs]
    exact .of_agree hreset
  · obtain ⟨⟨⟩, v, hcheck, hcompare⟩ := Prog.bind_ok.mp hs
    exact (answered_checkInterrupt hm hreset hcheck).trans fun u hu =>
      answered_checkCompare hm hu hcompare

/-! ## Instructions and blocks -/

variable {p : KsegProgram}

variable (m p) in
/-- The program reads neither `Count` nor the whole of `EPC`. -/
def QuietProgram : Prop :=
  ∀ a, p.code a → QuietRead (p.word a) (getInstFuncPtr m.kIs64Bit (p.word a))

lemma QuietProgram.inst (hquiet : QuietProgram m p) {pc : BitVec 64} (hat : p.At pc) :
    QuietInst (p.instAt pc) (getInstFuncPtr m.kIs64Bit (p.instAt pc)) pc where
  segment := hat.1
  slot hslot := (p.slot pc hat.1 hat.2 (doesInstHaveDelaySlot_of_func _ hslot)).1
  read := hquiet _ hat.2

section Instructions

variable (hm : m.IsN64) (hpure : m.bus.FetchPure) (hquiet : QuietProgram m p)

include hm hpure hquiet

/-- An entry that holds the instruction at the program counter is answered by that instruction. -/
lemma answered_runEntry {entry : MipsCacheEntry} {s t s' : MipsBase MipsTlbNormal δ}
    (h : Agree s t) (hprogram : InProgram m p s)
    (hentry : entry.opcode = p.instAt s.pc ∧ entry.func = getInstFuncPtr m.kIs64Bit entry.opcode)
    (hrun : runEntry m entry s = .ok ((), s')) : Answered m s' t := by
  obtain ⟨hop, hfunc⟩ := hentry
  have hword : entry.opcode = m.bus.word s.device (ksegPhysical s.pc) :=
    hop.trans (hprogram.held _ hprogram.at_.2).symm
  have hinst : QuietInst entry.opcode entry.func s.pc := by
    rw [hfunc, hop]
    exact hquiet.inst hprogram.at_
  obtain ⟨t', hinst, hagree⟩ := runEntry_simulates hm hpure h hword hfunc hinst hrun
  exact .of_step (.inst hinst) hagree

lemma answered_runInst {s t s' : MipsBase MipsTlbNormal δ} (h : Agree s t)
    (hprogram : InProgram m p s) (hrun : runInst m s = .ok ((), s')) : Answered m s' t := by
  obtain ⟨opcode, s₀, u, hfetch, hcall, rfl⟩ := runInst_ok.mp hrun
  rw [fetch_inKseg hpure hprogram.at_.1] at hfetch
  obtain ⟨hop, rfl⟩ := Prog.ok_inj hfetch
  have hinst := hquiet.inst hprogram.at_
  rw [KsegProgram.instAt, ← hprogram.held _ hprogram.at_.2, hop] at hinst
  obtain ⟨v, hcall', hagree⟩ := callInst_agree hm hpure hinst.read (agree_started h) hinst.slot hcall
  have hfetch' : fetch m t.pc t = .ok (opcode, t) := by
    rw [fetch_inKseg hpure (h.pc.inKseg ▸ hprogram.at_.1), ← hop, h.pc.ksegPhysical, h.device]
  refine .of_step (.inst (runInst_ok.mpr ⟨opcode, t, v, hfetch', hcall', rfl⟩)) ?_
  have hpc : SameLow (u.nextPc &&& BitVec.allOnes 64) (v.nextPc &&& BitVec.allOnes 64) := by
    rw [BitVec.and_allOnes, BitVec.and_allOnes]
    exact hagree.nextPc
  exact { hagree with pc := hpc }

/-- Every boundary of a block of the program is answered. -/
lemma answered_blockPoint {entries rest : List MipsCacheEntry} {k : ℕ}
    {s t u : MipsBase MipsTlbNormal δ} (h : Agree s t) (hblock : InBlock m p entries s)
    (hin : ∀ k rest u, BlockPoint m entries s k rest u → InProgram m p u)
    (hpoint : BlockPoint m entries s k rest u) : Answered m u t := by
  induction hpoint with
  | first hentries hrun =>
      exact answered_runEntry hm hpure hquiet h hblock.program
        (hblock.block.first _ _ hentries hblock.program.at_.2) hrun
  | next hpoint hpc hrun ih =>
      have hprogram := hin _ _ _ hpoint
      obtain ⟨-, -, hsub⟩ := hpoint.steady hm hblock hin
      exact ih.trans fun v hv => answered_runEntry hm hpure hquiet hv hprogram
        (hblock.block.at_pc (hsub _ List.mem_cons_self) hpc hprogram.at_) hrun

omit hquiet in
/-- Coming by a block changes nothing but the block cache, when reading ahead does no harm. -/
lemma Entered.cache_only {block : MipsCacheBlock} {s t : MipsBase MipsTlbNormal δ}
    (hmapped : AheadMapped m s) (h : Entered m s block t) : t = { s with cache := t.cache } := by
  cases h with
  | hit hmem ht => rw [ht]
  | built hmiss hbuild hplace hkey ht =>
      obtain ⟨entries, v, hcollect, hrest⟩ := Prog.bind_ok.mp hbuild
      have hsame : v = cleared m s := by
        refine collectEntries_same hm hpure _ ?_ hcollect
        rcases hmapped with hexc | hkey | hall
        · exact .inl hexc
        · exact absurd hkey hmiss
        · rw [lookAhead_congr (m := m) (s := s) (t := cleared m s) rfl rfl]
          exact .inr hall
      rw [ht, ← Prog.state_eq hrest, hsame, cleared]

end Instructions

/-! ## Rounds of the cached interpreter -/

lemma Steady.pointersOwn {s : MipsBase MipsTlbNormal δ} (h : Steady m p s) :
    (cleared m s).cache.PointersOwn := by
  simp only [cleared]
  split
  · exact (h.orderly.executeCacheClear m.ord).own
  · exact h.orderly.own

section Round

variable {s s' t u : MipsBase MipsTlbNormal δ} {block : MipsCacheBlock} (hm : m.IsN64)
  (hpure : m.bus.FetchPure) (hprogram : InProgram m p s) (hsteady : Steady m p s)
  (hmapped : AheadMapped m s)

include hm hpure hprogram hsteady hmapped

/-- The machine has nothing to do when a block is entered. -/
lemma agree_enterBlock (h : Agree s t) (henter : enterBlock m s = .ok (block, u)) : Agree u t := by
  have hentered := enterBlock_own hm hpure hprogram.at_.1 hsteady.pointersOwn henter
  rw [hentered.cache_only hm hpure hmapped]
  exact { h with }

lemma answered_runCachedBlock (hquiet : QuietProgram m p)
    (hmode : m.config.useCachedInterpreter = true)
    (hin : ∀ {block u}, enterBlock m s = .ok (block, u) →
      ∀ k rest v, BlockPoint m block.entries u k rest v → InProgram m p v)
    (h : Agree s t) (hrun : runCachedBlock m s = .ok ((), s')) : Answered m s' t := by
  rw [runCachedBlock_eq] at hrun
  obtain ⟨block, u, henter, hrest⟩ := Prog.bind_ok.mp hrun
  obtain ⟨executed, v, hblock, hcount⟩ := Prog.bind_ok.mp hrest
  have hinBlock := enterBlock_inBlock hm hpure hmode hprogram hsteady henter
  have hagree := agree_enterBlock hm hpure hprogram hsteady hmapped h henter
  have hanswered : Answered m v t := by
    cases hentries : block.entries with
    | nil =>
        rw [hentries] at hblock
        obtain ⟨-, rfl⟩ := Prog.ok_inj hblock
        exact .of_agree hagree
    | cons entry rest =>
        rw [hentries] at hblock
        obtain ⟨rest', hpoint⟩ := runBlock_point hblock
        rw [← hentries] at hpoint
        exact answered_blockPoint hm hpure hquiet hagree hinBlock (hin henter) hpoint
  rw [← Prog.state_eq hcount]
  exact hanswered.trans fun w hw => .of_agree { hw with }

end Round

/-! ## Slices -/

section Slice

variable {fuel n : ℕ} {cycle : ℤ} {s s' t t₀ u : MipsBase MipsTlbNormal δ} (hm : m.IsN64)
  (hpure : m.bus.FetchPure) (hquiet : QuietProgram m p) (hin : RunsIn m p fuel cycle s)
  (hmapped : ∀ u, Boundary m fuel cycle s u → AheadMapped m u) (hstart : Steady m p s)
  (h : Agree s t)

include hm hpure hquiet hin hstart h

omit hstart in
/-- Every test of the plain interpreter is answered. -/
lemma answered_plainTest (hmode : m.config.useCachedInterpreter = false)
    (hbegin : beginRun m s = .ok ((), t₀))
    (hloop : LoopPoint (pure ()) (runInst m) cycle fuel t₀ n u) : Answered m u t := by
  induction hloop with
  | start => exact answered_beginRun hm h hbegin
  | next hpoint hcycle hbefore hhalt hstep ih =>
      obtain ⟨-, rfl⟩ := Prog.ok_inj hbefore
      exact ih.trans fun v hv =>
        answered_runInst hm hpure hquiet hv (hin _ (.plainTest hmode hbegin hpoint)) hstep

include hmapped

/-- So is every test of the cached interpreter. -/
lemma answered_cachedTest (hmode : m.config.useCachedInterpreter = true)
    (hbegin : beginRun m s = .ok ((), t₀))
    (hloop : LoopPoint (poll m) (runCachedBlock m) cycle fuel t₀ n u) : Answered m u t := by
  induction hloop with
  | start => exact answered_beginRun hm h hbegin
  | next hpoint hcycle hbefore hhalt hstep ih =>
      have hsteady := cachedTest_steady hm hpure hin hstart hmode hbegin hpoint
      have hpolled := poll_steady hm hpure (hin _ (.cachedTest hmode hbegin hpoint)) hsteady hbefore
      have hboundary := Boundary.polled hmode hbegin hpoint hcycle hbefore
      refine (ih.trans fun v hv => answered_poll hm hv hbefore).trans fun v hv => ?_
      exact answered_runCachedBlock hm hpure (hin _ hboundary) hpolled (hmapped _ hboundary) hquiet
        hmode (hin.block hmode hbegin hpoint hcycle hbefore hhalt) hv hstep

/-- Every boundary of a slice is answered. -/
lemma Boundary.answered (hu : Boundary m fuel cycle s u) : Answered m u t := by
  cases hu with
  | called => exact .of_agree h
  | plainTest hmode hbegin hloop =>
      exact answered_plainTest hm hpure hquiet hin h hmode hbegin hloop
  | cachedTest hmode hbegin hloop =>
      exact answered_cachedTest hm hpure hquiet hin hmapped hstart h hmode hbegin hloop
  | polled hmode hbegin hloop hcycle hpoll =>
      exact (answered_cachedTest hm hpure hquiet hin hmapped hstart h hmode hbegin hloop).trans
        fun v hv => answered_poll hm hv hpoll
  | executed hpoint =>
      cases hpoint with
      | plain hmode hbegin hloop hcycle hhalt hrun =>
          have hprogram := hin _ (.plainTest hmode hbegin hloop)
          exact (answered_plainTest hm hpure hquiet hin h hmode hbegin hloop).trans
            fun v hv => answered_runInst hm hpure hquiet hv hprogram hrun
      | cached hmode hbegin hloop hcycle hpoll hhalt henter hpoint =>
          have hsteady := cachedTest_steady hm hpure hin hstart hmode hbegin hloop
          have hpolled := poll_steady hm hpure (hin _ (.cachedTest hmode hbegin hloop)) hsteady hpoll
          have hboundary := Boundary.polled hmode hbegin hloop hcycle hpoll
          have hinBlock := enterBlock_inBlock hm hpure hmode (hin _ hboundary) hpolled henter
          have htest := answered_cachedTest hm hpure hquiet hin hmapped hstart h hmode hbegin hloop
          refine (htest.trans fun v hv => answered_poll hm hv hpoll).trans fun v hv => ?_
          exact answered_blockPoint hm hpure hquiet
            (agree_enterBlock hm hpure (hin _ hboundary) hpolled (hmapped _ hboundary) hv henter)
            hinBlock (hin.block hmode hbegin hloop hcycle hpoll hhalt henter) hpoint

/-- A slice is answered. -/
lemma answered_run {r : ℤ} (hrun : run m fuel cycle s = .ok (r, s')) : Answered m s' t := by
  obtain ⟨t₀, hbegin⟩ := run_begun hrun
  rw [run_begin hbegin] at hrun
  cases hmode : m.config.useCachedInterpreter with
  | true =>
      rw [hmode, if_pos rfl] at hrun
      obtain ⟨k, u, hloop, rfl | ⟨v, cycles, hcycle, hpoll, rfl⟩⟩ := LoopPoint.start.ends hrun
      · exact Boundary.answered hm hpure hquiet hin hmapped hstart h (.cachedTest hmode hbegin hloop)
      · exact (answered_cachedTest hm hpure hquiet hin hmapped hstart h hmode hbegin hloop).trans
          fun w hw => (answered_poll hm hw hpoll).trans fun w' hw' => .of_agree { hw' with }
  | false =>
      rw [hmode, if_neg (by simp)] at hrun
      obtain ⟨k, u, hloop, rfl | ⟨v, cycles, hcycle, hbefore, rfl⟩⟩ := LoopPoint.start.ends hrun
      · exact Boundary.answered hm hpure hquiet hin hmapped hstart h (.plainTest hmode hbegin hloop)
      · obtain ⟨-, rfl⟩ := Prog.ok_inj hbefore
        exact (answered_plainTest hm hpure hquiet hin h hmode hbegin hloop).trans
          fun w hw => .of_agree { hw with }

end Slice

/-! ## Whole runs -/

/-- A call between two slices does to the machine what it does to the run. -/
lemma perform_agree {call : MipsCall δ} {r : Option ℤ} {s s' t : MipsBase MipsTlbNormal δ}
    (hleaves : call.leavesControl = true) (h : Agree s t) (hcall : perform m call s = .ok (r, s')) :
    ∃ t', perform m call t = .ok (r, t') ∧ Agree s' t' := by
  cases call with
  | setPc pc | setPcDuringInst pc | reset | run fuel cycle =>
      exact absurd hleaves (by simp [MipsCall.leavesControl])
  | setGpr idx value =>
      have hset : Respects (setGpr idx value : CpuM MipsTlbNormal δ Unit) :=
        respects_writeGpr64 idx value
      have hrespects : Respects (perform m (.setGpr idx value)) := hset.bind fun _ => .of_pure none
      exact hrespects s t h r s' hcall
  | queueCacheClear =>
      obtain ⟨rfl, rfl⟩ := Prog.ok_inj hcall
      exact ⟨_, rfl, { h with }⟩
  | setLlbit llbit =>
      obtain ⟨rfl, rfl⟩ := Prog.ok_inj hcall
      exact ⟨_, rfl, { h with llbit := rfl }⟩
  | setHalt halt =>
      obtain ⟨rfl, rfl⟩ := Prog.ok_inj hcall
      exact ⟨_, rfl, { h with halt := rfl }⟩
  | clearCompareInterrupt =>
      obtain ⟨rfl, rfl⟩ := Prog.ok_inj hcall
      exact ⟨_, rfl, { h with compareInterrupt := rfl }⟩
  | inputs f =>
      obtain ⟨rfl, rfl⟩ := Prog.ok_inj hcall
      exact ⟨_, rfl, { h with device := congrArg f h.device }⟩

variable (m p) in
/-- The slices of a run of the program, from `s`, with the calls it was given between them. -/
inductive SlicedRun (s : MipsBase MipsTlbNormal δ) :
    List (MipsCall δ) → MipsBase MipsTlbNormal δ → Prop
  | start : SlicedRun s [] s
  | slice {calls : List (MipsCall δ)} {fuel : ℕ} {cycle : ℤ} {r : Option ℤ}
      {t u : MipsBase MipsTlbNormal δ} (h : SlicedRun s calls t) (hin : RunsIn m p fuel cycle t)
      (hmapped : ∀ v, Boundary m fuel cycle t v → AheadMapped m v)
      (hcall : perform m (.run fuel cycle) t = .ok (r, u)) : SlicedRun s calls u
  | between {calls : List (MipsCall δ)} {call : MipsCall δ} {r : Option ℤ}
      {t u : MipsBase MipsTlbNormal δ} (h : SlicedRun s calls t)
      (hleaves : call.leavesControl = true) (hcall : perform m call t = .ok (r, u)) :
      SlicedRun s (calls ++ [call]) u

section Whole

variable {calls : List (MipsCall δ)} {s t : MipsBase MipsTlbNormal δ} (hm : m.IsN64)
  (hpure : m.bus.FetchPure) (hstart : Steady m p s) (h : SlicedRun m p s calls t)

include hm hpure hstart h

lemma SlicedRun.steady : Steady m p t := by
  induction h with
  | start => exact hstart
  | slice _ hin _ hcall ih =>
      obtain ⟨spent, u, hrun, hrest⟩ := Prog.bind_ok.mp hcall
      rw [← Prog.state_eq hrest]
      exact run_steady hm hpure hin ih hrun
  | between _ hleaves hcall ih => exact perform_steady hleaves ih hcall

/-- The machine is where the run is when it was given the same calls. -/
lemma SlicedRun.answered (hquiet : QuietProgram m p) : ∃ t', PlainRun m calls s t' ∧ Agree t t' := by
  induction h with
  | start => exact ⟨s, .steps .refl, .refl s⟩
  | slice hbefore hin hmapped hcall ih =>
      obtain ⟨t', hplain, hagree⟩ := ih
      obtain ⟨spent, u, hslice, hrest⟩ := Prog.bind_ok.mp hcall
      rw [← Prog.state_eq hrest]
      obtain ⟨u', hsteps, hagree'⟩ := answered_run hm hpure hquiet hin hmapped
        (hbefore.steady hm hpure hstart) hagree hslice
      exact ⟨u', hplain.goesOn hsteps, hagree'⟩
  | between hbefore hleaves hcall ih =>
      obtain ⟨t', hplain, hagree⟩ := ih
      obtain ⟨u', hcall', hagree'⟩ := perform_agree hleaves hagree hcall
      exact ⟨u', hplain.call hcall' .refl, hagree'⟩

end Whole

/-- `J 0x400`, a jump to itself, at the physical address `0x1000`. -/
def spinMemory : WordMemory := [(0x1000, 0x08000400)]

lemma spinMemory_slot {a : BitVec 64} (h : doesInstHaveDelaySlot (spinMemory.read a) = true) :
    a = 0x1000 := by
  by_contra hne
  have hread : spinMemory.read a = 0 := by
    simp only [WordMemory.read, spinMemory, List.lookup_cons, beq_false_of_ne hne]
    rfl
  rw [hread] at h
  exact absurd h (by decide)

/-- The jump and its delay slot. -/
def spinProgram : KsegProgram where
  code a := a = 0x1000 ∨ a = 0x1004
  word := spinMemory.read
  slot address hkseg _ hslot := by
    have hphys := congrArg BitVec.toNat (spinMemory_slot hslot)
    rw [ksegPhysical_toNat] at hphys
    change address.toNat % 2 ^ 29 = 0x1000 at hphys
    have hlow := (inKseg_iff address).mp hkseg
    have hadd : (address + 4).toNat = (address.toNat + 4) % 2 ^ 64 := BitVec.toNat_add _ _
    have hnext : ksegPhysical (address + 4) = 0x1004 := by
      apply BitVec.eq_of_toNat_eq
      rw [ksegPhysical_toNat, hadd]
      change _ = 0x1004
      omega
    refine ⟨(inKseg_iff _).mpr ?_, .inr hnext, ?_⟩
    · rw [hadd]
      omega
    · rw [hnext]
      decide

/-- The jump is the next instruction. -/
def spinStart : MipsBase MipsTlbNormal WordMemory :=
  lastState (perform cachedExceptionSetup (.setPc 0x80001000)) (built spinMemory)

def spinBegun : MipsBase MipsTlbNormal WordMemory :=
  lastState (beginRun cachedExceptionSetup) spinStart

def spinPolled : MipsBase MipsTlbNormal WordMemory := lastState (poll cachedExceptionSetup) spinBegun

def spinEntered : MipsBase MipsTlbNormal WordMemory :=
  lastState (enterBlock cachedExceptionSetup) spinPolled

/-- The jump, and its delay slot. -/
def spinEntries : List MipsCacheEntry :=
  [⟨0x80001000, 0x08000400, .kJ⟩, ⟨0x80001004, 0, .kNop⟩]

/-- The jump was executed. -/
def spinJumped : MipsBase MipsTlbNormal WordMemory :=
  lastState (runEntry cachedExceptionSetup ⟨0x80001000, 0x08000400, .kJ⟩) spinEntered

/-- So was its delay slot. -/
def spinDone : MipsBase MipsTlbNormal WordMemory :=
  lastState (runEntry cachedExceptionSetup ⟨0x80001004, 0, .kNop⟩) spinJumped

lemma spin_inProgram {s : MipsBase MipsTlbNormal WordMemory} (hdevice : s.device = spinMemory)
    (hpc : s.pc = 0x80001000 ∨ s.pc = 0x80001004) :
    InProgram cachedExceptionSetup spinProgram s where
  at_ := by
    rcases hpc with hpc | hpc
    · rw [hpc]
      exact ⟨by decide, .inl (by decide)⟩
    · rw [hpc]
      exact ⟨by decide, .inr (by decide)⟩
  held a _ := by
    rw [hdevice]
    rfl

lemma spin_entered {block : MipsCacheBlock} {t : MipsBase MipsTlbNormal WordMemory}
    (henter : enterBlock cachedExceptionSetup spinPolled = .ok (block, t)) :
    block.entries = spinEntries ∧ t = spinEntered := by
  have hreturned : (returnedValue (enterBlock cachedExceptionSetup) spinPolled).map
      MipsCacheBlock.entries = some spinEntries := by decide +kernel
  obtain ⟨block', hblock, hentries⟩ := Option.map_eq_some_iff.mp hreturned
  obtain ⟨hblock', ht⟩ := Prog.ok_inj (henter.symm.trans (run_of_returned hblock))
  rw [hblock']
  exact ⟨hentries, ht⟩

/-- The cycles were counted. -/
def spinEnd : MipsBase MipsTlbNormal WordMemory :=
  lastState (runCachedBlock cachedExceptionSetup) spinPolled

/-- The boundaries of a slice of one cycle. -/
lemma spin_runsIn : RunsIn cachedExceptionSetup spinProgram 10 1 spinStart := by
  have hbegin : beginRun cachedExceptionSetup spinStart = .ok ((), spinBegun) :=
    run_of_returned (by decide +kernel)
  have hpoll : poll cachedExceptionSetup spinBegun = .ok ((), spinPolled) :=
    run_of_returned (by decide +kernel)
  have hround : runCachedBlock cachedExceptionSetup spinPolled = .ok ((), spinEnd) :=
    run_of_returned (by decide +kernel)
  have hspent : ¬ (spinEnd.cycleSpent : ℤ) < 1 := by decide +kernel
  have hjump : runEntry cachedExceptionSetup ⟨0x80001000, 0x08000400, .kJ⟩ spinEntered =
      .ok ((), spinJumped) := run_of_returned (by decide +kernel)
  have hslot : runEntry cachedExceptionSetup ⟨0x80001004, 0, .kNop⟩ spinJumped =
      .ok ((), spinDone) := run_of_returned (by decide +kernel)
  have hprogram : ∀ u ∈ [spinStart, spinBegun, spinPolled, spinJumped, spinDone, spinEnd],
      u.device = spinMemory ∧ (u.pc = 0x80001000 ∨ u.pc = 0x80001004) := by decide +kernel
  intro u hu
  have hmem := hu.of_pair rfl hbegin hpoll (fun _ _ henter => spin_entered henter) hjump hslot
    hround hspent
  exact spin_inProgram (hprogram u hmem).1 (hprogram u hmem).2

lemma spinStart_programRun : ProgramRun cachedExceptionSetup spinProgram spinStart := by
  have hstart : StartsAt cachedExceptionSetup spinProgram (built spinMemory) :=
    ⟨⟨spinMemory, [], [], rfl⟩, rfl, fun _ e he => absurd he (by simp [cleared, built])⟩
  have hcall : perform cachedExceptionSetup (.setPc 0x80001000) (built spinMemory) =
      .ok (none, spinStart) := rfl
  exact .setPc hstart hcall

lemma spinProgram_quiet : QuietProgram cachedExceptionSetup spinProgram := by
  intro a ha
  have hword : spinProgram.word a = 0x08000400 ∨ spinProgram.word a = 0 := by
    rcases ha with rfl | rfl
    · exact .inl rfl
    · exact .inr rfl
  rcases hword with hword | hword
  · rw [hword]
    exact fun _ => ⟨by decide, fun _ => by decide⟩
  · rw [hword]
    exact fun _ => ⟨by decide, fun _ => by decide⟩

end MipsBase

end NgMips
