import NgMips.Proofs.BranchBehind
import NgMips.Proofs.ModifiedCode
import NgMips.Proofs.Pointers

/-!
# Runs of a program in the unmapped segments

A run of a program is started by `SetPc` with no branch pending and cut into slices of any length
(`ProgramRun`).  Between two instructions of it, a pending branch is the one before the program
counter; so no exception gives up in a delay slot (`nonBranchOnBd_unreachable`).

The cached interpreter executes what its blocks hold, and not what memory does.  Blocks hold the
program (`BlocksCopied`), since they are built from memory while the program is in it.  The first
instruction of a block is executed wherever it was decoded for; the others are executed at their
own addresses.
-/

namespace NgMips

/-- A call that neither runs the processor nor sets its program counter. -/
def MipsCall.leavesControl {δ : Type} : MipsCall δ → Bool
  | setPc _ | setPcDuringInst _ | reset | run _ _ => false
  | _ => true

namespace MipsBase

variable {δ : Type} {m : MipsSetup δ} {p : KsegProgram}

/-! ## Copies of the program -/

section Copies

variable (m p)

/-- The entry holds the instruction of the program at the physical address, and its handler. -/
def Copies (a : BitVec 64) (entry : MipsCacheEntry) : Prop :=
  p.code a → entry.opcode = p.word a ∧ entry.func = getInstFuncPtr m.kIs64Bit entry.opcode

/-- The entries of a block hold the program: the first of them at the key of the block, and all of
them at their own addresses. -/
structure CopiedBlock (key : BitVec 64) (entries : List MipsCacheEntry) : Prop where
  first : ∀ entry rest, entries = entry :: rest → Copies m p key entry
  own : ∀ entry ∈ entries, inKseg (entryPc entry) → Copies m p (ksegPhysical (entryPc entry)) entry

/-- All blocks hold the program. -/
def BlocksCopied (c : MipsCache) : Prop := ∀ e ∈ c.cache.values, CopiedBlock m p e.1 e.2.entries

end Copies

/-- What was decoded while the program was in memory holds it. -/
lemma Present.copied {d : δ} {pc : BitVec 64} {entries : List MipsCacheEntry}
    (h : Present m d pc entries) (hheld : Held m p d) :
    CopiedBlock m p (ksegPhysical pc) entries := by
  have hown : ∀ entry ∈ entries, inKseg (entryPc entry) →
      Copies m p (ksegPhysical (entryPc entry)) entry := by
    intro entry hmem hkseg hcode
    obtain ⟨hop, hfunc⟩ := h.decoded entry hmem hkseg
    exact ⟨hop.trans (hheld _ hcode), hfunc⟩
  refine ⟨fun entry rest hentries => ?_, hown⟩
  obtain ⟨head, tail, hhead, hkseg, hphys⟩ := h.head
  obtain ⟨rfl, rfl⟩ := List.cons.inj (hhead.symm.trans hentries)
  rw [← hphys]
  exact hown head (hentries ▸ List.mem_cons_self) hkseg

/-- The block that is entered holds the program, and so do the blocks behind it, when no other
block is left once the queue was worked off. -/
lemma Entered.copied (hm : m.IsN64) (hpure : m.bus.FetchPure) {block : MipsCacheBlock}
    {s t : MipsBase MipsTlbNormal δ} (hkseg : inKseg s.pc) (hheld : Held m p s.device)
    (hblocks : BlocksCopied m p (cleared m s).cache) (h : Entered m s block t) :
    CopiedBlock m p (ksegPhysical s.pc) block.entries ∧ BlocksCopied m p t.cache := by
  have hblock : CopiedBlock m p (ksegPhysical s.pc) block.entries := by
    cases h with
    | hit hmem ht => exact hblocks _ hmem
    | built hmiss hbuild hplace hkey ht =>
        obtain ⟨b', hplace', -, -, hentries⟩ := placeBlock_inKseg hkseg (buildBlock_start hbuild) _
        obtain rfl := Option.some.inj (hplace.symm.trans hplace')
        have hbuilt : BuiltFor m s.device s.pc _ := ⟨cleared m s, _, fun _ => rfl, hbuild⟩
        rw [hentries]
        exact (present_of_built hm hpure hkseg hbuilt rfl).copied hheld
  refine ⟨hblock, fun e he => ?_⟩
  rcases h.mem he with hold | ⟨rfl, -⟩
  · exact hblocks e hold
  · exact hblock

lemma cleared_cache_congr {s t : MipsBase MipsTlbNormal δ} (h : t.cache = s.cache) :
    (cleared m t).cache = (cleared m s).cache := by
  simp only [cleared, h]

lemma BlocksCopied.cleared {s : MipsBase MipsTlbNormal δ} (h : BlocksCopied m p s.cache) :
    BlocksCopied m p (cleared m s).cache := fun e he => h e (cleared_subset he)

lemma BlocksCopied.grows {c c' : MipsCache} (h : BlocksCopied m p c) (hgrows : c.Grows c') :
    BlocksCopied m p c' := by
  intro e he
  rw [hgrows.same.cache] at he
  exact h e he

/-! ## Boundaries -/

variable (m) in
/-- The processor is between two instructions of a run, or a round of the loop begins. -/
inductive Boundary (fuel : ℕ) (cycle : ℤ) (s : MipsBase MipsTlbNormal δ) :
    MipsBase MipsTlbNormal δ → Prop
  | called : Boundary fuel cycle s s
  | plainTest {n : ℕ} {t₀ t : MipsBase MipsTlbNormal δ}
      (hmode : m.config.useCachedInterpreter = false) (hbegin : beginRun m s = .ok ((), t₀))
      (hloop : LoopPoint (pure ()) (runInst m) cycle fuel t₀ n t) : Boundary fuel cycle s t
  | cachedTest {n : ℕ} {t₀ t : MipsBase MipsTlbNormal δ}
      (hmode : m.config.useCachedInterpreter = true) (hbegin : beginRun m s = .ok ((), t₀))
      (hloop : LoopPoint (poll m) (runCachedBlock m) cycle fuel t₀ n t) : Boundary fuel cycle s t
  | polled {n : ℕ} {t₀ t t₁ : MipsBase MipsTlbNormal δ}
      (hmode : m.config.useCachedInterpreter = true) (hbegin : beginRun m s = .ok ((), t₀))
      (hloop : LoopPoint (poll m) (runCachedBlock m) cycle fuel t₀ (n + 1) t)
      (hcycle : (t.cycleSpent : ℤ) < cycle) (hpoll : poll m t = .ok ((), t₁)) :
      Boundary fuel cycle s t₁
  | executed {rest : List MipsCacheEntry} {k n : ℕ} {u : MipsBase MipsTlbNormal δ}
      (h : RunPoint m fuel cycle s rest k n u) : Boundary fuel cycle s u

/-- The boundaries of a slice whose only round executes a block of two instructions. -/
lemma Boundary.of_pair {fuel : ℕ} {cycle : ℤ} {s t₀ t₁ t₂ u v w x : MipsBase MipsTlbNormal δ}
    {first second : MipsCacheEntry} (hmode : m.config.useCachedInterpreter = true)
    (hbegin : beginRun m s = .ok ((), t₀)) (hpoll : poll m t₀ = .ok ((), t₁))
    (henter : ∀ block t, enterBlock m t₁ = .ok (block, t) →
      block.entries = [first, second] ∧ t = t₂)
    (hfirst : runEntry m first t₂ = .ok ((), u)) (hsecond : runEntry m second u = .ok ((), v))
    (hround : runCachedBlock m t₁ = .ok ((), w)) (hspent : ¬ (w.cycleSpent : ℤ) < cycle)
    (h : Boundary m fuel cycle s x) : x ∈ [s, t₀, t₁, u, v, w] := by
  have htest : ∀ {n t}, LoopPoint (poll m) (runCachedBlock m) cycle fuel t₀ n t → t = t₀ ∨ t = w :=
    fun hloop => hloop.single hpoll hround hspent
  have hpolled : ∀ {n t t'}, LoopPoint (poll m) (runCachedBlock m) cycle fuel t₀ n t →
      (t.cycleSpent : ℤ) < cycle → poll m t = .ok ((), t') → t' = t₁ := by
    intro n t t' hloop hcycle hpoll'
    rcases htest hloop with rfl | rfl
    · exact Prog.state_eq (hpoll'.symm.trans hpoll)
    · exact absurd hcycle hspent
  cases h with
  | called => simp
  | plainTest hplain _ _ => exact absurd (hmode.symm.trans hplain) (by simp)
  | cachedTest _ hbegin' hloop =>
      obtain rfl := Prog.state_eq (hbegin'.symm.trans hbegin)
      rcases htest hloop with rfl | rfl <;> simp
  | polled _ hbegin' hloop hcycle hpoll' =>
      obtain rfl := Prog.state_eq (hbegin'.symm.trans hbegin)
      obtain rfl := hpolled hloop hcycle hpoll'
      simp
  | executed hpoint =>
      cases hpoint with
      | plain hplain _ _ _ _ _ => exact absurd (hmode.symm.trans hplain) (by simp)
      | cached _ hbegin' hloop hcycle hpoll' _ henter' hpoint =>
          obtain rfl := Prog.state_eq (hbegin'.symm.trans hbegin)
          obtain rfl := hpolled hloop hcycle hpoll'
          obtain ⟨hentries, rfl⟩ := henter _ _ henter'
          rw [hentries] at hpoint
          rcases hpoint.pair hfirst hsecond with ⟨-, rfl⟩ | ⟨-, rfl⟩ <;> simp

/-- The boundaries of a slice that stops when its first block is to be entered. -/
lemma Boundary.of_stuck {fuel : ℕ} {cycle : ℤ} {s t₀ t₁ x : MipsBase MipsTlbNormal δ} {e : Stop}
    (hmode : m.config.useCachedInterpreter = true) (hbegin : beginRun m s = .ok ((), t₀))
    (hpoll : poll m t₀ = .ok ((), t₁)) (henter : enterBlock m t₁ = .error e)
    (h : Boundary m fuel cycle s x) : x ∈ [s, t₀, t₁] := by
  have hround : runCachedBlock m t₁ = .error e := by
    rw [runCachedBlock_eq, Prog.bind_run, henter]
    rfl
  have htest : ∀ {n t}, LoopPoint (poll m) (runCachedBlock m) cycle fuel t₀ n t → t = t₀ := by
    intro n t hloop
    induction hloop with
    | start => rfl
    | next hpoint hcycle hbefore hhalt hstep ih =>
        obtain rfl := ih
        obtain rfl := Prog.state_eq (hbefore.symm.trans hpoll)
        exact absurd (hstep.symm.trans hround) Prog.ok_ne_error
  cases h with
  | called => simp
  | plainTest hplain _ _ => exact absurd (hmode.symm.trans hplain) (by simp)
  | cachedTest _ hbegin' hloop =>
      obtain rfl := Prog.state_eq (hbegin'.symm.trans hbegin)
      obtain rfl := htest hloop
      simp
  | polled _ hbegin' hloop hcycle hpoll' =>
      obtain rfl := Prog.state_eq (hbegin'.symm.trans hbegin)
      obtain rfl := htest hloop
      obtain rfl := Prog.state_eq (hpoll'.symm.trans hpoll)
      simp
  | executed hpoint =>
      cases hpoint with
      | plain hplain _ _ _ _ _ => exact absurd (hmode.symm.trans hplain) (by simp)
      | cached _ hbegin' hloop hcycle hpoll' _ henter' hpoint =>
          obtain rfl := Prog.state_eq (hbegin'.symm.trans hbegin)
          obtain rfl := htest hloop
          obtain rfl := Prog.state_eq (hpoll'.symm.trans hpoll)
          exact absurd (henter'.symm.trans henter) Prog.ok_ne_error

variable (m p) in
/-- The run stays in the program, and leaves it in memory. -/
def RunsIn (fuel : ℕ) (cycle : ℤ) (s : MipsBase MipsTlbNormal δ) : Prop :=
  ∀ u, Boundary m fuel cycle s u → InProgram m p u

variable (m p) in
/-- What holds between two rounds: a pending branch is the one before the program counter, and the
cached interpreter finds no other block than one of the program. -/
structure Steady (s : MipsBase MipsTlbNormal δ) : Prop where
  follows : Follows p s
  orderly : s.cache.Orderly
  copied : m.config.useCachedInterpreter = true → BlocksCopied m p (cleared m s).cache

/-! ## Blocks -/

variable (m p) in
/-- A block of the program is entered. -/
structure InBlock (entries : List MipsCacheEntry) (s : MipsBase MipsTlbNormal δ) : Prop where
  program : InProgram m p s
  follows : Follows p s
  block : CopiedBlock m p (ksegPhysical s.pc) entries
  blocks : BlocksCopied m p s.cache

section Blocks

variable {entries rest : List MipsCacheEntry} {entry : MipsCacheEntry} {k n : ℕ}
  {s t u : MipsBase MipsTlbNormal δ} {e : Stop}

/-- The instruction of an entry at its own address. -/
lemma CopiedBlock.at_pc {key : BitVec 64} (h : CopiedBlock m p key entries)
    (hmem : entry ∈ entries) (hpc : u.pc = entry.address.setWidth 64) (hat : p.At u.pc) :
    entry.opcode = p.instAt u.pc ∧ entry.func = getInstFuncPtr m.kIs64Bit entry.opcode := by
  have hentry : entryPc entry = u.pc := hpc.symm
  have hown := h.own entry hmem (hentry ▸ hat.1)
  rw [hentry] at hown
  exact hown hat.2

/-- A pending branch is the one before the program counter at every boundary of a block. -/
lemma BlockPoint.steady (hm : m.IsN64) (hblock : InBlock m p entries s)
    (hin : ∀ k rest u, BlockPoint m entries s k rest u → InProgram m p u)
    (h : BlockPoint m entries s k rest u) :
    Follows p u ∧ s.cache.Grows u.cache ∧ ∀ entry ∈ rest, entry ∈ entries := by
  induction h with
  | first hentries hrun =>
      obtain ⟨hop, hfunc⟩ := hblock.block.first _ _ hentries hblock.program.at_.2
      refine ⟨runEntry_follows hm hblock.program.at_ hop hfunc hblock.follows hrun,
        runEntry_grows hrun, fun e he => ?_⟩
      rw [hentries]
      exact List.mem_cons_of_mem _ he
  | next hpoint hpc hrun ih =>
      obtain ⟨hfollows, hgrows, hsub⟩ := ih
      have hat := (hin _ _ _ hpoint).at_
      obtain ⟨hop, hfunc⟩ := hblock.block.at_pc (hsub _ List.mem_cons_self) hpc hat
      exact ⟨runEntry_follows hm hat hop hfunc hfollows hrun, hgrows.trans (runEntry_grows hrun),
        fun e he => hsub e (List.mem_cons_of_mem _ he)⟩

/-- A block ends with a pending branch before the program counter. -/
lemma runBlock_follows (hm : m.IsN64) (hblock : InBlock m p entries s)
    (hin : ∀ k rest u, BlockPoint m entries s k rest u → InProgram m p u)
    (h : runBlock m entries s = .ok (n, t)) : Follows p t ∧ s.cache.Grows t.cache := by
  cases entries with
  | nil =>
      obtain ⟨-, rfl⟩ := Prog.ok_inj h
      exact ⟨hblock.follows, .refl _⟩
  | cons entry rest =>
      obtain ⟨rest', hpoint⟩ := runBlock_point h
      obtain ⟨hfollows, hgrows, -⟩ := hpoint.steady hm hblock hin
      exact ⟨hfollows, hgrows⟩

/-- No instruction of a block ends in the `PANIC`. -/
lemma runBlock_notOnBd (hm : m.IsN64) (hblock : InBlock m p entries s)
    (hin : ∀ k rest u, BlockPoint m entries s k rest u → InProgram m p u)
    (h : runBlock m entries s = .error e) : NotOnBd e := by
  rcases runBlock_stop h with ⟨entry, rest, hentries, hrun⟩ | ⟨k, entry, rest, v, hpoint, hpc, hrun⟩
  · obtain ⟨hop, hfunc⟩ := hblock.block.first _ _ hentries hblock.program.at_.2
    exact runEntry_notOnBd hm hblock.program.at_ hop hfunc hrun
  · have hat := (hin _ _ _ hpoint).at_
    obtain ⟨-, -, hsub⟩ := hpoint.steady hm hblock hin
    obtain ⟨hop, hfunc⟩ := hblock.block.at_pc (hsub _ List.mem_cons_self) hpc hat
    exact runEntry_notOnBd hm hat hop hfunc hrun

/-- The block at the program counter is one of the program. -/
lemma enterBlock_inBlock (hm : m.IsN64) (hpure : m.bus.FetchPure)
    (hmode : m.config.useCachedInterpreter = true) {block : MipsCacheBlock}
    (hprogram : InProgram m p s) (hsteady : Steady m p s)
    (h : enterBlock m s = .ok (block, t)) : InBlock m p block.entries t := by
  have hown : (cleared m s).cache.PointersOwn := by
    simp only [cleared]
    split
    · exact (hsteady.orderly.executeCacheClear m.ord).own
    · exact hsteady.orderly.own
  have hentered := enterBlock_own hm hpure hprogram.at_.1 hown h
  obtain ⟨hpc, hdevice⟩ := hentered.same hm hpure
  obtain ⟨hblock, hblocks⟩ :=
    hentered.copied hm hpure hprogram.at_.1 hprogram.held (hsteady.copied hmode)
  have htrack := (onTrack_enterBlock hm hpure).keeps s block t
    ⟨hsteady.follows, hprogram.held⟩ h
  refine ⟨⟨?_, htrack.held⟩, htrack.follows, ?_, hblocks⟩
  · rw [hpc]
    exact hprogram.at_
  · rw [hpc]
    exact hblock

end Blocks

/-! ## Rounds of the cached interpreter -/

section Round

variable {s t : MipsBase MipsTlbNormal δ} {e : Stop} (hm : m.IsN64) (hpure : m.bus.FetchPure)
  (hmode : m.config.useCachedInterpreter = true) (hprogram : InProgram m p s)
  (hsteady : Steady m p s)
  (hin : ∀ {block u}, enterBlock m s = .ok (block, u) →
    ∀ k rest v, BlockPoint m block.entries u k rest v → InProgram m p v)

include hm hpure hmode hprogram hsteady hin

/-- A round whose boundaries are in the program leaves the processor steady. -/
lemma runCachedBlock_steady (h : runCachedBlock m s = .ok ((), t)) : Steady m p t := by
  have horderly := orderly_cacheKept.runCachedBlock _ _ _ h hsteady.orderly
  rw [runCachedBlock_eq] at h
  obtain ⟨block, u, henter, hrest⟩ := Prog.bind_ok.mp h
  obtain ⟨executed, v, hblock, hcount⟩ := Prog.bind_ok.mp hrest
  have hinBlock := enterBlock_inBlock hm hpure hmode hprogram hsteady henter
  obtain ⟨hfollows, hgrows⟩ := runBlock_follows hm hinBlock (hin henter) hblock
  obtain rfl := Prog.state_eq hcount
  exact ⟨hfollows.of_same rfl rfl, horderly, fun _ => (hinBlock.blocks.grows hgrows).cleared⟩

/-- It does not end in the `PANIC`. -/
lemma runCachedBlock_notOnBd (h : runCachedBlock m s = .error e) : NotOnBd e := by
  rw [runCachedBlock_eq] at h
  obtain henter | ⟨block, u, henter, hrest⟩ := Prog.bind_error.mp h
  · exact (onTrack_enterBlock hm hpure).stops s e ⟨hsteady.follows, hprogram.held⟩ henter
  have hinBlock := enterBlock_inBlock hm hpure hmode hprogram hsteady henter
  obtain hblock | ⟨executed, v, -, hcount⟩ := Prog.bind_error.mp hrest
  · exact runBlock_notOnBd hm hinBlock (hin henter) hblock
  · exact absurd hcount Prog.ok_ne_error

end Round

/-! ## Slices -/

/-- A poll leaves the processor steady. -/
lemma poll_steady (hm : m.IsN64) (hpure : m.bus.FetchPure) {s t : MipsBase MipsTlbNormal δ}
    (hprogram : InProgram m p s) (hsteady : Steady m p s) (h : poll m s = .ok ((), t)) :
    Steady m p t := by
  have htrack := (onTrack_poll hm hpure).keeps s () t ⟨hsteady.follows, hprogram.held⟩ h
  refine ⟨htrack.follows, CacheKept.poll _ _ _ h hsteady.orderly, fun hmode => ?_⟩
  rw [cleared_cache_congr (poll_cache h)]
  exact hsteady.copied hmode

section Slice

variable {fuel n : ℕ} {cycle : ℤ} {s t₀ t t₁ u : MipsBase MipsTlbNormal δ} {e : Stop}

/-- In a round of the cached interpreter, the boundaries of the block are those of the run. -/
lemma RunsIn.block (hin : RunsIn m p fuel cycle s) (hmode : m.config.useCachedInterpreter = true)
    (hbegin : beginRun m s = .ok ((), t₀))
    (hloop : LoopPoint (poll m) (runCachedBlock m) cycle fuel t₀ (n + 1) t)
    (hcycle : (t.cycleSpent : ℤ) < cycle) (hpoll : poll m t = .ok ((), t₁))
    (hhalt : t₁.halt = false) {block : MipsCacheBlock} {t₂ : MipsBase MipsTlbNormal δ}
    (henter : enterBlock m t₁ = .ok (block, t₂)) (k : ℕ) (rest : List MipsCacheEntry)
    (u : MipsBase MipsTlbNormal δ) (hpoint : BlockPoint m block.entries t₂ k rest u) :
    InProgram m p u :=
  hin u (.executed (.cached hmode hbegin hloop hcycle hpoll hhalt henter hpoint))

variable (hm : m.IsN64) (hpure : m.bus.FetchPure) (hin : RunsIn m p fuel cycle s)
  (hstart : Steady m p s)

include hm hpure hin hstart

/-- What is done before the loop leaves the processor steady. -/
lemma beginRun_steady (h : beginRun m s = .ok ((), t₀)) : Steady m p t₀ := by
  have htrack := (onTrack_beginRun hm hpure).keeps s () t₀
    ⟨hstart.follows, (hin s .called).held⟩ h
  refine ⟨htrack.follows, CacheKept.beginRun h hstart.orderly, fun hmode => ?_⟩
  rw [beginRun, if_pos hmode] at h
  rw [cleared_cache_congr (s := s) (congrArg MipsBase.cache (Prog.state_eq h)).symm]
  exact hstart.copied hmode

/-- Every test of the plain interpreter finds the processor steady. -/
lemma plainTest_steady (hmode : m.config.useCachedInterpreter = false)
    (hbegin : beginRun m s = .ok ((), t₀))
    (hloop : LoopPoint (pure ()) (runInst m) cycle fuel t₀ n t) : Steady m p t := by
  have hplain : ∀ {u : MipsBase MipsTlbNormal δ}, m.config.useCachedInterpreter = true →
      BlocksCopied m p (cleared m u).cache := fun h => absurd (hmode.symm.trans h) (by simp)
  induction hloop with
  | start => exact beginRun_steady hm hpure hin hstart hbegin
  | next hpoint hcycle hbefore hhalt hstep ih =>
      obtain ⟨-, rfl⟩ := Prog.ok_inj hbefore
      exact ⟨runInst_follows hm hpure (hin _ (.plainTest hmode hbegin hpoint)) ih.follows hstep,
        orderly_cacheKept.runInst _ _ _ hstep ih.orderly, hplain⟩

/-- So does every test of the cached interpreter. -/
lemma cachedTest_steady (hmode : m.config.useCachedInterpreter = true)
    (hbegin : beginRun m s = .ok ((), t₀))
    (hloop : LoopPoint (poll m) (runCachedBlock m) cycle fuel t₀ n t) : Steady m p t := by
  induction hloop with
  | start => exact beginRun_steady hm hpure hin hstart hbegin
  | next hpoint hcycle hbefore hhalt hstep ih =>
      have hpolled := poll_steady hm hpure (hin _ (.cachedTest hmode hbegin hpoint)) ih hbefore
      have hprogram := hin _ (.polled hmode hbegin hpoint hcycle hbefore)
      exact runCachedBlock_steady hm hpure hmode hprogram hpolled
        (hin.block hmode hbegin hpoint hcycle hbefore hhalt) hstep

/-- Between two instructions, a pending branch is the one before the program counter. -/
lemma Boundary.follows (h : Boundary m fuel cycle s u) : Follows p u := by
  cases h with
  | called => exact hstart.follows
  | plainTest hmode hbegin hloop =>
      exact (plainTest_steady hm hpure hin hstart hmode hbegin hloop).follows
  | cachedTest hmode hbegin hloop =>
      exact (cachedTest_steady hm hpure hin hstart hmode hbegin hloop).follows
  | polled hmode hbegin hloop hcycle hpoll =>
      have hsteady := cachedTest_steady hm hpure hin hstart hmode hbegin hloop
      exact (poll_steady hm hpure (hin _ (.cachedTest hmode hbegin hloop)) hsteady hpoll).follows
  | executed hpoint =>
      cases hpoint with
      | plain hmode hbegin hloop hcycle hhalt hrun =>
          have hsteady := plainTest_steady hm hpure hin hstart hmode hbegin hloop
          exact runInst_follows hm hpure (hin _ (.plainTest hmode hbegin hloop)) hsteady.follows hrun
      | cached hmode hbegin hloop hcycle hpoll hhalt henter hpoint =>
          have hsteady := cachedTest_steady hm hpure hin hstart hmode hbegin hloop
          have hpolled := poll_steady hm hpure (hin _ (.cachedTest hmode hbegin hloop)) hsteady hpoll
          have hinBlock := enterBlock_inBlock hm hpure hmode
            (hin _ (.polled hmode hbegin hloop hcycle hpoll)) hpolled henter
          exact (hpoint.steady hm hinBlock
            (hin.block hmode hbegin hloop hcycle hpoll hhalt henter)).1

/-- A slice leaves the processor steady. -/
lemma run_steady {spent : ℤ} (h : run m fuel cycle s = .ok (spent, t)) : Steady m p t := by
  obtain ⟨t₀, hbegin⟩ := run_begun h
  rw [run_begin hbegin] at h
  cases hmode : m.config.useCachedInterpreter with
  | true =>
      rw [hmode, if_pos rfl] at h
      obtain ⟨k, u, hloop, rfl | ⟨v, cycles, hcycle, hpoll, rfl⟩⟩ := LoopPoint.start.ends h
      · exact cachedTest_steady hm hpure hin hstart hmode hbegin hloop
      · have hsteady := cachedTest_steady hm hpure hin hstart hmode hbegin hloop
        have hpolled := poll_steady hm hpure (hin _ (.cachedTest hmode hbegin hloop)) hsteady hpoll
        exact ⟨hpolled.follows, hpolled.orderly, hpolled.copied⟩
  | false =>
      rw [hmode, if_neg (by simp)] at h
      obtain ⟨k, u, hloop, rfl | ⟨v, cycles, hcycle, hbefore, rfl⟩⟩ := LoopPoint.start.ends h
      · exact plainTest_steady hm hpure hin hstart hmode hbegin hloop
      · obtain ⟨-, rfl⟩ := Prog.ok_inj hbefore
        have hsteady := plainTest_steady hm hpure hin hstart hmode hbegin hloop
        exact ⟨hsteady.follows, hsteady.orderly, hsteady.copied⟩

/-- A slice does not end in the `PANIC`. -/
lemma run_notOnBd (h : run m fuel cycle s = .error e) : NotOnBd e := by
  have hfuel : NotOnBd .outOfFuel := by
    rw [NotOnBd]
    decide
  cases hbegin : beginRun m s with
  | error e' =>
      obtain rfl := Except.error.inj (h.symm.trans (run_begin_error hbegin))
      exact (onTrack_beginRun hm hpure).stops s e ⟨hstart.follows, (hin s .called).held⟩ hbegin
  | ok first =>
      obtain ⟨⟨⟩, t₀⟩ := first
      rw [run_begin hbegin] at h
      cases hmode : m.config.useCachedInterpreter with
      | true =>
          rw [hmode, if_pos rfl] at h
          obtain rfl | ⟨k, u, hloop, hcycle, hstop⟩ := LoopPoint.start.stops h
          · exact hfuel
          have hsteady := cachedTest_steady hm hpure hin hstart hmode hbegin hloop
          have htest := hin _ (.cachedTest hmode hbegin hloop)
          rcases hstop with hpoll | ⟨v, hpoll, hhalt, hround⟩
          · exact (onTrack_poll hm hpure).stops u e ⟨hsteady.follows, htest.held⟩ hpoll
          have hpolled := poll_steady hm hpure htest hsteady hpoll
          have hprogram := hin _ (.polled hmode hbegin hloop hcycle hpoll)
          exact runCachedBlock_notOnBd hm hpure hmode hprogram hpolled
            (hin.block hmode hbegin hloop hcycle hpoll hhalt) hround
      | false =>
          rw [hmode, if_neg (by simp)] at h
          obtain rfl | ⟨k, u, hloop, hcycle, hstop⟩ := LoopPoint.start.stops h
          · exact hfuel
          have htest := hin _ (.plainTest hmode hbegin hloop)
          rcases hstop with hbefore | ⟨v, hbefore, -, hround⟩
          · exact absurd hbefore Prog.ok_ne_error
          obtain ⟨-, rfl⟩ := Prog.ok_inj hbefore
          exact runInst_notOnBd hm hpure htest hround

end Slice

/-! ## Runs cut into slices -/

section Runs

variable (m p)

/-- A run can be started: no branch is pending, and the cached interpreter finds no other block
than one of the program.  This is so when no block is left, or when all are to be removed. -/
structure StartsAt (s : MipsBase MipsTlbNormal δ) : Prop where
  reachable : Reachable m s
  none : NonePending s
  copied : m.config.useCachedInterpreter = true → BlocksCopied m p (cleared m s).cache

/-- Where a run of the program can be between two calls of `Run`. -/
inductive ProgramRun : MipsBase MipsTlbNormal δ → Prop
  | setPc {pc : BitVec 64} {r : Option ℤ} {s t : MipsBase MipsTlbNormal δ} (hstart : StartsAt m p s)
      (hcall : perform m (.setPc pc) s = .ok (r, t)) : ProgramRun t
  | slice {fuel : ℕ} {cycle : ℤ} {r : Option ℤ} {s t : MipsBase MipsTlbNormal δ}
      (h : ProgramRun s) (hin : RunsIn m p fuel cycle s)
      (hcall : perform m (.run fuel cycle) s = .ok (r, t)) : ProgramRun t
  | between {call : MipsCall δ} {r : Option ℤ} {s t : MipsBase MipsTlbNormal δ}
      (h : ProgramRun s) (hleaves : call.leavesControl = true)
      (hcall : perform m call s = .ok (r, t)) : ProgramRun t

end Runs

/-- With all blocks to be removed, none is found. -/
lemma blocksCopied_queueCacheClear (s : MipsBase MipsTlbNormal δ) :
    BlocksCopied m p (cleared m { s with cache := s.cache.queueCacheClear }).cache := by
  intro e he
  simp only [cleared, MipsCache.queueCacheClear, MipsCache.executeCacheClear, if_true] at he
  exact absurd he (by simp)

/-- A call between two slices leaves the processor steady. -/
lemma perform_steady {call : MipsCall δ} {r : Option ℤ} {s t : MipsBase MipsTlbNormal δ}
    (hleaves : call.leavesControl = true) (hsteady : Steady m p s)
    (h : perform m call s = .ok (r, t)) : Steady m p t := by
  have horderly := orderly_cacheKept.perform _ _ _ _ h hsteady.orderly
  cases call with
  | setPc pc | setPcDuringInst pc | reset | run fuel cycle =>
      exact absurd hleaves (by simp [MipsCall.leavesControl])
  | queueCacheClear =>
      obtain rfl := Prog.state_eq h
      exact ⟨hsteady.follows, horderly, fun _ => blocksCopied_queueCacheClear _⟩
  | setGpr idx value =>
      obtain ⟨-, gpr, -, rfl⟩ := perform_setGpr h
      exact ⟨hsteady.follows, horderly, hsteady.copied⟩
  | setLlbit llbit | setHalt halt | clearCompareInterrupt | inputs f =>
      obtain rfl := Prog.state_eq h
      exact ⟨hsteady.follows, horderly, hsteady.copied⟩

/-- Between its slices a run is steady. -/
lemma ProgramRun.steady (hm : m.IsN64) (hpure : m.bus.FetchPure) {s : MipsBase MipsTlbNormal δ}
    (h : ProgramRun m p s) : Steady m p s := by
  induction h with
  | setPc hstart hcall =>
      rw [← Prog.state_eq hcall]
      exact ⟨.of_none hstart.none, hstart.reachable.orderly, hstart.copied⟩
  | slice h hin hcall ih =>
      obtain ⟨spent, t, hrun, hrest⟩ := Prog.bind_ok.mp hcall
      rw [← Prog.state_eq hrest]
      exact run_steady hm hpure hin ih hrun
  | between h hleaves hcall ih => exact perform_steady hleaves ih hcall

/-! ## The list of branches -/

/-- Every instruction whose handler can make a jump pending is listed as one with a delay slot. -/
lemma doesInstHaveDelaySlot_of_pending (hm : m.IsN64) {opcode : BitVec 32}
    {u t : MipsBase MipsTlbNormal δ} (hnone : NonePending u)
    (h : callInst m opcode (getInstFuncPtr m.kIs64Bit opcode) u = .ok ((), t))
    (hflag : t.hasBranchDelay = true) : doesInstHaveDelaySlot opcode = true :=
  doesInstHaveDelaySlot_of_func opcode (callInst_slot hm hnone h hflag)

/-- An instruction with a delay slot ends a block. -/
lemma isInstBranch_of_doesInstHaveDelaySlot {opcode : BitVec 32}
    (h : doesInstHaveDelaySlot opcode = true) : isInstBranch opcode = true :=
  MipsInstId.isBranch_of_hasDelaySlot _ h

/-- The instruction before the program counter of a boundary has a delay slot, if a branch is
pending. -/
lemma Boundary.branch (hm : m.IsN64) (hpure : m.bus.FetchPure) {fuel : ℕ} {cycle : ℤ}
    {s u : MipsBase MipsTlbNormal δ} (hin : RunsIn m p fuel cycle s) (hstart : Steady m p s)
    (h : Boundary m fuel cycle s u) (hflag : u.hasBranchDelay = true) :
    inKseg (u.pc - 4) = true ∧ doesInstHaveDelaySlot (wordAt m (u.pc - 4) u) = true := by
  obtain ⟨hat, hslot⟩ := h.follows hm hpure hin hstart hflag
  rw [(hin u h).held.wordAt hat]
  exact ⟨hat.1, hslot⟩

/-- **No exception gives up in a delay slot** in a run of a program that is started with no branch
pending: between two instructions a pending branch is the one before the program counter.  What
makes a jump pending is listed as having a delay slot, and what is so listed ends a block. -/
theorem nonBranchOnBd_unreachable (hm : m.IsN64) (hpure : m.bus.FetchPure) :
    (∀ opcode, ∀ u t : MipsBase MipsTlbNormal δ, NonePending u →
      callInst m opcode (getInstFuncPtr m.kIs64Bit opcode) u = .ok ((), t) →
      t.hasBranchDelay = true → doesInstHaveDelaySlot opcode = true) ∧
    (∀ opcode, doesInstHaveDelaySlot opcode = true → isInstBranch opcode = true) ∧
    ∀ (p : KsegProgram) (s : MipsBase MipsTlbNormal δ), ProgramRun m p s →
      ∀ fuel cycle, RunsIn m p fuel cycle s →
        (∀ u, Boundary m fuel cycle s u → u.hasBranchDelay = true →
          inKseg (u.pc - 4) = true ∧ doesInstHaveDelaySlot (wordAt m (u.pc - 4) u) = true) ∧
        run m fuel cycle s ≠ .error (.panic .nonBranchOnBd) := by
  refine ⟨fun opcode u t hnone h hflag => doesInstHaveDelaySlot_of_pending hm hnone h hflag,
    fun opcode h => isInstBranch_of_doesInstHaveDelaySlot h, fun p s h fuel cycle hin => ?_⟩
  have hsteady := h.steady hm hpure
  exact ⟨fun u hu hflag => hu.branch hm hpure hin hsteady hflag,
    fun herror => run_notOnBd hm hpure hin hsteady herror rfl⟩

/-! ## A jump at the end of a slice -/

/-- `J 0xC00` at the physical address `0x1000`. -/
def jumpMemory : WordMemory := [(0x1000, 0x08000C00)]

lemma jumpMemory_slot {a : BitVec 64} (h : doesInstHaveDelaySlot (jumpMemory.read a) = true) :
    a = 0x1000 := by
  by_contra hne
  have hread : jumpMemory.read a = 0 := by
    simp only [WordMemory.read, jumpMemory, List.lookup_cons, beq_false_of_ne hne]
    rfl
  rw [hread] at h
  exact absurd h (by decide)

/-- The jump and its delay slot. -/
def jumpProgram : KsegProgram where
  code a := a = 0x1000 ∨ a = 0x1004
  word := jumpMemory.read
  slot address hkseg _ hslot := by
    have hphys := congrArg BitVec.toNat (jumpMemory_slot hslot)
    rw [ksegPhysical_toNat] at hphys
    have hlow := (inKseg_iff address).mp hkseg
    have hadd : (address + 4).toNat = (address.toNat + 4) % 2 ^ 64 := BitVec.toNat_add _ _
    have hnext : ksegPhysical (address + 4) = 0x1004 := by
      apply BitVec.eq_of_toNat_eq
      rw [ksegPhysical_toNat, hadd]
      change address.toNat % 2 ^ 29 = 0x1000 at hphys
      change _ = 0x1004
      omega
    refine ⟨(inKseg_iff _).mpr ?_, .inr hnext, ?_⟩
    · rw [hadd]
      change address.toNat % 2 ^ 29 = 0x1000 at hphys
      omega
    · rw [hnext]
      decide

/-- The jump is the next instruction. -/
def jumpStart : MipsBase MipsTlbNormal WordMemory :=
  lastState (perform (n64Setup {}) (.setPc 0x80001000)) (built jumpMemory)

/-- The loop has begun. -/
def jumpBegun : MipsBase MipsTlbNormal WordMemory := lastState (beginRun (n64Setup {})) jumpStart

/-- The jump was executed. -/
def jumpDone : MipsBase MipsTlbNormal WordMemory := lastState (runInst (n64Setup {})) jumpBegun

lemma jump_inProgram {s : MipsBase MipsTlbNormal WordMemory} (hdevice : s.device = jumpMemory)
    (hpc : s.pc = 0x80001000 ∨ s.pc = 0x80001004) : InProgram (n64Setup {}) jumpProgram s where
  at_ := by
    rcases hpc with hpc | hpc
    · rw [hpc]
      exact ⟨by decide, .inl (by decide)⟩
    · rw [hpc]
      exact ⟨by decide, .inr (by decide)⟩
  held a _ := by
    rw [hdevice]
    rfl

/-- A loop whose first round uses up the cycles. -/
lemma LoopPoint.once {step : CpuM MipsTlbNormal δ Unit} {cycle : ℤ} {fuel n : ℕ}
    {s t u : MipsBase MipsTlbNormal δ} (hstep : step s = .ok ((), t))
    (hspent : ¬ (t.cycleSpent : ℤ) < cycle)
    (h : LoopPoint (pure ()) step cycle fuel s n u) : u = s ∨ u = t := by
  induction h with
  | start => exact .inl rfl
  | next hpoint hcycle hbefore hhalt hround ih =>
      obtain ⟨-, rfl⟩ := Prog.ok_inj hbefore
      rcases ih with rfl | rfl
      · exact .inr (Prog.state_eq (hround.symm.trans hstep))
      · exact absurd hcycle hspent

/-- The boundaries of a slice of one cycle. -/
lemma jump_runsIn : RunsIn (n64Setup {}) jumpProgram 10 1 jumpStart := by
  have hbegin : beginRun (n64Setup {}) jumpStart = .ok ((), jumpBegun) :=
    run_of_returned (by decide +kernel)
  have hstep : runInst (n64Setup {}) jumpBegun = .ok ((), jumpDone) :=
    run_of_returned (by decide +kernel)
  have hspent : ¬ (jumpDone.cycleSpent : ℤ) < 1 := by decide +kernel
  have hstart : InProgram (n64Setup {}) jumpProgram jumpStart :=
    jump_inProgram (by decide +kernel) (by decide +kernel)
  have hbegun : InProgram (n64Setup {}) jumpProgram jumpBegun :=
    jump_inProgram (by decide +kernel) (by decide +kernel)
  have hdone : InProgram (n64Setup {}) jumpProgram jumpDone :=
    jump_inProgram (by decide +kernel) (by decide +kernel)
  have hno : (n64Setup {}).config.useCachedInterpreter ≠ true := by decide
  have htest : ∀ {n t₀ t}, beginRun (n64Setup {}) jumpStart = .ok ((), t₀) →
      LoopPoint (pure ()) (runInst (n64Setup {})) 1 10 t₀ n t → t = jumpBegun ∨ t = jumpDone := by
    intro n t₀ t h hloop
    obtain rfl := Prog.state_eq (h.symm.trans hbegin)
    exact hloop.once hstep hspent
  intro u hu
  cases hu with
  | called => exact hstart
  | cachedTest hmode _ _ => exact absurd hmode hno
  | polled hmode _ _ _ _ => exact absurd hmode hno
  | plainTest hmode h hloop =>
      rcases htest h hloop with rfl | rfl
      · exact hbegun
      · exact hdone
  | executed hpoint =>
      cases hpoint with
      | cached hmode _ _ _ _ _ _ _ => exact absurd hmode hno
      | plain hmode h hloop hcycle hhalt hrun =>
          rcases htest h hloop with rfl | rfl
          · exact Prog.state_eq (hrun.symm.trans hstep) ▸ hdone
          · exact absurd hcycle hspent

lemma jumpStart_programRun : ProgramRun (n64Setup {}) jumpProgram jumpStart := by
  have hstart : StartsAt (n64Setup {}) jumpProgram (built jumpMemory) :=
    ⟨⟨jumpMemory, [], [], rfl⟩, rfl, fun hmode => absurd hmode (by decide)⟩
  have hcall : perform (n64Setup {}) (.setPc 0x80001000) (built jumpMemory) =
      .ok (none, jumpStart) := rfl
  exact .setPc hstart hcall

/-- In a slice that ends between the jump and its delay slot, the pending branch is the jump. -/
theorem jump_pending :
    jumpDone.hasBranchDelay = true ∧
      (∀ u, Boundary (n64Setup {}) 10 1 jumpStart u → u.hasBranchDelay = true →
        inKseg (u.pc - 4) = true ∧
          doesInstHaveDelaySlot (wordAt (n64Setup {}) (u.pc - 4) u) = true) ∧
      run (n64Setup {}) 10 1 jumpStart ≠ .error (.panic .nonBranchOnBd) :=
  ⟨by decide +kernel,
    (nonBranchOnBd_unreachable (n64Setup_isN64 _) wordBus_fetchPure).2.2 jumpProgram jumpStart
      jumpStart_programRun 10 1 jump_runsIn⟩

/-! ## A block that is left over -/

/-- `JR` through the first register and a jump in its delay slot, at the physical address `0x1000`,
and a jump behind the `NOP` at `0x1100`. -/
def staleMemory : WordMemory := [(0x1000, 0x00200008), (0x1004, 0x08000C00), (0x1104, 0x08000C00)]

/-- The instructions at the start address and at the end of the uncached segment, all of them
`NOP`. -/
def idleProgram : KsegProgram where
  code a := a = 0x1000 ∨ a = 0x1004 ∨ a = 0x1FFFFFFC
  word _ := 0
  slot _ _ _ hslot := absurd hslot (by decide)

/-- The jumps are executed, and memory is cleared behind them. -/
def staleCalls : List (MipsCall WordMemory) :=
  [.setGpr 1 0x80001100, .setPc 0x80001000, .run 10 4, .setGpr 1 0xBFFFFFFC, .inputs fun _ => []]

def staleUsed : MipsBase MipsTlbNormal WordMemory :=
  lastState (performAll cachedExceptionSetup staleCalls) (built staleMemory)

/-- The first instruction of the program is next, and the block of the jumps is still there. -/
def staleStart : MipsBase MipsTlbNormal WordMemory :=
  lastState (perform cachedExceptionSetup (.setPc 0x80001000)) staleUsed

def staleBegun : MipsBase MipsTlbNormal WordMemory :=
  lastState (beginRun cachedExceptionSetup) staleStart

def stalePolled : MipsBase MipsTlbNormal WordMemory :=
  lastState (poll cachedExceptionSetup) staleBegun

def staleEntered : MipsBase MipsTlbNormal WordMemory :=
  lastState (enterBlock cachedExceptionSetup) stalePolled

/-- The jumps. -/
def staleEntries : List MipsCacheEntry :=
  [⟨0x80001000, 0x00200008, .kJr⟩, ⟨0x80001004, 0x08000C00, .kJ⟩]

/-- The first jump was executed. -/
def staleJumped : MipsBase MipsTlbNormal WordMemory :=
  lastState (runEntry cachedExceptionSetup ⟨0x80001000, 0x00200008, .kJr⟩) staleEntered

/-- So was the one in its delay slot. -/
def staleSlotted : MipsBase MipsTlbNormal WordMemory :=
  lastState (runEntry cachedExceptionSetup ⟨0x80001004, 0x08000C00, .kJ⟩) staleJumped

/-- The round is over, with the second jump pending. -/
def staleNext : MipsBase MipsTlbNormal WordMemory :=
  lastState (runCachedBlock cachedExceptionSetup) stalePolled

def staleNextBegun : MipsBase MipsTlbNormal WordMemory :=
  lastState (beginRun cachedExceptionSetup) staleNext

def staleNextPolled : MipsBase MipsTlbNormal WordMemory :=
  lastState (poll cachedExceptionSetup) staleNextBegun

lemma stale_inProgram {s : MipsBase MipsTlbNormal WordMemory} (hdevice : s.device = [])
    (hpc : s.pc = 0x80001000 ∨ s.pc = 0x80001004 ∨ s.pc = 0xBFFFFFFC) :
    InProgram cachedExceptionSetup idleProgram s where
  at_ := by
    rcases hpc with hpc | hpc | hpc
    · rw [hpc]
      exact ⟨by decide, .inl (by decide)⟩
    · rw [hpc]
      exact ⟨by decide, .inr (.inl (by decide))⟩
    · rw [hpc]
      exact ⟨by decide, .inr (.inr (by decide))⟩
  held a _ := by
    rw [hdevice]
    rfl

/-- The block that is left over is entered. -/
lemma stale_entered {block : MipsCacheBlock} {t : MipsBase MipsTlbNormal WordMemory}
    (henter : enterBlock cachedExceptionSetup stalePolled = .ok (block, t)) :
    block.entries = staleEntries ∧ t = staleEntered := by
  have hreturned : (returnedValue (enterBlock cachedExceptionSetup) stalePolled).map
      MipsCacheBlock.entries = some staleEntries := by decide +kernel
  obtain ⟨block', hblock, hentries⟩ := Option.map_eq_some_iff.mp hreturned
  obtain ⟨hblock', ht⟩ := Prog.ok_inj (henter.symm.trans (run_of_returned hblock))
  rw [hblock']
  exact ⟨hentries, ht⟩

lemma stale_begin : beginRun cachedExceptionSetup staleStart = .ok ((), staleBegun) :=
  run_of_returned (by decide +kernel)

lemma stale_poll : poll cachedExceptionSetup staleBegun = .ok ((), stalePolled) :=
  run_of_returned (by decide +kernel)

lemma stale_round : runCachedBlock cachedExceptionSetup stalePolled = .ok ((), staleNext) :=
  run_of_returned (by decide +kernel)

/-- The boundaries of the slice in which the jumps are executed. -/
lemma stale_runsIn : RunsIn cachedExceptionSetup idleProgram 10 1 staleStart := by
  have hspent : ¬ (staleNext.cycleSpent : ℤ) < 1 := by decide +kernel
  have hjump : runEntry cachedExceptionSetup ⟨0x80001000, 0x00200008, .kJr⟩ staleEntered =
      .ok ((), staleJumped) := run_of_returned (by decide +kernel)
  have hslot : runEntry cachedExceptionSetup ⟨0x80001004, 0x08000C00, .kJ⟩ staleJumped =
      .ok ((), staleSlotted) := run_of_returned (by decide +kernel)
  have hprogram : ∀ u ∈ [staleStart, staleBegun, stalePolled, staleJumped, staleSlotted, staleNext],
      u.device = [] ∧ (u.pc = 0x80001000 ∨ u.pc = 0x80001004 ∨ u.pc = 0xBFFFFFFC) := by
    decide +kernel
  intro u hu
  have hmem := hu.of_pair rfl stale_begin stale_poll (fun _ _ henter => stale_entered henter) hjump
    hslot stale_round hspent
  exact stale_inProgram (hprogram u hmem).1 (hprogram u hmem).2

/-- The slice behind it does not come to an instruction. -/
lemma staleNext_runsIn : RunsIn cachedExceptionSetup idleProgram 10 1 staleNext := by
  have hbegin : beginRun cachedExceptionSetup staleNext = .ok ((), staleNextBegun) :=
    run_of_returned (by decide +kernel)
  have hpoll : poll cachedExceptionSetup staleNextBegun = .ok ((), staleNextPolled) :=
    run_of_returned (by decide +kernel)
  have henter : enterBlock cachedExceptionSetup staleNextPolled =
      .error (.panic .nonBranchOnBd) := run_of_stopped (by decide +kernel)
  have hprogram : ∀ u ∈ [staleNext, staleNextBegun, staleNextPolled],
      u.device = [] ∧ (u.pc = 0x80001000 ∨ u.pc = 0x80001004 ∨ u.pc = 0xBFFFFFFC) := by
    decide +kernel
  intro u hu
  have hmem := hu.of_stuck rfl hbegin hpoll henter
  exact stale_inProgram (hprogram u hmem).1 (hprogram u hmem).2

/-- With a block left over from older contents of memory, a program without a single branch is run
with a branch pending, and gives up when the next block is built. -/
theorem staleBlock_nonBranchOnBd :
    Reachable cachedExceptionSetup staleUsed ∧ NonePending staleUsed ∧
      perform cachedExceptionSetup (.setPc 0x80001000) staleUsed = .ok (none, staleStart) ∧
      RunsIn cachedExceptionSetup idleProgram 10 1 staleStart ∧
      (∃ u, Boundary cachedExceptionSetup 10 1 staleStart u ∧ u.hasBranchDelay = true ∧
        doesInstHaveDelaySlot (wordAt cachedExceptionSetup (u.pc - 4) u) = false) ∧
      perform cachedExceptionSetup (.run 10 1) staleStart = .ok (some 3, staleNext) ∧
      RunsIn cachedExceptionSetup idleProgram 10 1 staleNext ∧
      run cachedExceptionSetup 10 1 staleNext = .error (.panic .nonBranchOnBd) := by
  have hused : performAll cachedExceptionSetup staleCalls (built staleMemory) =
      .ok ([none, none, some 4, none, none], staleUsed) := run_of_returned (by decide +kernel)
  have htest : LoopPoint (poll cachedExceptionSetup) (runCachedBlock cachedExceptionSetup) 1 10
      staleBegun 9 staleNext :=
    LoopPoint.start.next (by decide +kernel) stale_poll (by decide +kernel) stale_round
  have hspent : staleNext.cycleSpent = 3 := by decide +kernel
  have hslice : run cachedExceptionSetup 10 1 staleStart = .ok (3, staleNext) := by
    rw [run_begin stale_begin, if_pos (by decide), htest.run_eq, runLoop,
      Prog.bind_of_ok (read_run _ _), hspent, if_neg (by decide)]
    rfl
  have hnone : staleUsed.hasBranchDelay = false := by decide +kernel
  have hpending : staleNext.hasBranchDelay = true ∧
      doesInstHaveDelaySlot (wordAt cachedExceptionSetup (staleNext.pc - 4) staleNext) = false := by
    decide +kernel
  refine ⟨⟨staleMemory, staleCalls, _, hused⟩, hnone, rfl, stale_runsIn,
    ⟨staleNext, .cachedTest rfl stale_begin htest, hpending⟩, Prog.bind_of_ok hslice, staleNext_runsIn,
    run_of_stopped (by decide +kernel)⟩

end MipsBase

end NgMips
