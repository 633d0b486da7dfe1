import NgMips.Proofs.Halt
import NgMips.Proofs.Simulation
import NgMips.Proofs.Translation
import Mathlib.Logic.Relation

/-!
# Code that modifies itself

A store leaves the block cache alone; an instruction cache operation on the line queues the
blocks that meet it.  What is queued goes before the next block is entered, so that from then
on every block that holds the word was decoded behind the store (`Settled`).

The block that holds the cache operation goes on with what it has decoded.  So a new word
takes effect when that block executes no old copy of it before control leaves it
(`BlockFresh`), and when the tests between blocks do what they are meant to do (`TestOk`):
pointers are live, only queued blocks contain queued addresses, and no block goes from one
unmapped segment into the other.
-/

namespace NgMips

namespace MipsBase

variable {δ : Type} {m : MipsSetup δ}

/-! ## Runs of the cached interpreter -/

/-- Where `RunCached` is: behind its halt test, or in a block, with the number of entries
executed and those left. -/
inductive Cursor (δ : Type) where
  | atTest (s : MipsBase MipsTlbNormal δ)
  | inBlock (executed : ℕ) (entries : List MipsCacheEntry) (s : MipsBase MipsTlbNormal δ)

namespace Cursor

/-- The state of the processor. -/
def state : Cursor δ → MipsBase MipsTlbNormal δ
  | atTest s => s
  | inBlock _ _ s => s

/-- The entries left in the block. -/
def entries : Cursor δ → List MipsCacheEntry
  | atTest _ => []
  | inBlock _ entries _ => entries

/-- A block is being executed. -/
def InBlock : Cursor δ → Prop
  | atTest _ => False
  | inBlock _ _ _ => True

/-- The entry is the one that is executed next. -/
def Executing (c : Cursor δ) (entry : MipsCacheEntry) : Prop :=
  ∃ k rest s, c = inBlock k (entry :: rest) s ∧ (k = 0 ∨ s.pc = entryPc entry)

end Cursor

/-- A step of `RunCached`.  Between two calls the program around the processor may do
anything but take blocks away or put them in. -/
inductive CachedStep (m : MipsSetup δ) : Cursor δ → Cursor δ → Prop
  | enter {s t : MipsBase MipsTlbNormal δ} {block : MipsCacheBlock}
      (henter : enterBlock m s = .ok (block, t)) :
      CachedStep m (.atTest s) (.inBlock 0 block.entries t)
  | entry {k : ℕ} {entry : MipsCacheEntry} {rest : List MipsCacheEntry}
      {s t : MipsBase MipsTlbNormal δ} (hpc : k = 0 ∨ s.pc = entryPc entry)
      (hrun : runEntry m entry s = .ok ((), t)) :
      CachedStep m (.inBlock k (entry :: rest) s) (.inBlock (k + 1) rest t)
  | leave {k : ℕ} {rest : List MipsCacheEntry} {s t : MipsBase MipsTlbNormal δ}
      (hk : k = 0 → rest = []) (hleft : LeavesBlock rest s)
      (hpoll : poll m (counted m k s) = .ok ((), t))
      (hhalt : t.halt = false) : CachedStep m (.inBlock k rest s) (.atTest t)
  | again {k : ℕ} {rest : List MipsCacheEntry} {s t u : MipsBase MipsTlbNormal δ}
      (hk : k = 0 → rest = []) (hleft : LeavesBlock rest s) (hcache : s.cache.Grows t.cache)
      (hpoll : poll m { t with cycleSpent := 0 } = .ok ((), u)) (hhalt : u.halt = false) :
      CachedStep m (.inBlock k rest s) (.atTest u)

/-- Steps from places that meet a condition. -/
def Runs (m : MipsSetup δ) (ok : Cursor δ → Prop) : Cursor δ → Cursor δ → Prop :=
  Relation.ReflTransGen fun c c' => ok c ∧ CachedStep m c c'

/-! ## What `run` does is a run of steps -/

lemma runEntries_runs {entries : List MipsCacheEntry} {s s' : MipsBase MipsTlbNormal δ}
    {n k : ℕ} (hk : k ≠ 0) (h : runEntries m entries s = .ok (n, s')) :
    ∃ rest, Runs m (fun _ => True) (.inBlock k entries s) (.inBlock (k + n) rest s') ∧
      LeavesBlock rest s' := by
  induction entries generalizing s n k with
  | nil =>
      obtain ⟨rfl, rfl⟩ := Prog.ok_inj h
      exact ⟨[], .refl, by simp [LeavesBlock]⟩
  | cons entry rest ih =>
      rw [runEntries, Prog.bind_of_ok (read_run _ _)] at h
      split at h
      · next hpc =>
          obtain ⟨⟨⟩, u, hentry, hrest⟩ := Prog.bind_ok.mp h
          obtain ⟨j, v, hmore, hend⟩ := Prog.bind_ok.mp hrest
          obtain ⟨rfl, rfl⟩ := Prog.ok_inj hend
          obtain ⟨rest', hruns, hleft⟩ := ih (Nat.succ_ne_zero k) hmore
          refine ⟨rest', .head ⟨trivial, .entry (.inr hpc) hentry⟩ ?_, hleft⟩
          rwa [Nat.succ_add] at hruns
      · next hpc =>
          obtain ⟨rfl, rfl⟩ := Prog.ok_inj h
          refine ⟨entry :: rest, .refl, ?_⟩
          intro e he
          obtain rfl := Option.some.inj he
          exact hpc

lemma runBlock_runs {entries : List MipsCacheEntry} {s s' : MipsBase MipsTlbNormal δ} {n : ℕ}
    (h : runBlock m entries s = .ok (n, s')) :
    ∃ rest, Runs m (fun _ => True) (.inBlock 0 entries s) (.inBlock n rest s') ∧
      LeavesBlock rest s' ∧ (n = 0 → rest = []) := by
  cases entries with
  | nil =>
      obtain ⟨rfl, rfl⟩ := Prog.ok_inj h
      exact ⟨[], .refl, by simp [LeavesBlock], fun _ => rfl⟩
  | cons entry rest =>
      obtain ⟨⟨⟩, u, hentry, hrest⟩ := Prog.bind_ok.mp h
      obtain ⟨j, v, hmore, hend⟩ := Prog.bind_ok.mp hrest
      obtain ⟨rfl, rfl⟩ := Prog.ok_inj hend
      obtain ⟨rest', hruns, hleft⟩ := runEntries_runs Nat.one_ne_zero hmore
      refine ⟨rest', .head ⟨trivial, .entry (.inl rfl) hentry⟩ ?_, hleft,
        fun h => absurd h (Nat.succ_ne_zero j)⟩
      rwa [Nat.add_comm 1] at hruns

/-- From one poll of the loop to the next. -/
lemma runCachedBlock_runs {s t t' : MipsBase MipsTlbNormal δ}
    (h : runCachedBlock m s = .ok ((), t)) (hpoll : poll m t = .ok ((), t'))
    (hhalt : t'.halt = false) : Runs m (fun _ => True) (.atTest s) (.atTest t') := by
  rw [runCachedBlock_eq] at h
  obtain ⟨block, u, henter, hrest⟩ := Prog.bind_ok.mp h
  obtain ⟨n, v, hblock, hcount⟩ := Prog.bind_ok.mp hrest
  obtain ⟨rest, hruns, hleft, hk⟩ := runBlock_runs hblock
  obtain rfl := Prog.state_eq hcount
  exact (Relation.ReflTransGen.head ⟨trivial, .enter henter⟩ hruns).tail
    ⟨trivial, .leave hk hleft hpoll hhalt⟩

lemma LoopPoint.runs {cycle : ℤ} {fuel n : ℕ} {s t : MipsBase MipsTlbNormal δ}
    (h : LoopPoint (poll m) (runCachedBlock m) cycle fuel s n t)
    {t' : MipsBase MipsTlbNormal δ} (hpoll : poll m t = .ok ((), t')) (hhalt : t'.halt = false) :
    ∃ s', poll m s = .ok ((), s') ∧ s'.halt = false ∧
      Runs m (fun _ => True) (.atTest s') (.atTest t') := by
  induction h generalizing t' with
  | start => exact ⟨t', hpoll, hhalt, .refl⟩
  | next _ hcycle hbefore hhalt₁ hstep ih =>
      obtain ⟨s', hpoll', hhalt', hruns⟩ := ih hbefore hhalt₁
      exact ⟨s', hpoll', hhalt', hruns.trans (runCachedBlock_runs hstep hpoll hhalt)⟩

/-- An instruction that `run` executes is executed in a run of steps from the first test. -/
theorem RunPoint.runs {fuel n k : ℕ} {cycle : ℤ} {s u : MipsBase MipsTlbNormal δ}
    {rest : List MipsCacheEntry} (hmode : m.config.useCachedInterpreter = true)
    (h : RunPoint m fuel cycle s rest k n u) :
    ∃ s', poll m { s with cycleSpent := 0 } = .ok ((), s') ∧ s'.halt = false ∧
      Runs m (fun _ => True) (.atTest s') (.inBlock k rest u) := by
  cases h with
  | plain hmode' => exact absurd (hmode.symm.trans hmode') (by simp)
  | cached _ hbegin hloop hcycle hpoll hhalt hblock hpoint =>
      rw [beginRun, if_pos hmode] at hbegin
      obtain rfl := Prog.state_eq hbegin
      obtain ⟨s', hpoll', hhalt', hruns⟩ := hloop.runs hpoll hhalt
      refine ⟨s', hpoll', hhalt', (hruns.tail ⟨trivial, .enter hblock⟩).trans ?_⟩
      clear hruns hloop
      induction hpoint with
      | first hentries hrun =>
          rw [hentries]
          exact .single ⟨trivial, .entry (.inl rfl) hrun⟩
      | next hpoint hpc hrun ih => exact ih.tail ⟨trivial, .entry (.inr hpc) hrun⟩

/-! ## The law -/

/-- The word of memory at the address is `w`. -/
def HoldsWord (m : MipsSetup δ) (a : BitVec 64) (w : BitVec 32) (c : Cursor δ) : Prop :=
  m.bus.word c.state.device (ksegPhysical a) = w

/-- The entry is a cache operation that invalidates the line of the address in the
instruction cache, through either of its unmapped addresses. -/
def InvalidatesLine (m : MipsSetup δ) (entry : MipsCacheEntry) (s : MipsBase MipsTlbNormal δ)
    (a : BitVec 64) : Prop :=
  entry.func = .kCache ∧ entry.opcode.getLsbD 16 = false ∧
    ∃ base t, readGpr64 m (rsField entry.opcode) s = .ok (base, t) ∧ ∃ v,
      lineStart (cacheAddress entry.opcode base) ≤ v ∧
      v < lineStart (cacheAddress entry.opcode base) + 32 ∧ inKseg v ∧
      ksegPhysical v = ksegPhysical a

/-- From here on the word at the address is `w` wherever it is executed, as long as it is the
word of memory. -/
def TakesEffect (m : MipsSetup δ) (ok : Cursor δ → Prop) (a : BitVec 64) (w : BitVec 32)
    (c : Cursor δ) : Prop :=
  ∀ c' entry, Runs m (fun d => ok d ∧ HoldsWord m a w d) c c' → HoldsWord m a w c' →
    c'.Executing entry → inKseg c'.state.pc → ksegPhysical c'.state.pc = ksegPhysical a →
      entry.opcode = w ∧ entry.func = getInstFuncPtr m.kIs64Bit w

/-- The program is in the unmapped segments. -/
def InSegments (c : Cursor δ) : Prop := inKseg c.state.pc

/-- The condition on a test between two blocks: the pointers into the map are live, only
queued blocks contain a queued address, and a block that has to be built ends in the unmapped
segment in which it starts. -/
structure TestOk (m : MipsSetup δ) (s : MipsBase MipsTlbNormal δ) : Prop where
  segment : inKseg s.pc
  live : (cleared m s).cache.LookupLive
  closed : s.cache.fullClearQueued = true ∨ s.cache.PendingClosed
  apart : ksegPhysical s.pc ∈ (cleared m s).cache.cache.keys ∨
    ∀ address ∈ lookAhead m s (kCacheBlockMaxLength - 1) (s.pc &&& 0xFFFFFFFF),
      inKseg address → isKseg0 address = isKseg0 (s.pc &&& 0xFFFFFFFF)

/-- The condition on a place of a run. -/
def CursorOk (m : MipsSetup δ) : Cursor δ → Prop
  | .atTest s => TestOk m s
  | .inBlock _ _ _ => True

/-! ## The addresses of a block -/

lemma nextWord (address : BitVec 64) (j : ℕ) :
    address + 4 + 4 * BitVec.ofNat 64 j = address + 4 * BitVec.ofNat 64 (j + 1) := by
  have hstep : (4 : BitVec 64) * BitVec.ofNat 64 1 = 4 := rfl
  rw [BitVec.ofNat_add, BitVec.mul_add, hstep, BitVec.add_assoc, BitVec.add_comm 4]

lemma fetchEntry_func {address : BitVec 64} {entry : MipsCacheEntry}
    {s t : MipsBase MipsTlbNormal δ} (h : fetchEntry m address s = .ok (entry, t)) :
    entry.func = getInstFuncPtr m.kIs64Bit entry.opcode := by
  obtain ⟨opcode, u, -, hend⟩ := Prog.bind_ok.mp h
  obtain ⟨rfl, -⟩ := Prog.ok_inj hend
  rfl

/-- The entries `OnNewBlock` collects are those of consecutive words. -/
lemma collectEntries_address (hm : m.IsN64) (hpure : m.bus.FetchPure) (n : ℕ)
    {address : BitVec 64} {entries : List MipsCacheEntry} {s t : MipsBase MipsTlbNormal δ}
    (h : collectEntries m n address s = .ok (entries, t)) :
    entries.length ≤ n + 1 ∧ ∀ i entry, entries[i]? = some entry →
      entry.address = (address + 4 * BitVec.ofNat 64 i).setWidth 32 ∧
        entry.func = getInstFuncPtr m.kIs64Bit entry.opcode := by
  induction n generalizing address entries s t with
  | zero =>
      obtain ⟨rfl, -⟩ := Prog.ok_inj h
      simp
  | succ n ih =>
      have hhead : ∀ {head u}, fetchEntry m address s = .ok (head, u) →
          head.address = (address + 4 * BitVec.ofNat 64 0).setWidth 32 ∧
            head.func = getInstFuncPtr m.kIs64Bit head.opcode := by
        intro head u hentry
        exact ⟨by simpa using (fetchEntry_ok hm hpure hentry).1, fetchEntry_func hentry⟩
      cases collectEntries_cases h with
      | ends hentry hbranch hdelay =>
          refine ⟨by simp, ?_⟩
          intro i entry hi
          rcases i with _ | i
          · obtain rfl := Option.some.inj hi
            exact hhead hentry
          · exact absurd hi (by simp)
      | slot hentry hbranch hdelay hslot =>
          refine ⟨by simp, ?_⟩
          intro i entry hi
          rcases i with _ | _ | i
          · obtain rfl := Option.some.inj hi
            exact hhead hentry
          · obtain rfl := Option.some.inj hi
            exact ⟨(fetchEntry_ok hm hpure hslot).1, fetchEntry_func hslot⟩
          · exact absurd hi (by simp)
      | next hentry hbranch hrest =>
          obtain ⟨hlength, hall⟩ := ih hrest
          refine ⟨by simpa using hlength, ?_⟩
          intro i entry hi
          cases i with
          | zero =>
              obtain rfl := Option.some.inj hi
              exact hhead hentry
          | succ j =>
              obtain ⟨haddress, hfunc⟩ := hall j entry hi
              rw [nextWord] at haddress
              exact ⟨haddress, hfunc⟩

/-- While the addresses are unmapped ones, what is read ahead is what `lookAhead` lists. -/
lemma mem_lookAhead (hpure : m.bus.FetchPure) (n : ℕ) {address : BitVec 64}
    {entries : List MipsCacheEntry} {s t : MipsBase MipsTlbNormal δ}
    (h : collectEntries m n address s = .ok (entries, t)) {i : ℕ} (hi : i < entries.length)
    (hkseg : ∀ j ≤ i, inKseg (address + 4 * BitVec.ofNat 64 j)) :
    address + 4 * BitVec.ofNat 64 i ∈ lookAhead m s n address := by
  induction n generalizing address entries i t with
  | zero =>
      obtain ⟨rfl, -⟩ := Prog.ok_inj h
      exact absurd hi (by simp)
  | succ n ih =>
      have hstart : inKseg address := by simpa using hkseg 0 (Nat.zero_le i)
      have hfirst : ∀ {entry u}, fetchEntry m address s = .ok (entry, u) →
          entry.opcode = wordAt m address s ∧ u = s := by
        intro entry u hentry
        rw [fetchEntry, Prog.bind_of_ok (fetch_inKseg hpure hstart s)] at hentry
        obtain ⟨rfl, rfl⟩ := Prog.ok_inj hentry
        refine ⟨?_, rfl⟩
        rw [wordAt]
        exact (congrArg (fun r => m.bus.word s.device r.address)
          (MipsTlbNormal.translateAddress_of_inKseg _ hstart)).symm
      rw [lookAhead]
      cases collectEntries_cases h with
      | ends hentry hbranch hdelay =>
          rw [← (hfirst hentry).1, if_pos hbranch, if_neg (by simp [hdelay])]
          rcases i with _ | i
          · simp
          · exact absurd hi (by simp)
      | slot hentry hbranch hdelay hslot =>
          rw [← (hfirst hentry).1, if_pos hbranch, if_pos hdelay]
          rcases i with _ | _ | i
          · simp
          · simp
          · exact absurd hi (by simp)
      | next hentry hbranch hrest =>
          obtain ⟨hop, hsame⟩ := hfirst hentry
          rw [hsame] at hrest
          rw [← hop, if_neg (by simp [hbranch])]
          cases i with
          | zero => simp
          | succ j =>
              rw [← nextWord]
              refine List.mem_cons_of_mem _ (ih hrest (by simpa using hi) fun k hk => ?_)
              rw [nextWord]
              exact hkseg (k + 1) (Nat.succ_le_succ hk)

/-! ## Blocks that can be invalidated -/

/-- What is true of a block in the map: it starts where it is stored, contains its unmapped
instructions, and holds their handlers. -/
structure SoundBlock (m : MipsSetup δ) (b : MipsCacheBlock) : Prop where
  head : ∃ entry rest, b.entries = entry :: rest ∧ inKseg (entryPc entry) ∧
    ksegPhysical (entryPc entry) = b.key
  covers : ∀ entry ∈ b.entries, inKseg (entryPc entry) →
    b.covers (ksegPhysical (entryPc entry)) = true
  func : ∀ entry ∈ b.entries, entry.func = getInstFuncPtr m.kIs64Bit entry.opcode

lemma toNat_add_words {x : BitVec 64} (hx : x.toNat < 2 ^ 32) {i : ℕ} (hi : i ≤ 64) :
    (x + 4 * BitVec.ofNat 64 i).toNat = x.toNat + 4 * i := by
  have hfour : BitVec.toNat (4 : BitVec 64) = 4 := rfl
  simp only [BitVec.toNat_add, BitVec.toNat_mul, BitVec.toNat_ofNat, hfour]
  omega

/-- The end of the range of a block with `n` entries. -/
lemma blockEnd_toNat {x : BitVec 64} {n : ℕ} (hn : n ≤ 64) (hx : x.toNat + 4 * n < 2 ^ 32) :
    (((ksegPhysical x + ((x + BitVec.ofNat 64 (n * 4)).setWidth 32 -
      x.setWidth 32).setWidth 64).setWidth 32).setWidth 64).toNat =
      (ksegPhysical x).toNat + 4 * n := by
  have hlen : (BitVec.ofNat 64 (n * 4)).toNat = n * 4 := by
    rw [BitVec.toNat_ofNat]
    omega
  have hsize : (((x + BitVec.ofNat 64 (n * 4)).setWidth 32 - x.setWidth 32).setWidth 64).toNat =
      4 * n := by
    simp only [BitVec.toNat_setWidth, BitVec.toNat_add, BitVec.toNat_sub, hlen]
    omega
  have hphys := ksegPhysical_toNat x
  rw [BitVec.toNat_setWidth, BitVec.toNat_setWidth, BitVec.toNat_add, hsize]
  omega

/-- The program counters of the entries of a block follow each other. -/
lemma entryPc_collected (hm : m.IsN64) (hpure : m.bus.FetchPure) {x : BitVec 64}
    (hx : x.toNat < 2 ^ 32) (hkseg : inKseg x) {n : ℕ} (hn : n < 64) {entries : List MipsCacheEntry}
    {s t : MipsBase MipsTlbNormal δ} (h : collectEntries m n x s = .ok (entries, t)) {i : ℕ}
    {entry : MipsCacheEntry} (hi : entries[i]? = some entry) :
    entryPc entry = x + 4 * BitVec.ofNat 64 i := by
  obtain ⟨hlength, haddress⟩ := collectEntries_address hm hpure _ h
  have hilt : i < entries.length := (List.getElem?_eq_some_iff.mp hi).1
  have hadd := toNat_add_words hx (show i ≤ 64 by omega)
  have hbounds := (inKseg_iff x).mp hkseg
  rw [entryPc, (haddress i entry hi).1]
  apply BitVec.eq_of_toNat_eq
  simp only [BitVec.toNat_setWidth, hadd]
  omega

/-- A block that was built within one unmapped segment contains its instructions. -/
lemma soundBlock_of_built (hm : m.IsN64) (hpure : m.bus.FetchPure) {pc : BitVec 64}
    (hkseg : inKseg pc) {s t : MipsBase MipsTlbNormal δ} {b b' : MipsCacheBlock}
    (hbuild : buildBlock m (pc &&& 0xFFFFFFFF) s = .ok (b, t)) {tlb : MipsTlbNormal}
    (hplace : MipsCache.placeBlock tlb b = some b')
    (hapart : ∀ address ∈ lookAhead m s (kCacheBlockMaxLength - 1) (pc &&& 0xFFFFFFFF),
      inKseg address → isKseg0 address = isKseg0 (pc &&& 0xFFFFFFFF)) : SoundBlock m b' := by
  obtain ⟨c, hplace', hkey, hend, hentries⟩ := placeBlock_inKseg hkseg (buildBlock_start hbuild) tlb
  obtain rfl : c = b' := Option.some.inj (hplace'.symm.trans hplace)
  obtain ⟨entries, v, hcollect, hrest⟩ := Prog.bind_ok.mp hbuild
  obtain ⟨rfl, -⟩ := Prog.ok_inj hrest
  obtain ⟨hlength, haddress⟩ := collectEntries_address hm hpure _ hcollect
  dsimp only at hend hentries
  obtain ⟨x, hx⟩ : ∃ x, x = pc &&& 0xFFFFFFFF := ⟨_, rfl⟩
  have hlow : SameLow x pc := hx ▸ .of_masked pc
  have hxlt : x.toNat < 2 ^ 32 := by
    rw [hx, mask_toNat]
    exact Nat.mod_lt _ (by decide)
  have hxkseg : inKseg x := hlow.inKseg ▸ hkseg
  have hxbounds := (inKseg_iff x).mp hxkseg
  have hmax : entries.length ≤ 64 := hlength
  rw [← hx] at hcollect haddress hapart
  have hpc : ∀ i entry, entries[i]? = some entry → entryPc entry = x + 4 * BitVec.ofNat 64 i :=
    fun i entry hi => entryPc_collected hm hpure hxlt hxkseg (by decide) hcollect hi
  refine ⟨?_, ?_, ?_⟩ <;> rw [hentries]
  · obtain ⟨entry, rest, hlist, -⟩ := collectEntries_head hm hpure hcollect
    have hentry := hpc 0 entry (by simp [hlist])
    have hzero : x + 4 * BitVec.ofNat 64 0 = x := by simp
    refine ⟨entry, rest, hlist, ?_, ?_⟩
    · rw [hentry, hzero]
      exact hxkseg
    · rw [hentry, hzero, hkey, hlow.ksegPhysical]
  · intro entry hmem hentry
    obtain ⟨i, hi⟩ := List.mem_iff_getElem?.mp hmem
    have hilt : i < entries.length := (List.getElem?_eq_some_iff.mp hi).1
    rw [hpc i entry hi] at hentry ⊢
    have hadd := toNat_add_words hxlt (hilt.le.trans hmax)
    have hylt : (x + 4 * BitVec.ofNat 64 i).toNat < 2 ^ 32 := by omega
    have hybounds := (inKseg_iff _).mp hentry
    have hall : ∀ j ≤ i, inKseg (x + 4 * BitVec.ofNat 64 j) := by
      intro j hj
      have haddj := toNat_add_words hxlt ((hj.trans hilt.le).trans hmax)
      exact (inKseg_iff _).mpr (by omega)
    have hseg := hapart _ (mem_lookAhead hpure _ hcollect hilt hall) hentry
    have hphys := ksegPhysical_same_segment hxlt hylt hxkseg hentry (by omega) hseg
    refine MipsCacheBlock.covers_iff.mpr ⟨?_, ?_⟩
    · rw [hkey, ← hlow.ksegPhysical, BitVec.le_def, hphys]
      omega
    · rw [BitVec.lt_def, hphys, hend, ← hlow.ksegPhysical, ← hx, hadd,
        blockEnd_toNat hmax (by omega)]
      omega
  · intro entry hmem
    obtain ⟨i, hi⟩ := List.mem_iff_getElem?.mp hmem
    exact (haddress i entry hi).2

/-! ## What every run keeps -/

/-- The map is well formed, the queue is noted and in order, and the blocks are sound. -/
structure SoundMap (m : MipsSetup δ) (c : MipsCache) : Prop where
  wellFormed : c.WellFormed
  sorted : c.Sorted
  noted : c.Noted
  sound : ∀ e ∈ c.cache.values, SoundBlock m e.2

lemma soundMap_reset : SoundMap m MipsCache.reset :=
  ⟨MipsCache.wellFormed_empty, .nil, by simp [MipsCache.Noted, MipsCache.reset],
    by simp [MipsCache.reset]⟩

lemma SoundMap.grows {c c' : MipsCache} (h : SoundMap m c) (hgrows : c.Grows c') :
    SoundMap m c' :=
  ⟨hgrows.same.wellFormed h.wellFormed, hgrows.sorted h.sorted, hgrows.noted h.noted,
    hgrows.same.cache ▸ h.sound⟩

lemma SoundMap.cleared {s : MipsBase MipsTlbNormal δ} (h : SoundMap m s.cache) :
    SoundMap m (cleared m s).cache := by
  refine ⟨?_, ?_, ?_, fun e he => h.sound e (cleared_subset he)⟩
  · simp only [MipsBase.cleared]
    split
    · exact MipsCache.wellFormed_executeCacheClear h.wellFormed m.ord
    · exact h.wellFormed
  · simp only [MipsBase.cleared]
    split
    · exact (CacheOp.executeCacheClear (T := MipsTlbNormal) m.ord).sorted_apply h.sorted
    · exact h.sorted
  · simp only [MipsBase.cleared]
    split
    · exact MipsCache.noted_executeCacheClear m.ord h.noted
    · exact h.noted

lemma SoundMap.getBlock {c : MipsCache} (h : SoundMap m c) (tlb : MipsTlbNormal)
    (address : BitVec 64) : SoundMap m (c.getBlock tlb address).2 := by
  have hcache := (MipsCache.getBlock_cache tlb c address).1
  refine ⟨MipsCache.wellFormed_getBlock tlb h.wellFormed address,
    (CacheOp.getBlock tlb address).sorted_apply h.sorted,
    MipsCache.noted_getBlock tlb h.noted address, ?_⟩
  rw [hcache]
  exact h.sound

lemma SoundMap.insertBlock {c : MipsCache} (h : SoundMap m c) {tlb : MipsTlbNormal}
    {b b' : MipsCacheBlock} (hplace : MipsCache.placeBlock tlb b = some b')
    (hsound : SoundBlock m b') : SoundMap m (c.insertBlock tlb b) := by
  refine ⟨MipsCache.wellFormed_insertBlock tlb h.wellFormed b,
    (CacheOp.insertBlock tlb b).sorted_apply h.sorted,
    MipsCache.noted_insertBlock tlb h.noted b, ?_⟩
  intro e he
  simp only [MipsCache.insertBlock, hplace] at he
  rcases DenseMap.mem_insert _ he with hold | ⟨-, -, heq⟩
  · exact h.sound e hold
  · rw [heq]
    exact hsound

/-- What is true at every place of a run: the map is sound, the entries left hold their
handlers, and the one that is executed next is for the program counter. -/
structure CursorInv (m : MipsSetup δ) (c : Cursor δ) : Prop where
  map : SoundMap m c.state.cache
  func : ∀ entry ∈ c.entries, entry.func = getInstFuncPtr m.kIs64Bit entry.opcode
  head : ∀ entry, c.Executing entry → inKseg c.state.pc → inKseg (entryPc entry) ∧
    ksegPhysical (entryPc entry) = ksegPhysical c.state.pc

lemma cursorInv_atTest {s : MipsBase MipsTlbNormal δ} (h : SoundMap m s.cache) :
    CursorInv m (.atTest s) := by
  refine ⟨h, by simp [Cursor.entries], ?_⟩
  rintro entry ⟨k, rest, t, hc, -⟩
  exact absurd hc (by simp)

/-- Coming by a block leaves the program counter and the devices alone. -/
lemma Entered.same (hm : m.IsN64) (hpure : m.bus.FetchPure) {s t : MipsBase MipsTlbNormal δ}
    {block : MipsCacheBlock} (h : Entered m s block t) : t.pc = s.pc ∧ t.device = s.device := by
  cases h with
  | hit hmem ht =>
      rw [ht]
      exact ⟨rfl, rfl⟩
  | built hmiss hbuild hplace hkey ht =>
      have hahead := ahead_buildBlock hm hpure _ _ _ _ hbuild
      rw [ht, hahead]
      exact ⟨rfl, rfl⟩

/-- The block that is entered is sound, and so is the map behind it. -/
lemma Entered.sound (hm : m.IsN64) (hpure : m.bus.FetchPure) {s t : MipsBase MipsTlbNormal δ}
    {block : MipsCacheBlock} (htest : TestOk m s) (hmap : SoundMap m s.cache)
    (h : Entered m s block t) :
    SoundBlock m block ∧ block.key = ksegPhysical s.pc ∧ SoundMap m t.cache := by
  have hclear := hmap.cleared
  cases h with
  | hit hmem ht =>
      refine ⟨hclear.sound _ hmem, (hclear.wellFormed.key _ _ hmem).symm, ?_⟩
      rw [ht]
      exact hclear.getBlock _ _
  | built hmiss hbuild hplace hkey ht =>
      have hapart := htest.apart.resolve_left hmiss
      have hsound := soundBlock_of_built hm hpure htest.segment hbuild hplace hapart
      refine ⟨hsound, hkey, ?_⟩
      rw [ht]
      exact (hclear.insertBlock hplace hsound).getBlock _ _

/-- A block is entered. -/
lemma enter_ok (hm : m.IsN64) (hpure : m.bus.FetchPure) {s t : MipsBase MipsTlbNormal δ}
    {block : MipsCacheBlock} (htest : TestOk m s) (h : enterBlock m s = .ok (block, t)) :
    Entered m s block t :=
  enterBlock_entered hm hpure htest.segment htest.live h

/-- A poll leaves the block cache alone. -/
lemma poll_cache {s t : MipsBase MipsTlbNormal δ} (h : poll m s = .ok ((), t)) :
    t.cache = s.cache := (background_poll s () t h).cache

/-- An executed entry queues work for the block cache at most. -/
lemma runEntry_grows {entry : MipsCacheEntry} {s t : MipsBase MipsTlbNormal δ}
    (h : runEntry m entry s = .ok ((), t)) : s.cache.Grows t.cache := by
  obtain ⟨u, hcall, rfl⟩ := runEntry_ok.mp h
  exact (callInst_grown hcall).cache

/-- Every step keeps the invariant. -/
lemma cursorInv_step (hm : m.IsN64) (hpure : m.bus.FetchPure) {c c' : Cursor δ}
    (h : CursorInv m c) (hok : CursorOk m c) (hstep : CachedStep m c c') : CursorInv m c' := by
  cases hstep with
  | enter henter =>
      have hentered := enter_ok hm hpure hok henter
      obtain ⟨hsound, hkey, hmap⟩ := hentered.sound hm hpure hok h.map
      refine ⟨hmap, hsound.func, ?_⟩
      rintro entry ⟨k, rest, u, hc, -⟩ -
      injection hc with hk hentries hstate
      obtain ⟨first, rest', hlist, hkseg, hphys⟩ := hsound.head
      obtain rfl : first = entry := (List.cons.inj (hlist.symm.trans hentries)).1
      refine ⟨hkseg, ?_⟩
      rw [hphys, hkey]
      exact congrArg NgMips.ksegPhysical (hentered.same hm hpure).1.symm
  | entry hpc hrun =>
      refine ⟨h.map.grows (runEntry_grows hrun), ?_, ?_⟩
      · exact fun e he => h.func e (List.mem_cons_of_mem _ he)
      · rintro entry ⟨k, rest, u, hc, hnext⟩ hkseg
        injection hc with hk hentries hstate
        -- Behind the first entry the program counter is that of the entry.
        have hpc' := hnext.resolve_left (by omega)
        subst hstate
        exact ⟨hpc' ▸ hkseg, congrArg NgMips.ksegPhysical hpc'.symm⟩
  | leave hk hleft hpoll hhalt =>
      refine cursorInv_atTest ?_
      rw [poll_cache hpoll]
      exact h.map
  | again hk hleft hcache hpoll hhalt =>
      refine cursorInv_atTest ?_
      rw [poll_cache hpoll]
      exact h.map.grows hcache

lemma cursorInv_runs (hm : m.IsN64) (hpure : m.bus.FetchPure) {ok : Cursor δ → Prop}
    (hok : ∀ c, ok c → CursorOk m c) {c c' : Cursor δ} (h : CursorInv m c)
    (hruns : Runs m ok c c') : CursorInv m c' := by
  induction hruns with
  | refl => exact h
  | tail _ hstep ih => exact cursorInv_step hm hpure ih (hok _ hstep.1) hstep.2

/-! ## A word that was invalidated -/

/-- The entry is no old copy of the word at the address. -/
def Fresh (a : BitVec 64) (w : BitVec 32) (entry : MipsCacheEntry) : Prop :=
  inKseg (entryPc entry) → ksegPhysical (entryPc entry) = ksegPhysical a → entry.opcode = w

/-- As long as the block goes on, it executes no old copy. -/
def BlockFresh (m : MipsSetup δ) (a : BitVec 64) (w : BitVec 32) (c : Cursor δ) : Prop :=
  ∀ c' entry, Runs m (fun d => d.InBlock ∧ HoldsWord m a w d) c c' → HoldsWord m a w c' →
    c'.Executing entry → Fresh a w entry

/-- The block executes no old copy, and old copies are only left in blocks that are queued. -/
structure Settled (m : MipsSetup δ) (a : BitVec 64) (w : BitVec 32) (c : Cursor δ) : Prop where
  block : BlockFresh m a w c
  map : ∀ e ∈ c.state.cache.cache.values, (∀ entry ∈ e.2.entries, Fresh a w entry) ∨
    c.state.cache.fullClearQueued = true ∨ e.1 ∈ c.state.cache.pendingInvalidations

variable {a : BitVec 64} {w : BitVec 32}

/-- What a block executes are entries that were left in it. -/
lemma entries_subset {ok : Cursor δ → Prop} (hok : ∀ d, ok d → d.InBlock) {c c' : Cursor δ}
    (hruns : Runs m ok c c') : ∀ entry ∈ c'.entries, entry ∈ c.entries := by
  induction hruns with
  | refl => exact fun _ hmem => hmem
  | tail _ hstep ih =>
      obtain ⟨hd, hnext⟩ := hstep
      intro entry hmem
      cases hnext with
      | enter henter => exact (hok _ hd).elim
      | entry hpc hrun => exact ih entry (List.mem_cons_of_mem _ hmem)
      | leave hk hleft hpoll hhalt => exact absurd hmem List.not_mem_nil
      | again hk hleft hcache hpoll hhalt => exact absurd hmem List.not_mem_nil

/-- No old copy is executed where none is left. -/
lemma blockFresh_of_entries {c : Cursor δ} (h : ∀ entry ∈ c.entries, Fresh a w entry) :
    BlockFresh m a w c := by
  intro c' entry hruns _ hexec
  obtain ⟨k, rest, s, rfl, -⟩ := hexec
  exact h entry (entries_subset (fun _ hd => hd.1) hruns entry List.mem_cons_self)

lemma blockFresh_atTest (s : MipsBase MipsTlbNormal δ) : BlockFresh m a w (.atTest s) :=
  blockFresh_of_entries fun _ hmem => absurd hmem List.not_mem_nil

lemma BlockFresh.step {c c' : Cursor δ} (h : BlockFresh m a w c) (hblock : c.InBlock)
    (hword : HoldsWord m a w c) (hstep : CachedStep m c c') : BlockFresh m a w c' :=
  fun d entry hruns => h d entry (.head ⟨⟨hblock, hword⟩, hstep⟩ hruns)

lemma Settled.grows {c : Cursor δ} (h : Settled m a w c) {c' : MipsCache}
    (hgrows : c.state.cache.Grows c') :
    ∀ e ∈ c'.cache.values, (∀ entry ∈ e.2.entries, Fresh a w entry) ∨
      c'.fullClearQueued = true ∨ e.1 ∈ c'.pendingInvalidations := by
  intro e he
  rw [hgrows.same.cache] at he
  rcases h.map e he with hfresh | hfull | hpending
  · exact .inl hfresh
  · exact .inr (.inl (hgrows.full hfull))
  · exact .inr (.inr (hgrows.pending _ hpending))

/-- A sound block contains its own start. -/
lemma SoundBlock.covers_key {b : MipsCacheBlock} (h : SoundBlock m b) : b.covers b.key = true := by
  obtain ⟨entry, rest, hlist, hkseg, hphys⟩ := h.head
  rw [← hphys]
  exact h.covers entry (hlist ▸ List.mem_cons_self) hkseg

/-- When the queue was worked off, no old copy is left in the map. -/
lemma Settled.cleared {s : MipsBase MipsTlbNormal δ} (h : Settled m a w (.atTest s))
    (hmap : SoundMap m s.cache) (htest : TestOk m s) :
    ∀ e ∈ (cleared m s).cache.cache.values, ∀ entry ∈ e.2.entries, Fresh a w entry := by
  intro e he
  have hold := cleared_subset he
  rcases h.map e hold with hfresh | hqueued
  · exact hfresh
  · have hwork : s.cache.hasPendingWork = true := by
      refine hmap.noted ?_
      rcases hqueued with hfull | hpending
      · exact .inr hfull
      · exact .inl (List.ne_nil_of_mem hpending)
    have hcache : (MipsBase.cleared m s).cache = s.cache.executeCacheClear m.ord := by
      simp only [MipsBase.cleared, hwork, if_true]
    rw [hcache] at he
    rcases hqueued with hfull | hpending
    · have hfull' : s.cache.fullClearQueued = true := hfull
      rw [MipsCache.executeCacheClear, if_pos hfull'] at he
      exact absurd he (by simp)
    · have hcovers : e.2.covers e.1 = true := by
        rw [hmap.wellFormed.key e.1 e.2 hold]
        exact (hmap.sound e hold).covers_key
      have hgone := MipsCache.not_mem_executeCacheClear m.ord hmap.wellFormed hmap.sorted
        htest.closed hold hcovers hpending
      exact absurd (DenseMap.mem_keys_of_mem _ he) hgone

/-- The block that is entered holds no old copy, nor does the map behind it. -/
lemma Settled.entered (hm : m.IsN64) (hpure : m.bus.FetchPure)
    {s t : MipsBase MipsTlbNormal δ} {block : MipsCacheBlock} (h : Settled m a w (.atTest s))
    (hmap : SoundMap m s.cache) (htest : TestOk m s) (hword : HoldsWord m a w (.atTest s))
    (hentered : Entered m s block t) : Settled m a w (.inBlock 0 block.entries t) := by
  have hold := h.cleared hmap htest
  have hblock : ∀ entry ∈ block.entries, Fresh a w entry := by
    cases hentered with
    | hit hmem ht => exact hold _ hmem
    | built hmiss hbuild hplace hkey ht =>
        rename_i b u
        obtain ⟨b', hplace', -, -, hentries⟩ :=
          placeBlock_inKseg htest.segment (buildBlock_start hbuild) u.tlb
        obtain rfl : b' = block := Option.some.inj (hplace'.symm.trans hplace)
        obtain ⟨entries, v, hcollect, hrest⟩ := Prog.bind_ok.mp hbuild
        obtain ⟨rfl, -⟩ := Prog.ok_inj hrest
        rw [hentries]
        intro entry hentry hkseg hphys
        rw [(collectEntries_decoded hm hpure _ hcollect entry hentry hkseg).1, hphys]
        exact hword
  refine ⟨blockFresh_of_entries hblock, fun e he => .inl ?_⟩
  rcases hentered.mem he with hmem | ⟨rfl, -⟩
  · exact hold e hmem
  · exact hblock

/-- Every step keeps old copies out. -/
lemma settled_step (hm : m.IsN64) (hpure : m.bus.FetchPure) {c c' : Cursor δ}
    (h : Settled m a w c) (hinv : CursorInv m c) (hok : CursorOk m c) (hword : HoldsWord m a w c)
    (hstep : CachedStep m c c') : Settled m a w c' := by
  cases hstep with
  | enter henter => exact h.entered hm hpure hinv.map hok hword (enter_ok hm hpure hok henter)
  | entry hpc hrun =>
      refine ⟨h.block.step trivial hword (.entry hpc hrun), ?_⟩
      exact h.grows (runEntry_grows hrun)
  | leave hk hleft hpoll hhalt =>
      refine ⟨blockFresh_atTest _, h.grows ?_⟩
      simp only [Cursor.state, poll_cache hpoll]
      exact .refl _
  | again hk hleft hcache hpoll hhalt =>
      refine ⟨blockFresh_atTest _, h.grows ?_⟩
      simp only [Cursor.state, poll_cache hpoll]
      exact hcache

lemma settled_runs (hm : m.IsN64) (hpure : m.bus.FetchPure) {c c' : Cursor δ}
    (h : Settled m a w c) (hinv : CursorInv m c)
    (hruns : Runs m (fun d => CursorOk m d ∧ HoldsWord m a w d) c c') : Settled m a w c' := by
  induction hruns with
  | refl => exact h
  | tail hruns hstep ih =>
      exact settled_step hm hpure ih (cursorInv_runs hm hpure (fun _ hok => hok.1) hinv hruns)
        hstep.1.1 hstep.1.2 hstep.2

/-! ## The cache operation -/

/-- The line of an unmapped address lies in its segment, and its addresses are those of
consecutive bytes. -/
lemma line_inKseg {x v : BitVec 64} (hlo : lineStart x ≤ v) (hhi : v < lineStart x + 32)
    (hkseg : inKseg v) : ∀ u, lineStart x ≤ u → u < lineStart x + 32 →
      inKseg u ∧ (ksegPhysical u).toNat = (ksegPhysical (lineStart x)).toNat +
        (u.toNat - (lineStart x).toNat) ∧ u.toNat < (lineStart x).toNat + 32 := by
  have haligned : (lineStart x).toNat % 32 = 0 := by
    have hzero : lineStart x &&& 0x1F = 0 := by
      rw [lineStart, BitVec.and_assoc]
      simp
    have hmod := congrArg BitVec.toNat hzero
    rw [BitVec.toNat_and] at hmod
    exact (Nat.and_two_pow_sub_one_eq_mod _ 5).symm.trans hmod
  obtain ⟨n, hn⟩ : ∃ n, n = (lineStart x).toNat := ⟨_, rfl⟩
  have hlt := (lineStart x).isLt
  have hend : (lineStart x + 32).toNat = (n + 32) % 2 ^ 64 := by
    rw [BitVec.toNat_add, hn]
    rfl
  have hbounds := (inKseg_iff v).mp hkseg
  rw [BitVec.le_def] at hlo
  rw [BitVec.lt_def, hend] at hhi
  rw [← hn] at hlo haligned hlt
  intro u hulo huhi
  rw [BitVec.le_def, ← hn] at hulo
  rw [BitVec.lt_def, hend] at huhi
  refine ⟨(inKseg_iff u).mpr (by omega), ?_, by omega⟩
  rw [ksegPhysical_toNat, ksegPhysical_toNat, ← hn]
  omega

/-- The invalidation of a line. -/
def lineRequest (m : MipsSetup δ) (tlb : MipsTlbNormal) (start : BitVec 64) :
    CacheOp MipsTlbNormal := .invalidateBlockRange m.ord tlb start (start + 32)

/-- The handler of a cache operation on the instruction cache invalidates the line. -/
lemma runEntry_cache (hcached : m.config.useCachedInterpreter = true) {entry : MipsCacheEntry}
    {s t t' : MipsBase MipsTlbNormal δ} {base : BitVec 64} (hfunc : entry.func = .kCache)
    (hop : entry.opcode.getLsbD 16 = false)
    (hbase : readGpr64 m (rsField entry.opcode) s = .ok (base, t'))
    (hrun : runEntry m entry s = .ok ((), t)) :
    t.cache = (lineRequest m s.tlb (lineStart (cacheAddress entry.opcode base))).apply s.cache := by
  obtain ⟨u, hcall, rfl⟩ := runEntry_ok.mp hrun
  have hread : readGpr64 m (rsField entry.opcode) (started entry.opcode s) =
      .ok (base, started entry.opcode s) := by
    rw [← (Prog.ok_inj hbase).1]
    rfl
  have hno : ¬ entry.opcode.getLsbD 16 = true := by
    rw [hop]
    exact Bool.false_ne_true
  rw [hfunc] at hcall
  change instCache m entry.opcode (started entry.opcode s) = _ at hcall
  rw [instCache, Prog.bind_of_ok hread, if_neg hno, if_pos hcached] at hcall
  rw [← Prog.state_eq hcall]
  rfl

/-- In the unmapped segments the physical addresses of a line are those of a range. -/
lemma lineRequest_met {x v : BitVec 64} (hlo : lineStart x ≤ v) (hhi : v < lineStart x + 32)
    (hkseg : inKseg v) (tlb : MipsTlbNormal) (c : MipsCache) :
    (lineRequest m tlb (lineStart x)).RequestMet c := by
  have hrange := line_inKseg hlo hhi hkseg
  obtain ⟨start, hstart⟩ : ∃ start, start = lineStart x := ⟨_, rfl⟩
  rw [← hstart] at hlo hhi hrange ⊢
  have hfirst := (hrange start (BitVec.le_refl _) (Nat.lt_of_le_of_lt hlo hhi)).1
  intro u hulo huhi hfound
  obtain ⟨hukseg, huphys, hult⟩ := hrange u hulo huhi
  have hsize : start + 32 - start = 32 := by rw [BitVec.add_comm, BitVec.add_sub_cancel]
  show (translateAddress tlb start).address ≤ (translateAddress tlb u).address ∧
    (translateAddress tlb u).address < (translateAddress tlb start).address + (start + 32 - start)
  have hu : translateAddress tlb u = _ := MipsTlbNormal.translateAddress_of_inKseg _ hukseg
  have hs : translateAddress tlb start = _ := MipsTlbNormal.translateAddress_of_inKseg _ hfirst
  have hsmall := ksegPhysical_toNat start
  have hlt := Nat.mod_lt start.toNat (show 2 ^ 29 > 0 by decide)
  have hend : (ksegPhysical start + 32).toNat = (ksegPhysical start).toNat + 32 := by
    have h32 : BitVec.toNat (32 : BitVec 64) = 32 := rfl
    rw [BitVec.toNat_add, h32]
    omega
  rw [hu, hs, hsize]
  show ksegPhysical start ≤ ksegPhysical u ∧ ksegPhysical u < ksegPhysical start + 32
  rw [BitVec.le_def, BitVec.lt_def, hend, huphys]
  omega

/-- A cache operation on the line of the word queues every block that holds an old copy. -/
lemma settled_invalidate (hcached : m.config.useCachedInterpreter = true)
    {entry : MipsCacheEntry} {rest : List MipsCacheEntry} {s t : MipsBase MipsTlbNormal δ} {k : ℕ}
    (hmap : SoundMap m s.cache) (hline : InvalidatesLine m entry s a)
    (hrun : runEntry m entry s = .ok ((), t)) (hblock : BlockFresh m a w (.inBlock k rest t)) :
    Settled m a w (.inBlock k rest t) := by
  obtain ⟨hfunc, hop, base, t', hbase, v, hlo, hhi, hkseg, hphys⟩ := hline
  have hcache := runEntry_cache hcached hfunc hop hbase hrun
  refine ⟨hblock, fun e he => ?_⟩
  have hold : e ∈ s.cache.cache.values := by
    rw [← (runEntry_grows hrun).same.cache]
    exact he
  by_cases hfresh : ∀ entry ∈ e.2.entries, Fresh a w entry
  · exact .inl hfresh
  · obtain ⟨old, hmem, hnot⟩ : ∃ old ∈ e.2.entries, ¬ Fresh a w old := by simpa using hfresh
    obtain ⟨hkold, hpold⟩ : inKseg (entryPc old) ∧
        ksegPhysical (entryPc old) = ksegPhysical a := by
      by_contra hno
      exact hnot fun hk hp => absurd ⟨hk, hp⟩ hno
    -- The block contains the old copy, whose address the request is for.
    have hcovers := (hmap.sound e hold).covers old hmem hkold
    rw [hpold, ← hphys] at hcovers
    have htrans : ∀ u, inKseg u → translateAddress s.tlb u =
        { found := true, readOnly := false, address := ksegPhysical u } := fun u hu =>
      MipsTlbNormal.translateAddress_of_inKseg _ hu
    have hfirst := (line_inKseg hlo hhi hkseg _ (BitVec.le_refl _)
      (Nat.lt_of_le_of_lt hlo hhi)).1
    have hreq : (lineRequest m s.tlb (lineStart (cacheAddress entry.opcode base))).Requests
        e.2 := by
      refine ⟨by rw [htrans _ hfirst], v, hlo, hhi, by rw [htrans v hkseg], ?_⟩
      rw [htrans v hkseg]
      exact hcovers
    have hpending := CacheOp.mem_pending_of_requests _ hmap.wellFormed hold hreq
      (lineRequest_met hlo hhi hkseg s.tlb s.cache)
    rw [← hcache] at hpending
    exact .inr (.inr hpending)

/-- In a run from an empty block cache whose tests meet the condition, behind a cache
operation on the line of a word, the word is executed as memory holds it, when the block with
the cache operation executes no old copy before control leaves it. -/
theorem modified_takesEffect (hm : m.IsN64) (hpure : m.bus.FetchPure)
    (hcached : m.config.useCachedInterpreter = true) {s₀ : MipsBase MipsTlbNormal δ}
    (hempty : s₀.cache = MipsCache.reset) {c₀ c₁ : Cursor δ} {entry : MipsCacheEntry}
    (hruns : Runs m (CursorOk m) (.atTest s₀) c₀) (hexec : c₀.Executing entry)
    (hline : InvalidatesLine m entry c₀.state a) (hstep : CachedStep m c₀ c₁)
    (hblock : BlockFresh m a w c₁) : TakesEffect m (CursorOk m) a w c₁ := by
  have hstart : CursorInv m (.atTest s₀) := cursorInv_atTest (hempty ▸ soundMap_reset)
  have hinv₀ := cursorInv_runs hm hpure (fun _ hok => hok) hstart hruns
  obtain ⟨k, rest, s, rfl, hnext⟩ := hexec
  have hinv₁ : CursorInv m c₁ := cursorInv_step hm hpure hinv₀ trivial hstep
  have hsettled : Settled m a w c₁ := by
    cases hstep with
    | entry hpc hrun => exact settled_invalidate hcached hinv₀.map hline hrun hblock
    | leave hk hleft _ _ =>
        exact absurd (hnext.resolve_left fun h => absurd (hk h) (by simp)) (hleft entry rfl)
    | again hk hleft _ _ _ =>
        exact absurd (hnext.resolve_left fun h => absurd (hk h) (by simp)) (hleft entry rfl)
  intro c₂ e hruns₂ hword hexec₂ hkseg hphys
  have hinv₂ := cursorInv_runs hm hpure (fun _ hok => hok.1) hinv₁ hruns₂
  have hsettled₂ := settled_runs hm hpure hsettled hinv₁ hruns₂
  obtain ⟨hekseg, hephys⟩ := hinv₂.head e hexec₂ hkseg
  have hmem : e ∈ c₂.entries := by
    obtain ⟨k', rest', s', rfl, -⟩ := hexec₂
    exact List.mem_cons_self
  have hop : e.opcode = w :=
    hsettled₂.block c₂ e .refl hword hexec₂ hekseg (hephys.trans hphys)
  refine ⟨hop, ?_⟩
  rw [← hop]
  exact hinv₂.func e hmem

/-! ## A program that changes a word behind its block -/

lemma cachedStep_of_returned {k : ℕ} {entry : MipsCacheEntry} {rest : List MipsCacheEntry}
    {s : MipsBase MipsTlbNormal δ} (hpc : k = 0 ∨ s.pc = entryPc entry)
    (h : returnedValue (runEntry m entry) s = some ()) :
    CachedStep m (.inBlock k (entry :: rest) s)
      (.inBlock (k + 1) rest (lastState (runEntry m entry) s)) :=
  .entry hpc (run_of_returned h)

/-- A store of the word in register 2, and the cache operation on its line. -/
def storeEntry (offset : BitVec 32) : MipsCacheEntry := ⟨0x80001000, 0xAC220000 ||| offset, .kSw⟩

def cacheEntry (offset : BitVec 32) : MipsCacheEntry :=
  ⟨0x80001004, 0xBC200000 ||| offset, .kCache⟩

/-- The program: the word at an offset from its start is replaced. -/
def modifyProgram (offset : BitVec 32) (rest : List (BitVec 32)) :
    MipsBase MipsTlbNormal WordMemory :=
  { programState 0x80001000 0x1000 ([0xAC220000 ||| offset, 0xBC200000 ||| offset] ++ rest) with
    gpr := fun r => if r = 1 then 0xFFFFFFFF80001000 else if r = 2 then 0x24030002 else 0 }

/-- The block of the program is entered. -/
def modifyEntered (offset : BitVec 32) (rest : List (BitVec 32)) :
    MipsBase MipsTlbNormal WordMemory :=
  lastState (enterBlock cachedSetup) (modifyProgram offset rest)

/-- The word was stored. -/
def modifyStored (offset : BitVec 32) (rest : List (BitVec 32)) :
    MipsBase MipsTlbNormal WordMemory :=
  lastState (runEntry cachedSetup (storeEntry offset)) (modifyEntered offset rest)

/-- The cache operation was executed. -/
def modifyDone (offset : BitVec 32) (rest : List (BitVec 32)) :
    MipsBase MipsTlbNormal WordMemory :=
  lastState (runEntry cachedSetup (cacheEntry offset)) (modifyStored offset rest)

/-- The entry of a `SYSCALL` behind the cache operation. -/
def syscallEntry : MipsCacheEntry := ⟨0x80001008, 0x0000000C, .kSyscall⟩

/-- The steps of the program up to the cache operation. -/
lemma modifyProgram_steps {offset : BitVec 32} {rest : List (BitVec 32)}
    {tail : List MipsCacheEntry}
    (hblock : (returnedValue (enterBlock cachedSetup) (modifyProgram offset rest)).map
      MipsCacheBlock.entries = some (storeEntry offset :: cacheEntry offset :: tail))
    (hstore : returnedValue (runEntry cachedSetup (storeEntry offset)) (modifyEntered offset rest) =
      some ())
    (hpc : (modifyStored offset rest).pc = 0x80001004)
    (hcache : returnedValue (runEntry cachedSetup (cacheEntry offset)) (modifyStored offset rest) =
      some ()) :
    CachedStep cachedSetup (.atTest (modifyProgram offset rest))
        (.inBlock 0 (storeEntry offset :: cacheEntry offset :: tail) (modifyEntered offset rest)) ∧
      CachedStep cachedSetup
        (.inBlock 0 (storeEntry offset :: cacheEntry offset :: tail) (modifyEntered offset rest))
        (.inBlock 1 (cacheEntry offset :: tail) (modifyStored offset rest)) ∧
      CachedStep cachedSetup (.inBlock 1 (cacheEntry offset :: tail) (modifyStored offset rest))
        (.inBlock 2 tail (modifyDone offset rest)) := by
  obtain ⟨block, hreturned, hentries⟩ := Option.map_eq_some_iff.mp hblock
  have henter := CachedStep.enter (run_of_returned hreturned)
  rw [hentries] at henter
  exact ⟨henter, cachedStep_of_returned (.inl rfl) hstore,
    cachedStep_of_returned (.inr hpc) hcache⟩

/-- The line the cache operation invalidates. -/
lemma cacheEntry_invalidatesLine {offset : BitVec 32} {s : MipsBase MipsTlbNormal WordMemory}
    {v a : BitVec 64} (hbase : s.gpr 1 = 0xFFFFFFFF80001000)
    (hfield : rsField (cacheEntry offset).opcode = 1)
    (hop : (cacheEntry offset).opcode.getLsbD 16 = false)
    (hline : lineStart (cacheAddress (cacheEntry offset).opcode 0xFFFFFFFF80001000) ≤ v ∧
      v < lineStart (cacheAddress (cacheEntry offset).opcode 0xFFFFFFFF80001000) + 32)
    (hkseg : inKseg v) (hphys : ksegPhysical v = ksegPhysical a) :
    InvalidatesLine cachedSetup (cacheEntry offset) s a := by
  refine ⟨rfl, hop, 0xFFFFFFFF80001000, s, ?_, v, hline.1, hline.2, hkseg, hphys⟩
  rw [hfield, ← hbase]
  rfl

/-- The word is behind the block of the program. -/
theorem modifyProgram_takesEffect :
    HoldsWord cachedSetup 0x80001020 0x24030002
        (.inBlock 2 [syscallEntry] (modifyDone 0x20 [0x0000000C])) ∧
      TakesEffect cachedSetup (CursorOk cachedSetup) 0x80001020 0x24030002
        (.inBlock 2 [syscallEntry] (modifyDone 0x20 [0x0000000C])) := by
  have hpc : (modifyStored 0x20 [0x0000000C]).pc = 0x80001004 := by decide +kernel
  have hblock : (returnedValue (enterBlock cachedSetup) (modifyProgram 0x20 [0x0000000C])).map
      MipsCacheBlock.entries = some [storeEntry 0x20, cacheEntry 0x20, syscallEntry] := by
    decide +kernel
  obtain ⟨henter, hstore, hcache⟩ :=
    modifyProgram_steps hblock (by decide +kernel) hpc (by decide +kernel)
  have htest : TestOk cachedSetup (modifyProgram 0x20 [0x0000000C]) := by
    refine ⟨by decide, MipsCache.lookupLive_of_null fun _ => rfl, .inr ?_, .inr ?_⟩
    · exact fun address hmem => absurd hmem (by simp [modifyProgram, programState])
    · have hall : (lookAhead cachedSetup (modifyProgram 0x20 [0x0000000C])
          (kCacheBlockMaxLength - 1) 0x80001000).all (fun address => isKseg0 address) = true := by
        decide +kernel
      intro address hmem _
      exact (List.all_eq_true.mp hall address hmem).trans (by decide)
  have hentered : CursorOk cachedSetup (.inBlock 0 [storeEntry 0x20, cacheEntry 0x20, syscallEntry]
      (modifyEntered 0x20 [0x0000000C])) := trivial
  have hruns : Runs cachedSetup (CursorOk cachedSetup) (.atTest (modifyProgram 0x20 [0x0000000C]))
      (.inBlock 1 [cacheEntry 0x20, syscallEntry] (modifyStored 0x20 [0x0000000C])) :=
    (Relation.ReflTransGen.single ⟨htest, henter⟩).tail ⟨hentered, hstore⟩
  have hline : InvalidatesLine cachedSetup (cacheEntry 0x20) (modifyStored 0x20 [0x0000000C])
      0x80001020 :=
    cacheEntry_invalidatesLine (by decide +kernel) (by decide) (by decide)
      (by decide : lineStart _ ≤ 0xFFFFFFFF80001020 ∧ _) (by decide) (by decide)
  have hword : HoldsWord cachedSetup 0x80001020 0x24030002
      (.inBlock 2 [syscallEntry] (modifyDone 0x20 [0x0000000C])) := by
    rw [HoldsWord, Cursor.state]
    decide +kernel
  refine ⟨hword, modified_takesEffect (n64Setup_isN64 _) wordBus_fetchPure rfl rfl hruns
    ⟨1, _, _, rfl, .inr hpc⟩ hline hcache (blockFresh_of_entries ?_)⟩
  intro e he
  obtain rfl := List.mem_singleton.mp he
  exact fun _ hphys => absurd hphys (by decide)

/-! ## A program that changes a word of its block -/

/-- The entry of the word before it was changed. -/
def oldEntry : MipsCacheEntry := ⟨0x80001008, 0x24030001, .kAddiu⟩

/-- What is left of the block behind the cache operation. -/
def oldRest : List MipsCacheEntry := [oldEntry, ⟨0x8000100C, 0x0000000C, .kSyscall⟩]

/-- An old copy that is executed next. -/
lemma not_takesEffect_of_old {ok : Cursor δ → Prop} {k : ℕ} {entry : MipsCacheEntry}
    {rest : List MipsCacheEntry} {s : MipsBase MipsTlbNormal δ}
    (hword : HoldsWord m a w (.inBlock k (entry :: rest) s)) (hpc : s.pc = entryPc entry)
    (hkseg : inKseg (entryPc entry)) (hphys : ksegPhysical (entryPc entry) = ksegPhysical a)
    (hold : entry.opcode ≠ w) : ¬ TakesEffect m ok a w (.inBlock k (entry :: rest) s) := by
  intro heffect
  have hkseg' : inKseg s.pc := hpc ▸ hkseg
  exact hold (heffect _ entry .refl hword ⟨k, rest, s, rfl, .inr hpc⟩ hkseg' (hpc ▸ hphys)).1

/-- The next word is replaced and its line invalidated, but the block goes on with the old
word. -/
theorem ownBlock_keepsOld :
    ∃ c₀ c₁, Runs cachedSetup InSegments (.atTest (modifyProgram 8 [0x24030001, 0x0000000C])) c₀ ∧
      c₀.Executing (cacheEntry 8) ∧ InvalidatesLine cachedSetup (cacheEntry 8) c₀.state 0x80001008 ∧
      CachedStep cachedSetup c₀ c₁ ∧ HoldsWord cachedSetup 0x80001008 0x24030002 c₁ ∧
      ¬ TakesEffect cachedSetup InSegments 0x80001008 0x24030002 c₁ := by
  obtain ⟨s, hs⟩ : ∃ s, s = modifyStored 8 [0x24030001, 0x0000000C] := ⟨_, rfl⟩
  obtain ⟨t, ht⟩ : ∃ t, t = modifyDone 8 [0x24030001, 0x0000000C] := ⟨_, rfl⟩
  have hblock : (returnedValue (enterBlock cachedSetup)
      (modifyProgram 8 [0x24030001, 0x0000000C])).map MipsCacheBlock.entries =
      some (storeEntry 8 :: cacheEntry 8 :: oldRest) := by decide +kernel
  have hpc : s.pc = 0x80001004 := by rw [hs]; decide +kernel
  obtain ⟨henter, hstore, hcache⟩ :=
    modifyProgram_steps hblock (by decide +kernel) (hs ▸ hpc) (by decide +kernel)
  have hstart : InSegments (.atTest (modifyProgram 8 [0x24030001, 0x0000000C])) := by
    rw [InSegments, Cursor.state]
    decide +kernel
  have hentered : InSegments (.inBlock 0 (storeEntry 8 :: cacheEntry 8 :: oldRest)
      (modifyEntered 8 [0x24030001, 0x0000000C])) := by
    rw [InSegments, Cursor.state]
    decide +kernel
  have hbase : s.gpr 1 = 0xFFFFFFFF80001000 := by rw [hs]; decide +kernel
  have hword : wordBus.word t.device (ksegPhysical 0x80001008) = 0x24030002 := by
    rw [ht]
    decide +kernel
  have hpc' : t.pc = entryPc oldEntry := by rw [ht]; decide +kernel
  rw [← hs] at hstore hcache
  rw [← ht] at hcache
  have hline : InvalidatesLine cachedSetup (cacheEntry 8) s 0x80001008 :=
    cacheEntry_invalidatesLine hbase (by decide) (by decide)
      (by decide : lineStart _ ≤ 0xFFFFFFFF80001008 ∧ _) (by decide) (by decide)
  exact ⟨.inBlock 1 (cacheEntry 8 :: oldRest) s, .inBlock 2 oldRest t,
    (Relation.ReflTransGen.single ⟨hstart, henter⟩).tail ⟨hentered, hstore⟩,
    ⟨1, oldRest, s, rfl, .inr hpc⟩, hline, hcache, hword,
    not_takesEffect_of_old hword hpc' (by decide) (by decide) (by decide)⟩

end MipsBase

end NgMips
