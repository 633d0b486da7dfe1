import NgMips.Proofs.CacheKept

/-!
# What all cached blocks have in common

A property that every block has when it is built is one that every block of the cache has:
nothing but the insertion of a new block adds to the map (`keeps_enterBlock`).  Two properties are
used: the entries carry the handlers of their instruction words (`DecodedBlocks`), and there is at
least one entry and at most sixty-four (`SizedBlocks`).  Whatever a processor was used for since it
was built, its blocks have both (`decodedBlocks_of_calls`, `sizedBlocks_of_calls`).
-/

namespace NgMips

/-- Every cached block has entries that satisfy `P`. -/
def EachBlock (P : List MipsCacheEntry → Prop) (c : MipsCache) : Prop :=
  ∀ e ∈ c.cache.values, P e.2.entries

/-- The handler of the entry is the one of its instruction word. -/
def MipsCacheEntry.Decoded (kIs64Bit : Bool) (entry : MipsCacheEntry) : Prop :=
  entry.func = getInstFuncPtr kIs64Bit entry.opcode

/-- Every cached block was predecoded by this processor. -/
def DecodedBlocks {δ : Type} (m : MipsSetup δ) (c : MipsCache) : Prop :=
  ∀ e ∈ c.cache.values, ∀ entry ∈ e.2.entries, entry.Decoded m.kIs64Bit

/-- The number of instructions in every cached block. -/
def SizedBlocks : MipsCache → Prop :=
  EachBlock fun entries => 0 < entries.length ∧ entries.length ≤ kCacheBlockMaxLength

namespace EachBlock

variable {P : List MipsCacheEntry → Prop}

lemma of_mem {c c' : MipsCache} (h : EachBlock P c)
    (hc : ∀ e ∈ c'.cache.values, e ∈ c.cache.values) : EachBlock P c' :=
  fun e he => h e (hc e he)

lemma reset : EachBlock P MipsCache.reset := by
  intro e he
  exact absurd he (by simp [MipsCache.reset])

lemma insertBlock {T : Type} [MipsTlbBase T] {tlb : T} {c : MipsCache} {block : MipsCacheBlock}
    (h : EachBlock P c) (hblock : P block.entries) : EachBlock P (c.insertBlock tlb block) := by
  intro e he
  rcases (MipsCache.insertBlock_cache tlb c block).1 with hsame | ⟨b, hplace, hinsert⟩
  · exact h e (hsame ▸ he)
  · have he' : (e.1, e.2) ∈ (c.cache.insert b.key b).values := hinsert ▸ he
    rcases DenseMap.mem_insert _ he' with hold | ⟨-, -, hnew⟩
    · exact h e hold
    · -- Placing a block moves its range, not its entries.
      simp only [MipsCache.placeBlock] at hplace
      split at hplace
      · exact absurd hplace (by simp)
      · rw [hnew, ← Option.some.inj hplace]
        exact hblock

end EachBlock

namespace MipsBase

variable {T δ : Type} [MipsTlbBase T] {m : MipsSetup δ} {P : List MipsCacheEntry → Prop}

/-! ## Entering a block -/

omit [MipsTlbBase T] in
/-- The property is kept by every part of a run that leaves the block cache alone. -/
lemma keeps_internals {α : Type} {x : CpuM T δ α} (hx : Internals m x) :
    Prog.Keeps (fun s => EachBlock P s.cache) (fun _ => True) x :=
  .of_moves (fun _ _ hback h => hback.cache ▸ h) (background_internals hx)

lemma keeps_getBlock :
    Prog.Keeps (fun s => EachBlock P s.cache) (fun _ => True) (getBlock : CpuM T δ _) := by
  intro s h
  refine ⟨rfl, fun a s' hrun => ⟨?_, trivial⟩⟩
  rw [← Prog.state_eq hrun]
  exact h.of_mem fun e he => (MipsCache.getBlock_cache s.tlb s.cache s.pc).1 ▸ he

omit [MipsTlbBase T] in
/-- A block that is entered is one of the cache. -/
lemma keeps_derefBlock (i : ℕ) :
    Prog.Keeps (fun s => EachBlock P s.cache) (fun block => P block.entries)
      (derefBlock i : CpuM T δ _) := by
  intro s h
  refine ⟨rfl, fun block s' hrun => ?_⟩
  simp only [derefBlock] at hrun
  split at hrun
  · next b hb =>
      obtain ⟨rfl, rfl⟩ := Prog.ok_inj hrun
      obtain ⟨e, he, rfl⟩ := Option.map_eq_some_iff.mp hb
      exact ⟨h, h e (List.mem_of_getElem? he)⟩
  · exact absurd hrun (by simp)

section Build

variable (hcollect : ∀ address,
  Prog.Keeps (fun _ => True) P (collectEntries (T := T) m (kCacheBlockMaxLength - 1) address))

include hcollect

lemma keeps_onNewBlock (address : BitVec 64) :
    Prog.Keeps (fun s => EachBlock P s.cache) (fun _ => True) (onNewBlock (T := T) m address) := by
  have hbuild : Prog.Keeps (fun s => EachBlock P s.cache) (fun block => P block.entries)
      (buildBlock (T := T) m (address &&& 0xFFFFFFFF)) := by
    intro s h
    refine ⟨rfl, fun block t hrun => ?_⟩
    have hkept := ((keeps_internals (internal_buildBlock _) s h).2 block t hrun).1
    obtain ⟨entries, u, hentries, hblock⟩ := Prog.bind_ok.mp hrun
    obtain ⟨rfl, rfl⟩ := Prog.ok_inj hblock
    exact ⟨hkept, ((hcollect _ s trivial).2 entries _ hentries).2⟩
  exact hbuild.bind fun block hblock => .of_modify fun s h => h.insertBlock hblock

lemma keeps_getOrBuildBlock :
    Prog.Keeps (fun s => EachBlock P s.cache) (fun _ => True) (getOrBuildBlock (T := T) m) := by
  refine keeps_getBlock.bind fun block _ => ?_
  cases block with
  | some i => exact .of_pure trivial
  | none =>
      refine (keeps_internals (m := m) (.op (.read _ fun _ _ => rfl))).bind fun pc _ =>
        (keeps_onNewBlock hcollect pc).bind fun _ _ => keeps_getBlock.bind fun block _ => ?_
      cases block with
      | some i => exact .of_pure trivial
      | none => exact .of_throw _

/-- Entering a block keeps what all blocks have in common when they are built, and the block
that is entered has it. -/
theorem keeps_enterBlock :
    Prog.Keeps (fun s => EachBlock P s.cache) (fun block => P block.entries)
      (enterBlock (T := T) m) := by
  have hclear : Prog.Keeps (fun s => EachBlock P s.cache) (fun _ => True)
      (executeCacheClear (T := T) m) := by
    refine .of_modify fun s h => ?_
    split
    · exact h.of_mem fun e => MipsCache.mem_values_executeCacheClear
    · exact h
  exact hclear.bind fun _ _ => (keeps_getOrBuildBlock hcollect).bind fun i _ => keeps_derefBlock i

end Build

/-! ## The blocks that are built -/

lemma decoded_fetchEntry (address : BitVec 64) :
    Prog.Keeps (fun _ => True) (fun entry => entry.Decoded m.kIs64Bit)
      (fetchEntry (T := T) m address) := by
  have hfetch : Prog.Keeps (fun _ => True) (fun _ => True) (fetch (T := T) m address) :=
    .of_moves (fun _ _ _ h => h) (background_internals (internal_fetch address))
  exact hfetch.bind fun _ _ => .of_pure rfl

lemma decoded_collectEntries (n : ℕ) (address : BitVec 64) :
    Prog.Keeps (fun _ => True) (fun entries => ∀ entry ∈ entries, entry.Decoded m.kIs64Bit)
      (collectEntries (T := T) m n address) := by
  induction n generalizing address with
  | zero => exact .of_pure (by simp)
  | succ n ih =>
      refine (decoded_fetchEntry address).bind fun entry hentry => ?_
      split
      · split
        · refine (decoded_fetchEntry _).bind fun slot hslot => .of_pure ?_
          simpa using ⟨hentry, hslot⟩
        · exact .of_pure (by simpa using hentry)
      · refine (ih (address + 4)).bind fun rest hrest => .of_pure ?_
        simpa using ⟨hentry, hrest⟩

/-- Collecting stops at `n` entries, or one entry later with a delay slot. -/
lemma sized_collectEntries (n : ℕ) (address : BitVec 64) :
    Prog.Keeps (fun _ => True) (fun entries => min n 1 ≤ entries.length ∧ entries.length ≤ n + 1)
      (collectEntries (T := T) m n address) := by
  induction n generalizing address with
  | zero => exact .of_pure (by simp)
  | succ n ih =>
      have hfetch : ∀ address, Prog.Keeps (fun _ => True) (fun _ => True)
          (fetchEntry (T := T) m address) := fun address =>
        (decoded_fetchEntry address).mono fun _ _ => trivial
      refine (hfetch address).bind fun entry _ => ?_
      split
      · split
        · exact (hfetch _).bind fun slot _ => .of_pure (by simp)
        · exact .of_pure (by simp)
      · refine (ih (address + 4)).bind fun rest hrest => .of_pure ?_
        obtain ⟨-, hle⟩ := hrest
        refine ⟨?_, ?_⟩
        · simp
        · simpa using hle

/-- A block that is entered was predecoded by this processor when all blocks were. -/
lemma decoded_enterBlock :
    Prog.Keeps (fun s => DecodedBlocks m s.cache)
      (fun block => ∀ entry ∈ block.entries, entry.Decoded m.kIs64Bit) (enterBlock (T := T) m) :=
  keeps_enterBlock fun address => decoded_collectEntries _ address

lemma sized_enterBlock :
    Prog.Keeps (fun s => SizedBlocks s.cache)
      (fun block => 0 < block.entries.length ∧ block.entries.length ≤ kCacheBlockMaxLength)
      (enterBlock (T := T) m) :=
  keeps_enterBlock fun address => sized_collectEntries _ address

/-! ## The blocks of every processor -/

/-- What every block has when it is built is kept. -/
lemma EachBlock.cacheKept (hcollect : ∀ address,
    Prog.Keeps (fun _ => True) P (collectEntries (T := T) m (kCacheBlockMaxLength - 1) address)) :
    CacheKept T m (EachBlock P) where
  reset := .reset
  grows hgrows h := h.of_mem fun _ he => hgrows.same.cache ▸ he
  enter s block t henter hs := ((keeps_enterBlock hcollect s hs).2 block t henter).1

section Used

variable {tlb : T} {d : δ} {calls : List (MipsCall δ)} {spent : List (Option ℤ)} {s : MipsBase T δ}
  (h : performAll m calls { tlb := tlb, device := d } = .ok (spent, s))

include h

/-- The blocks of a processor that was used since it was built were predecoded by it. -/
theorem decodedBlocks_of_calls : DecodedBlocks m s.cache :=
  (EachBlock.cacheKept fun address => decoded_collectEntries _ address).performAll h

theorem sizedBlocks_of_calls : SizedBlocks s.cache :=
  (EachBlock.cacheKept fun address => sized_collectEntries _ address).performAll h

end Used

end MipsBase

end NgMips
