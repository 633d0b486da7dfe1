import NgMips.Proofs.Agree
import NgMips.Proofs.Invalidate
import NgMips.Proofs.Points
import NgMips.Proofs.Poll
import NgMips.Source.Machine

/-!
# Blocks and single instructions

One round of the cached interpreter against the plain interpreter.  A cached block holds the
words of memory at its addresses (`Decoded`); while that is so, an entry of it does what the
plain interpreter does at the same program counter (`runEntry_simulates`), a block what that
does in as many instructions as the block executed (`runBlock_simulates`), and a round the
same (`round_simulates`).

A round that has to build its block reads memory ahead of the program.  Such a read is only
harmless when the address is translated; at the end of the unmapped segments it may not be,
and without exceptions the fault then changes `BadVAddr` and `EntryHi`.
-/

namespace NgMips

namespace MipsBase

variable {δ : Type} {m : MipsSetup δ}

/-! ## Reading ahead -/

/-- Only registers of coprocessor 0 and of the translation unit changed. -/
def Ahead (s t : MipsBase MipsTlbNormal δ) : Prop := t = { s with cop0 := t.cop0, tlb := t.tlb }

lemma Ahead.refl (s : MipsBase MipsTlbNormal δ) : Ahead s s := rfl

lemma Ahead.trans {s t u : MipsBase MipsTlbNormal δ} (h : Ahead s t) (h' : Ahead t u) :
    Ahead s u := by
  rw [Ahead, h] at h'
  exact h'

/-- A fetch that fails raises an exception, which does not return, or nothing. -/
lemma ahead_fetch (hm : m.IsN64) (hpure : m.bus.FetchPure) (address : BitVec 64) :
    Prog.Moves Ahead (fetch (T := MipsTlbNormal) m address) := by
  intro s opcode t h
  cases hfound : (translateAddress s.tlb address).found with
  | true =>
      rw [fetch_found hfound, fetched_of_pure hpure] at h
      rw [← Prog.state_eq h]
      exact .refl s
  | false =>
      cases hexc : m.config.hasException with
      | true =>
          have hok := (fetch_ok hm hexc h).1
          exact absurd (hfound.symm.trans hok) (by simp)
      | false =>
          rw [fetch, fetchWith_fault hm _ hfound, triggerException_off hexc] at h
          rw [← Prog.state_eq h]
          rfl

lemma ahead_fetchEntry (hm : m.IsN64) (hpure : m.bus.FetchPure) (address : BitVec 64) :
    Prog.Moves Ahead (fetchEntry (T := MipsTlbNormal) m address) :=
  .bind (fun _ _ _ => .trans) (ahead_fetch hm hpure address) fun _ => .of_pure .refl _

lemma ahead_buildBlock (hm : m.IsN64) (hpure : m.bus.FetchPure) (address : BitVec 64) :
    Prog.Moves Ahead (buildBlock (T := MipsTlbNormal) m address) := by
  have hbuilt := built_buildBlock (P := fun α x => Prog.Moves Ahead x)
    (fun address => .op (ahead_fetch hm hpure address)) address
  exact hbuilt.moves .refl (fun _ _ _ => .trans) fun _ _ h => h

lemma fetch_inKseg (hpure : m.bus.FetchPure) {address : BitVec 64} (h : inKseg address)
    (s : MipsBase MipsTlbNormal δ) :
    fetch m address s = .ok (m.bus.word s.device (ksegPhysical address), s) := by
  have htrans : translateAddress s.tlb address =
      { found := true, readOnly := false, address := ksegPhysical address } :=
    MipsTlbNormal.translateAddress_of_inKseg _ h
  have hfound : (translateAddress s.tlb address).found = true := by rw [htrans]
  rw [fetch_found hfound, fetched_of_pure hpure, wordAt, htrans]

/-- A fetch changes nothing when the address is translated, and does not return otherwise
when there are exceptions. -/
lemma fetch_same (hm : m.IsN64) (hpure : m.bus.FetchPure) {address : BitVec 64}
    {opcode : BitVec 32} {s t : MipsBase MipsTlbNormal δ}
    (hmapped : m.config.hasException = true ∨ (translateAddress s.tlb address).found = true)
    (h : fetch m address s = .ok (opcode, t)) : opcode = wordAt m address s ∧ t = s := by
  have hfound : (translateAddress s.tlb address).found = true := by
    rcases hmapped with hexc | hfound
    · exact (fetch_ok hm hexc h).1
    · exact hfound
  rw [fetch_found hfound, fetched_of_pure hpure] at h
  obtain ⟨hop, ht⟩ := Prog.ok_inj h
  exact ⟨hop.symm, ht.symm⟩

/-! ## Entries and memory -/

/-- The address of an entry, as the block loop compares it with the program counter. -/
def entryPc (entry : MipsCacheEntry) : BitVec 64 := entry.address.setWidth 64

/-- The entry is the word of memory at its address, decoded, when its address is an unmapped
one. -/
def Decoded (m : MipsSetup δ) (d : δ) (entry : MipsCacheEntry) : Prop :=
  inKseg (entryPc entry) → entry.opcode = m.bus.word d (ksegPhysical (entryPc entry)) ∧
    entry.func = getInstFuncPtr m.kIs64Bit entry.opcode

lemma entryPc_sameLow (address : BitVec 64) :
    SameLow ((address.setWidth 32).setWidth 64) address := by
  rw [← SameLow.mask_eq]
  exact .of_masked address

lemma fetchEntry_ok (hm : m.IsN64) (hpure : m.bus.FetchPure) {address : BitVec 64}
    {entry : MipsCacheEntry} {s t : MipsBase MipsTlbNormal δ}
    (h : fetchEntry m address s = .ok (entry, t)) :
    entry.address = address.setWidth 32 ∧ Decoded m s.device entry ∧ t.device = s.device := by
  have hdevice : t.device = s.device := by rw [ahead_fetchEntry hm hpure _ _ _ _ h]
  obtain ⟨opcode, t', hfetch, hrest⟩ := Prog.bind_ok.mp h
  obtain ⟨rfl, rfl⟩ := Prog.ok_inj hrest
  refine ⟨rfl, fun hkseg => ⟨?_, rfl⟩, hdevice⟩
  have hlow := entryPc_sameLow address
  have hkseg' : inKseg address := hlow.inKseg ▸ hkseg
  rw [fetch_inKseg hpure hkseg'] at hfetch
  show opcode = m.bus.word s.device (NgMips.ksegPhysical ((address.setWidth 32).setWidth 64))
  rw [← (Prog.ok_inj hfetch).1, hlow.ksegPhysical]

variable (m) in
/-- How a block is collected: it ends with an instruction, or with the delay slot of one, or goes
on. -/
inductive Collected (n : ℕ) (address : BitVec 64) (s t : MipsBase MipsTlbNormal δ) :
    List MipsCacheEntry → Prop
  | ends {entry : MipsCacheEntry} (hentry : fetchEntry m address s = .ok (entry, t))
      (hbranch : isInstBranch entry.opcode = true)
      (hdelay : doesInstHaveDelaySlot entry.opcode = false) : Collected n address s t [entry]
  | slot {entry slot : MipsCacheEntry} {u : MipsBase MipsTlbNormal δ}
      (hentry : fetchEntry m address s = .ok (entry, u))
      (hbranch : isInstBranch entry.opcode = true)
      (hdelay : doesInstHaveDelaySlot entry.opcode = true)
      (hslot : fetchEntry m (address + 4) u = .ok (slot, t)) : Collected n address s t [entry, slot]
  | next {entry : MipsCacheEntry} {rest : List MipsCacheEntry} {u : MipsBase MipsTlbNormal δ}
      (hentry : fetchEntry m address s = .ok (entry, u))
      (hbranch : isInstBranch entry.opcode = false)
      (hrest : collectEntries m n (address + 4) u = .ok (rest, t)) :
      Collected n address s t (entry :: rest)

lemma collectEntries_cases {n : ℕ} {address : BitVec 64} {entries : List MipsCacheEntry}
    {s t : MipsBase MipsTlbNormal δ} (h : collectEntries m (n + 1) address s = .ok (entries, t)) :
    Collected m n address s t entries := by
  rw [collectEntries] at h
  obtain ⟨entry, u, hentry, hrest⟩ := Prog.bind_ok.mp h
  split at hrest
  · next hbranch =>
      split at hrest
      · next hdelay =>
          obtain ⟨slot, v, hslot, hend⟩ := Prog.bind_ok.mp hrest
          obtain ⟨rfl, rfl⟩ := Prog.ok_inj hend
          exact .slot hentry hbranch hdelay hslot
      · next hdelay =>
          obtain ⟨rfl, rfl⟩ := Prog.ok_inj hrest
          exact .ends hentry hbranch (by simpa using hdelay)
  · next hbranch =>
      obtain ⟨rest, v, hcollect, hend⟩ := Prog.bind_ok.mp hrest
      obtain ⟨rfl, rfl⟩ := Prog.ok_inj hend
      exact .next hentry (by simpa using hbranch) hcollect

/-- The entries `OnNewBlock` collects are the words of memory. -/
lemma collectEntries_decoded (hm : m.IsN64) (hpure : m.bus.FetchPure) (n : ℕ)
    {address : BitVec 64} {entries : List MipsCacheEntry} {s t : MipsBase MipsTlbNormal δ}
    (h : collectEntries m n address s = .ok (entries, t)) :
    ∀ entry ∈ entries, Decoded m s.device entry := by
  induction n generalizing address entries s t with
  | zero =>
      obtain ⟨rfl, -⟩ := Prog.ok_inj h
      simp
  | succ n ih =>
      intro e he
      cases collectEntries_cases h with
      | ends hentry hbranch hdelay =>
          obtain rfl := List.mem_singleton.mp he
          exact (fetchEntry_ok hm hpure hentry).2.1
      | slot hentry hbranch hdelay hslot =>
          obtain ⟨-, hdecoded, hdevice⟩ := fetchEntry_ok hm hpure hentry
          rcases List.mem_cons.mp he with rfl | he
          · exact hdecoded
          · obtain rfl := List.mem_singleton.mp he
            rw [← hdevice]
            exact (fetchEntry_ok hm hpure hslot).2.1
      | next hentry hbranch hrest =>
          obtain ⟨-, hdecoded, hdevice⟩ := fetchEntry_ok hm hpure hentry
          rcases List.mem_cons.mp he with rfl | he
          · exact hdecoded
          · rw [← hdevice]
            exact ih hrest e he

/-- The first entry has the address the block was built for. -/
lemma collectEntries_head (hm : m.IsN64) (hpure : m.bus.FetchPure) {n : ℕ}
    {address : BitVec 64} {entries : List MipsCacheEntry} {s t : MipsBase MipsTlbNormal δ}
    (h : collectEntries m (n + 1) address s = .ok (entries, t)) :
    ∃ entry rest, entries = entry :: rest ∧ entry.address = address.setWidth 32 := by
  cases collectEntries_cases h with
  | ends hentry _ _ => exact ⟨_, _, rfl, (fetchEntry_ok hm hpure hentry).1⟩
  | slot hentry _ _ _ => exact ⟨_, _, rfl, (fetchEntry_ok hm hpure hentry).1⟩
  | next hentry _ _ => exact ⟨_, _, rfl, (fetchEntry_ok hm hpure hentry).1⟩

/-! ## The addresses read ahead -/

/-- The addresses `OnNewBlock` reads for a block of at most `n` entries, delay slot apart. -/
def lookAhead (m : MipsSetup δ) (s : MipsBase MipsTlbNormal δ) : ℕ → BitVec 64 → List (BitVec 64)
  | 0, _ => []
  | n + 1, address =>
      if isInstBranch (wordAt m address s) then
        if doesInstHaveDelaySlot (wordAt m address s) then [address, address + 4] else [address]
      else address :: lookAhead m s n (address + 4)

lemma fetchEntry_same (hm : m.IsN64) (hpure : m.bus.FetchPure) {address : BitVec 64}
    {entry : MipsCacheEntry} {s t : MipsBase MipsTlbNormal δ}
    (hmapped : m.config.hasException = true ∨ (translateAddress s.tlb address).found = true)
    (h : fetchEntry m address s = .ok (entry, t)) : entry.opcode = wordAt m address s ∧ t = s := by
  obtain ⟨opcode, u, hfetch, hend⟩ := Prog.bind_ok.mp h
  obtain ⟨rfl, rfl⟩ := Prog.ok_inj hend
  exact fetch_same hm hpure hmapped hfetch

/-- Reading ahead changes nothing when the addresses are translated. -/
lemma collectEntries_same (hm : m.IsN64) (hpure : m.bus.FetchPure) (n : ℕ)
    {address : BitVec 64} {entries : List MipsCacheEntry} {s t : MipsBase MipsTlbNormal δ}
    (hmapped : m.config.hasException = true ∨
      ∀ a ∈ lookAhead m s n address, (translateAddress s.tlb a).found = true)
    (h : collectEntries m n address s = .ok (entries, t)) : t = s := by
  induction n generalizing address entries t with
  | zero => exact (Prog.state_eq h).symm
  | succ n ih =>
      have hhead : address ∈ lookAhead m s (n + 1) address := by
        rw [lookAhead]
        split
        · split <;> simp
        · simp
      have hfirst : ∀ {entry u}, fetchEntry m address s = .ok (entry, u) →
          entry.opcode = wordAt m address s ∧ u = s := fun hentry =>
        fetchEntry_same hm hpure (hmapped.imp_right fun hall => hall _ hhead) hentry
      cases collectEntries_cases h with
      | ends hentry _ _ => exact (hfirst hentry).2
      | slot hentry hbranch hdelay hslot =>
          obtain ⟨hop, hsame⟩ := hfirst hentry
          rw [hsame] at hslot
          have hmem : address + 4 ∈ lookAhead m s (n + 1) address := by
            rw [lookAhead, ← hop, if_pos hbranch, if_pos hdelay]
            simp
          exact (fetchEntry_same hm hpure (hmapped.imp_right fun hall => hall _ hmem) hslot).2
      | next hentry hbranch hrest =>
          obtain ⟨hop, hsame⟩ := hfirst hentry
          rw [hsame] at hrest
          refine ih (hmapped.imp_right fun hall a ha => hall a ?_) hrest
          rw [lookAhead, ← hop, if_neg (by simp [hbranch])]
          exact List.mem_cons_of_mem _ ha

/-! ## Blocks and memory -/

/-- `OnNewBlock` built the block for an unmapped address, and memory holds the words it then
held. -/
def BuiltFor (m : MipsSetup δ) (d : δ) (address : BitVec 64) (block : MipsCacheBlock) : Prop :=
  ∃ s t : MipsBase MipsTlbNormal δ, (∀ a, m.bus.word s.device a = m.bus.word d a) ∧
    buildBlock m (address &&& 0xFFFFFFFF) s = .ok (block, t)

/-- Every cached block was built by `OnNewBlock`, for some unmapped address, from what
memory holds now. -/
def BlocksPresent (m : MipsSetup δ) (s : MipsBase MipsTlbNormal δ) : Prop :=
  ∀ e ∈ s.cache.cache.values, ∃ address block, ∃ tlb : MipsTlbNormal,
    inKseg address ∧ BuiltFor m s.device address block ∧
      MipsCache.placeBlock tlb block = some e.2 ∧ e.1 = e.2.key

/-- The entries are the words of memory, and the first of them is for an address that is the
same physical one as the program counter. -/
structure Present (m : MipsSetup δ) (d : δ) (pc : BitVec 64) (entries : List MipsCacheEntry) :
    Prop where
  decoded : ∀ entry ∈ entries, Decoded m d entry
  head : ∃ entry rest, entries = entry :: rest ∧ inKseg (entryPc entry) ∧
    ksegPhysical (entryPc entry) = ksegPhysical pc

lemma ksegPhysical_setWidth (address : BitVec 64) :
    ((ksegPhysical address).setWidth 32).setWidth 64 = ksegPhysical address := by
  rw [← SameLow.mask_eq, ksegPhysical, BitVec.and_assoc]
  rfl

/-- Where the map keeps a block that was built for an unmapped address. -/
lemma placeBlock_inKseg {address : BitVec 64} (h : inKseg address) {block : MipsCacheBlock}
    (hstart : block.start = (address &&& 0xFFFFFFFF).setWidth 32) (tlb : MipsTlbNormal) :
    ∃ b, MipsCache.placeBlock tlb block = some b ∧ b.key = ksegPhysical address ∧
      b.end_ = (ksegPhysical address + (block.end_ - block.start).setWidth 64).setWidth 32 ∧
      b.entries = block.entries := by
  have hlow : SameLow (block.start.setWidth 64) address := by
    rw [hstart]
    exact (entryPc_sameLow _).trans (.of_masked address)
  have htrans : translateAddress tlb (block.start.setWidth 64) =
      { found := true, readOnly := false, address := ksegPhysical address } := by
    rw [← hlow.ksegPhysical]
    exact MipsTlbNormal.translateAddress_of_inKseg _ (hlow.inKseg ▸ h)
  simp only [MipsCache.placeBlock, htrans, Bool.not_true, Bool.false_eq_true, if_false]
  exact ⟨_, rfl, ksegPhysical_setWidth address, rfl, rfl⟩

lemma present_of_built (hm : m.IsN64) (hpure : m.bus.FetchPure) {d : δ}
    {address pc : BitVec 64} {block : MipsCacheBlock} (hkseg : inKseg address)
    (hbuilt : BuiltFor m d address block) (hphys : ksegPhysical address = ksegPhysical pc) :
    Present m d pc block.entries := by
  obtain ⟨s, t, hwords, hbuild⟩ := hbuilt
  obtain ⟨entries, u, hcollect, hrest⟩ := Prog.bind_ok.mp hbuild
  obtain ⟨rfl, -⟩ := Prog.ok_inj hrest
  obtain ⟨entry, rest, hentries, haddress⟩ := collectEntries_head hm hpure hcollect
  have hlow : SameLow (entryPc entry) address := by
    rw [entryPc, haddress]
    exact (entryPc_sameLow _).trans (.of_masked address)
  refine ⟨fun e he hkseg' => ?_, entry, rest, hentries, hlow.inKseg ▸ hkseg, ?_⟩
  · rw [← hwords]
    exact collectEntries_decoded hm hpure _ hcollect e he hkseg'
  · rw [hlow.ksegPhysical, hphys]

/-! ## The block at the program counter -/

/-- The state after queued invalidations were applied. -/
def cleared (m : MipsSetup δ) (s : MipsBase MipsTlbNormal δ) : MipsBase MipsTlbNormal δ :=
  { s with cache := if s.cache.hasPendingWork then s.cache.executeCacheClear m.ord else s.cache }

lemma executeCacheClear_run (s : MipsBase MipsTlbNormal δ) :
    executeCacheClear m s = .ok ((), cleared m s) := by
  rw [executeCacheClear, Prog.modify_run, cleared]
  split <;> rfl

lemma cleared_subset {s : MipsBase MipsTlbNormal δ} {e : BitVec 64 × MipsCacheBlock}
    (he : e ∈ (cleared m s).cache.cache.values) : e ∈ s.cache.cache.values := by
  simp only [cleared] at he
  split at he
  · exact MipsCache.mem_values_executeCacheClear he
  · exact he

/-- How `RunCached` comes by the block it executes: it finds it in the map, or builds it and
stores it under the physical address of the program counter. -/
inductive Entered (m : MipsSetup δ) (s : MipsBase MipsTlbNormal δ) (block : MipsCacheBlock)
    (t : MipsBase MipsTlbNormal δ) : Prop
  | hit (hmem : (ksegPhysical s.pc, block) ∈ (cleared m s).cache.cache.values)
      (ht : t = { s with cache := ((cleared m s).cache.getBlock s.tlb s.pc).2 })
  | built {b : MipsCacheBlock} {u : MipsBase MipsTlbNormal δ}
      (hmiss : ksegPhysical s.pc ∉ (cleared m s).cache.cache.keys)
      (hbuild : buildBlock m (s.pc &&& 0xFFFFFFFF) (cleared m s) = .ok (b, u))
      (hplace : MipsCache.placeBlock u.tlb b = some block)
      (hkey : block.key = ksegPhysical s.pc)
      (ht : t = { u with
        cache := (((cleared m s).cache.insertBlock u.tlb b).getBlock u.tlb s.pc).2 })

lemma physicalKey_inKseg {address : BitVec 64} (h : inKseg address) (tlb : MipsTlbNormal) :
    MipsCache.physicalKey tlb address = some (ksegPhysical address) := by
  have hmask : address &&& 0xFFFFFFFF &&& 0x1FFFFFFF = ksegPhysical address := by
    rw [ksegPhysical, BitVec.and_assoc]
    rfl
  simp only [inKseg] at h
  simp only [MipsCache.physicalKey, h, if_true, hmask]

/-- With live pointers, `GetBlock` at an unmapped address finds what the map holds. -/
lemma getBlock_run {s : MipsBase MipsTlbNormal δ} (hkseg : inKseg s.pc)
    (hlive : s.cache.LookupLive) :
    getBlock s = .ok (s.cache.cache.find (ksegPhysical s.pc),
      { s with cache := (s.cache.getBlock s.tlb s.pc).2 }) := by
  have hfst := MipsCache.getBlock_eq_find s.tlb hlive s.pc
  rw [physicalKey_inKseg hkseg, Option.bind_some] at hfst
  rw [← hfst]
  rfl

lemma derefBlock_ok {i : ℕ} {block : MipsCacheBlock} {s t : MipsBase MipsTlbNormal δ}
    (h : derefBlock i s = .ok (block, t)) :
    t = s ∧ ∃ k, s.cache.cache.values[i]? = some (k, block) := by
  rw [derefBlock] at h
  split at h
  · next hderef =>
      obtain ⟨rfl, rfl⟩ := Prog.ok_inj h
      obtain ⟨⟨k, b⟩, hget, rfl⟩ := Option.map_eq_some_iff.mp hderef
      exact ⟨rfl, k, hget⟩
  · exact absurd h (by simp)

/-- The element at the position a lookup returns is the one of the key. -/
lemma mem_of_find {map : BlockMap} {k k' : BitVec 64} {i : ℕ} {block : MipsCacheBlock}
    (hfind : map.find k = some i) (hget : map.values[i]? = some (k', block)) :
    (k, block) ∈ map.values := by
  obtain ⟨b, hb⟩ := map.find_eq_some_iff.mp hfind
  have heq := Option.some.inj (hb.symm.trans hget)
  rw [← (Prod.mk.inj heq).2]
  exact List.mem_of_getElem? hb

/-- The start of a built block. -/
lemma buildBlock_start {address : BitVec 64} {b : MipsCacheBlock}
    {s u : MipsBase MipsTlbNormal δ} (h : buildBlock m address s = .ok (b, u)) :
    b.start = address.setWidth 32 := by
  obtain ⟨entries, v, -, hrest⟩ := Prog.bind_ok.mp h
  rw [← (Prog.ok_inj hrest).1]

/-- A block that is built at the program counter goes to the map, and the pointers are live. -/
lemma onNewBlock_inserts (hm : m.IsN64) (hpure : m.bus.FetchPure) {s w : MipsBase MipsTlbNormal δ}
    (hkseg : inKseg s.pc) (h : onNewBlock m s.pc s = .ok ((), w)) :
    ∃ b b' x, buildBlock m (s.pc &&& 0xFFFFFFFF) s = .ok (b, x) ∧ x.pc = s.pc ∧
      MipsCache.placeBlock x.tlb b = some b' ∧ b'.key = ksegPhysical s.pc ∧
      w = { x with cache := s.cache.insertBlock x.tlb b } ∧ w.cache.LookupLive ∧
      w.cache.cache = s.cache.cache.insert (ksegPhysical s.pc) b' := by
  obtain ⟨b, x, hbuild, hinsert⟩ := Prog.bind_ok.mp h
  have hahead := ahead_buildBlock hm hpure _ _ _ _ hbuild
  obtain ⟨b', hplace, hkey, -⟩ := placeBlock_inKseg hkseg (buildBlock_start hbuild) x.tlb
  have hw : w = { x with cache := s.cache.insertBlock x.tlb b } := by
    have hxcache : x.cache = s.cache := by rw [hahead]
    rw [← hxcache]
    exact (Prog.state_eq hinsert).symm
  refine ⟨b, b', x, hbuild, by rw [hahead], hplace, hkey, hw, ?_, ?_⟩
  · rw [hw]
    simp only [MipsCache.insertBlock, hplace]
    exact MipsCache.lookupLive_of_null fun _ => rfl
  · rw [hw, ← hkey]
    simp only [MipsCache.insertBlock, hplace]

/-- When no pointer denotes the block of another key, the block that is executed is the one of the
program counter. -/
lemma enterBlock_own (hm : m.IsN64) (hpure : m.bus.FetchPure) {block : MipsCacheBlock}
    {s t : MipsBase MipsTlbNormal δ} (hkseg : inKseg s.pc)
    (hown : (cleared m s).cache.PointersOwn) (h : enterBlock m s = .ok (block, t)) :
    Entered m s block t := by
  rw [enterBlock, Prog.bind_of_ok (executeCacheClear_run s)] at h
  obtain ⟨i, u, hget, hderef⟩ := Prog.bind_ok.mp h
  obtain ⟨rfl, k, hvalues⟩ := derefBlock_ok hderef
  have hpc : (cleared m s).pc = s.pc := rfl
  have htlb : (cleared m s).tlb = s.tlb := rfl
  have hkey := physicalKey_inKseg hkseg s.tlb
  have hrun : getBlock (cleared m s) = .ok (((cleared m s).cache.getBlock s.tlb s.pc).1,
      { cleared m s with cache := ((cleared m s).cache.getBlock s.tlb s.pc).2 }) := rfl
  rw [getOrBuildBlock, Prog.bind_of_ok hrun] at hget
  cases hfirst : ((cleared m s).cache.getBlock s.tlb s.pc).1 with
  | some j =>
      rw [hfirst] at hget
      obtain ⟨rfl, rfl⟩ := Prog.ok_inj hget
      rw [(MipsCache.getBlock_cache _ _ _).1] at hvalues
      obtain rfl : k = ksegPhysical s.pc := MipsCache.getBlock_key hown hkey hfirst hvalues
      exact .hit (List.mem_of_getElem? hvalues) rfl
  | none =>
      obtain ⟨hfind, hmiss⟩ := MipsCache.getBlock_none hkey hfirst
      rw [hfirst, hmiss] at hget
      change (read MipsBase.pc >>= _ : CpuM MipsTlbNormal δ ℕ) (cleared m s) = _ at hget
      rw [Prog.bind_of_ok (read_run _ _)] at hget
      obtain ⟨⟨⟩, w, hnew, hagain⟩ := Prog.bind_ok.mp hget
      obtain ⟨b, b', x, hbuild, hxpc, hplace, hbkey, hw, hwlive, hmap⟩ :=
        onNewBlock_inserts (s := cleared m s) hm hpure hkseg hnew
      -- The second lookup finds what was just put into the map.
      have hwpc : w.pc = s.pc := by rw [hw, hxpc, hpc]
      have hwtlb : w.tlb = x.tlb := by rw [hw]
      have hrun' := getBlock_run (hwpc ▸ hkseg) hwlive
      rw [hwpc, hwtlb] at hrun'
      rw [Prog.bind_of_ok hrun'] at hagain
      have hfresh : ksegPhysical s.pc ∉ (cleared m s).cache.cache.keys :=
        (DenseMap.find_eq_none_iff _).mp hfind
      cases hfound : w.cache.cache.find (ksegPhysical s.pc) with
      | none =>
          rw [hfound] at hagain
          exact absurd hagain (by simp)
      | some j =>
          rw [hfound] at hagain
          obtain ⟨rfl, rfl⟩ := Prog.ok_inj hagain
          rw [(MipsCache.getBlock_cache _ _ _).1] at hvalues
          have hmem := mem_of_find hfound hvalues
          rw [hmap] at hmem
          rw [DenseMap.eq_of_mem _ hmem (DenseMap.mem_insert_self _ hfresh)]
          refine .built hfresh hbuild hplace hbkey ?_
          rw [hw, hxpc, hpc]

/-- With live pointers, the block that is executed is the one of the program counter. -/
lemma enterBlock_entered (hm : m.IsN64) (hpure : m.bus.FetchPure) {block : MipsCacheBlock}
    {s t : MipsBase MipsTlbNormal δ} (hkseg : inKseg s.pc)
    (hlive : (cleared m s).cache.LookupLive) (h : enterBlock m s = .ok (block, t)) :
    Entered m s block t := enterBlock_own hm hpure hkseg hlive.pointersOwn h

/-- Coming by a block that has to be built adds it to the map; otherwise the map is what was
left of it after the queue was worked off. -/
lemma Entered.mem {block : MipsCacheBlock} {s t : MipsBase MipsTlbNormal δ}
    (h : Entered m s block t) {e : BitVec 64 × MipsCacheBlock} (he : e ∈ t.cache.cache.values) :
    e ∈ (cleared m s).cache.cache.values ∨
      (e = (ksegPhysical s.pc, block) ∧ ksegPhysical s.pc ∉ (cleared m s).cache.cache.keys) := by
  cases h with
  | hit hmem ht =>
      rw [ht, (MipsCache.getBlock_cache _ _ _).1] at he
      exact .inl he
  | built hmiss hbuild hplace hkey ht =>
      rw [ht, (MipsCache.getBlock_cache _ _ _).1] at he
      simp only [MipsCache.insertBlock, hplace] at he
      rcases DenseMap.mem_insert _ he with hold | ⟨-, hk, hb⟩
      · exact .inl hold
      · exact .inr ⟨Prod.ext (hk.trans hkey) hb, hmiss⟩

/-- When `OnNewBlock` has to build the block at the program counter, it only reads translated
addresses; with exceptions it does not return otherwise. -/
def AheadMapped (m : MipsSetup δ) (s : MipsBase MipsTlbNormal δ) : Prop :=
  m.config.hasException = true ∨ ksegPhysical s.pc ∈ (cleared m s).cache.cache.keys ∨
    ∀ address ∈ lookAhead m s (kCacheBlockMaxLength - 1) (s.pc &&& 0xFFFFFFFF),
      (translateAddress s.tlb address).found = true

lemma lookAhead_congr {s t : MipsBase MipsTlbNormal δ} (hdevice : t.device = s.device)
    (htlb : t.tlb = s.tlb) (n : ℕ) (address : BitVec 64) :
    lookAhead m t n address = lookAhead m s n address := by
  have hword : ∀ a, wordAt m a t = wordAt m a s := by
    intro a
    rw [wordAt, wordAt, hdevice, htlb]
  induction n generalizing address with
  | zero => rfl
  | succ n ih => simp only [lookAhead, hword, ih]

/-- The block that is executed holds the words of memory, and coming by it changed only the
cache. -/
lemma Entered.present (hm : m.IsN64) (hpure : m.bus.FetchPure) {block : MipsCacheBlock}
    {s t : MipsBase MipsTlbNormal δ} (hkseg : inKseg s.pc) (hblocks : BlocksPresent m s)
    (hmapped : AheadMapped m s) (h : Entered m s block t) :
    Present m s.device s.pc block.entries ∧ t = { s with cache := t.cache } := by
  cases h with
  | hit hmem ht =>
      refine ⟨?_, by rw [ht]⟩
      obtain ⟨address, b, tlb, hkseg', hbuilt, hplace, hkey⟩ := hblocks _ (cleared_subset hmem)
      obtain ⟨s₀, t₀, -, hbuild⟩ := id hbuilt
      obtain ⟨b', hplace', hkey', -, hentries⟩ :=
        placeBlock_inKseg hkseg' (buildBlock_start hbuild) tlb
      obtain rfl : b' = block := Option.some.inj (hplace'.symm.trans hplace)
      rw [hentries]
      refine present_of_built hm hpure hkseg' hbuilt ?_
      rw [← hkey', ← hkey]
  | built hmiss hbuild hplace hkey ht =>
      rename_i b u
      have hbuilt : BuiltFor m s.device s.pc b :=
        ⟨cleared m s, u, fun a => rfl, hbuild⟩
      obtain ⟨b', hplace', -, -, hentries⟩ :=
        placeBlock_inKseg hkseg (buildBlock_start hbuild) u.tlb
      obtain rfl : b' = block := Option.some.inj (hplace'.symm.trans hplace)
      refine ⟨hentries ▸ present_of_built hm hpure hkseg hbuilt rfl, ?_⟩
      obtain ⟨entries, v, hcollect, hrest⟩ := Prog.bind_ok.mp hbuild
      have hsame : v = cleared m s := by
        refine collectEntries_same hm hpure _ ?_ hcollect
        rcases hmapped with hexc | hkey | hall
        · exact .inl hexc
        · exact absurd hkey hmiss
        · rw [lookAhead_congr (m := m) (s := s) (t := cleared m s) rfl rfl]
          exact .inr hall
      have hu : u = cleared m s := by rw [← Prog.state_eq hrest, hsame]
      rw [ht, hu, cleared]

/-! ## One instruction -/

/-- An instruction of unmapped code that the interpreters execute alike: it reads neither
`Count` nor the whole of `EPC`. -/
structure QuietInst (opcode : BitVec 32) (func : MipsInstId) (pc : BitVec 64) : Prop where
  segment : inKseg pc
  slot : func.hasDelaySlot = true → inKseg (pc + 4)
  read : QuietRead opcode func

lemma agree_started {opcode : BitVec 32} {s t : MipsBase MipsTlbNormal δ} (h : Agree s t) :
    Agree (started opcode s) (started opcode t) := by
  have hnext : SameLow (started opcode s).nextPc (started opcode t).nextPc := by
    show SameLow (if s.hasBranchDelay then s.branchDelayDst else s.pc + 4)
      (if t.hasBranchDelay then t.branchDelayDst else t.pc + 4)
    rw [← h.hasBranchDelay]
    split
    · next hbd => exact h.branchDelayDst hbd
    · exact h.pc.add 4
  exact { h with
    nextPc := hnext, hasBranchDelay := rfl
    branchDelayDst := fun hno => absurd hno (by simp [started, advanced]) }

/-- An entry that holds the word at the program counter does what the plain interpreter does
there. -/
lemma runEntry_simulates (hm : m.IsN64) (hpure : m.bus.FetchPure) {entry : MipsCacheEntry}
    {s t s' : MipsBase MipsTlbNormal δ} (h : Agree s t)
    (hop : entry.opcode = m.bus.word s.device (ksegPhysical s.pc))
    (hfunc : entry.func = getInstFuncPtr m.kIs64Bit entry.opcode)
    (hquiet : QuietInst entry.opcode entry.func s.pc) (hrun : runEntry m entry s = .ok ((), s')) :
    ∃ t', runInst m t = .ok ((), t') ∧ Agree s' t' := by
  obtain ⟨u, hcall, rfl⟩ := runEntry_ok.mp hrun
  obtain ⟨v, hcall', hagree⟩ :=
    callInst_agree hm hpure hquiet.read (agree_started h) hquiet.slot hcall
  have hfetch : fetch m t.pc t = .ok (entry.opcode, t) := by
    rw [fetch_inKseg hpure (h.pc.inKseg ▸ hquiet.segment), hop, h.pc.ksegPhysical, h.device]
  rw [hfunc] at hcall'
  refine ⟨_, runInst_ok.mpr ⟨entry.opcode, t, v, hfetch, hcall', rfl⟩, ?_⟩
  have hpc : SameLow (u.nextPc &&& 0xFFFFFFFF) (v.nextPc &&& BitVec.allOnes 64) := by
    rw [BitVec.and_allOnes]
    exact (SameLow.of_masked _).trans hagree.nextPc
  exact { hagree with pc := hpc }

/-! ## A block -/

/-- What the program does not do at an executed entry: besides the above, it leaves the words
of the entries that follow. -/
structure QuietEntry (m : MipsSetup δ) (entry : MipsCacheEntry) (rest : List MipsCacheEntry)
    (s : MipsBase MipsTlbNormal δ) : Prop where
  inst : QuietInst entry.opcode entry.func s.pc
  words : ∀ s', runEntry m entry s = .ok ((), s') → ∀ e ∈ rest,
    m.bus.word s'.device (ksegPhysical (entryPc e)) = m.bus.word s.device (ksegPhysical (entryPc e))

/-- The entries that are executed, from the one that has to be at the program counter, are
quiet. -/
def QuietEntries (m : MipsSetup δ) : List MipsCacheEntry → MipsBase MipsTlbNormal δ → Prop
  | [], _ => True
  | entry :: rest, s => s.pc = entryPc entry → QuietEntry m entry rest s ∧
      ∀ s', runEntry m entry s = .ok ((), s') → QuietEntries m rest s'

/-- The entries of a block that are executed are quiet. -/
def QuietBlock (m : MipsSetup δ) : List MipsCacheEntry → MipsBase MipsTlbNormal δ → Prop
  | [], _ => True
  | entry :: rest, s => QuietEntry m entry rest s ∧
      ∀ s', runEntry m entry s = .ok ((), s') → QuietEntries m rest s'

lemma decoded_of_words {d d' : δ} {entry : MipsCacheEntry}
    (hwords : m.bus.word d' (ksegPhysical (entryPc entry)) =
      m.bus.word d (ksegPhysical (entryPc entry))) (h : Decoded m d entry) :
    Decoded m d' entry := by
  intro hkseg
  rw [hwords]
  exact h hkseg

/-- The rest of a block does what the plain interpreter does in as many instructions. -/
lemma runEntries_simulates (hm : m.IsN64) (hpure : m.bus.FetchPure)
    (entries : List MipsCacheEntry) {s t s' : MipsBase MipsTlbNormal δ} {n : ℕ}
    (h : Agree s t) (hdecoded : ∀ entry ∈ entries, Decoded m s.device entry)
    (hquiet : QuietEntries m entries s) (hrun : runEntries m entries s = .ok (n, s')) :
    ∃ t', Prog.times (runInst m) n t = .ok ((), t') ∧ Agree s' t' := by
  induction entries generalizing s t n with
  | nil =>
      obtain ⟨rfl, rfl⟩ := Prog.ok_inj hrun
      exact ⟨t, rfl, h⟩
  | cons entry rest ih =>
      rw [runEntries, Prog.bind_of_ok (read_run _ _)] at hrun
      split at hrun
      · next hpc =>
          obtain ⟨⟨⟩, u, hentry, hrest⟩ := Prog.bind_ok.mp hrun
          obtain ⟨k, v, hmore, hend⟩ := Prog.bind_ok.mp hrest
          obtain ⟨rfl, rfl⟩ := Prog.ok_inj hend
          obtain ⟨hq, hqrest⟩ := hquiet hpc
          have hpc' : entryPc entry = s.pc := hpc.symm
          have hkseg : inKseg (entryPc entry) := by
            rw [hpc']
            exact hq.inst.segment
          obtain ⟨hop, hfunc⟩ := hdecoded entry List.mem_cons_self hkseg
          rw [hpc'] at hop
          obtain ⟨w, hinst, hagree⟩ := runEntry_simulates hm hpure h hop hfunc hq.inst hentry
          obtain ⟨t', htimes, hagree'⟩ := ih hagree
            (fun e he => decoded_of_words (hq.words u hentry e he)
              (hdecoded e (List.mem_cons_of_mem _ he))) (hqrest u hentry) hmore
          exact ⟨t', by rw [Prog.times_succ hinst, htimes], hagree'⟩
      · obtain ⟨rfl, rfl⟩ := Prog.ok_inj hrun
        exact ⟨t, rfl, h⟩

/-- A block does what the plain interpreter does in as many instructions, at least one.  The
first entry is executed under whichever address the program counter has. -/
lemma runBlock_simulates (hm : m.IsN64) (hpure : m.bus.FetchPure)
    {entries : List MipsCacheEntry} {s t s' : MipsBase MipsTlbNormal δ} {n : ℕ} (h : Agree s t)
    (hpresent : Present m s.device s.pc entries) (hquiet : QuietBlock m entries s)
    (hrun : runBlock m entries s = .ok (n, s')) :
    ∃ t', 1 ≤ n ∧ Prog.times (runInst m) n t = .ok ((), t') ∧ Agree s' t' := by
  obtain ⟨entry, rest, rfl, hkseg, hphys⟩ := hpresent.head
  obtain ⟨hq, hqrest⟩ := hquiet
  obtain ⟨⟨⟩, u, hentry, hrest⟩ := Prog.bind_ok.mp hrun
  obtain ⟨k, v, hmore, hend⟩ := Prog.bind_ok.mp hrest
  obtain ⟨rfl, rfl⟩ := Prog.ok_inj hend
  obtain ⟨hop, hfunc⟩ := hpresent.decoded entry List.mem_cons_self hkseg
  rw [hphys] at hop
  obtain ⟨w, hinst, hagree⟩ := runEntry_simulates hm hpure h hop hfunc hq.inst hentry
  obtain ⟨t', htimes, hagree'⟩ := runEntries_simulates hm hpure rest hagree
    (fun e he => decoded_of_words (hq.words u hentry e he)
      (hpresent.decoded e (List.mem_cons_of_mem _ he))) (hqrest u hentry) hmore
  exact ⟨t', Nat.le_add_left 1 k, by rw [Prog.times_succ hinst, htimes], hagree'⟩

/-! ## A round -/

/-- The state with the interrupt lines of another one: the timer interrupt and `Cause`. -/
def withLines (lines s : MipsBase MipsTlbNormal δ) : MipsBase MipsTlbNormal δ :=
  { s with
    compareInterrupt := lines.compareInterrupt
    cop0 := { s.cop0 with cause := lines.cop0.cause } }

lemma agree_checkCompareInterrupt (c : MipsCop0) (timestamp : BitVec 64) :
    (c.checkCompareInterrupt timestamp).2.Agree c := by
  rw [MipsCop0.checkCompareInterrupt]
  split
  · exact ⟨rfl, rfl, rfl, rfl, rfl, rfl, rfl, rfl⟩
  · split
    · exact ⟨rfl, rfl, rfl, rfl, rfl, rfl, rfl, rfl⟩
    · split <;> exact ⟨rfl, rfl, rfl, rfl, rfl, rfl, rfl, rfl⟩

/-- What a poll that takes no interrupt does: it counts, checks the timer and copies the
interrupt lines. -/
structure Polled (s s' : MipsBase MipsTlbNormal δ) : Prop where
  eq : s' = { s with
    interruptPollCounter := s'.interruptPollCounter
    compareInterrupt := s'.compareInterrupt
    cop0 := s'.cop0 }
  cop0 : s'.cop0.Agree { s.cop0 with cause := s'.cop0.cause }

lemma Polled.agree {s s' : MipsBase MipsTlbNormal δ} (h : Polled s s') :
    Agree s' (withLines s' s) := by
  have hrefl := Agree.refl (withLines s' s)
  rw [h.eq]
  exact { hrefl with cop0 := h.cop0 }

lemma polled_checked (s : MipsBase MipsTlbNormal δ) (compareInterrupt : Bool) :
    Polled s { checked m s with compareInterrupt := compareInterrupt } := by
  refine ⟨rfl, ?_⟩
  have hcop0 := agree_checkCompareInterrupt (latched m s).cop0 s.timestamp
  exact { hcop0 with cause := rfl }

lemma checkCompare_polled (hm : m.IsN64) {s s' : MipsBase MipsTlbNormal δ}
    (hno : m.config.hasException = true → ¬ (m.config.hasIsolateCacheBit = false ∧
      (s.cop0.checkCompareInterrupt s.timestamp).1 = true ∧ InterruptReady m (withTimer s)))
    (h : checkCompare m s = .ok ((), s')) : Polled s s' := by
  cases checkCompare_cases hm h with
  | isolated _ hstate =>
      rw [hstate]
      exact ⟨rfl, ⟨rfl, rfl, rfl, rfl, rfl, rfl, rfl, rfl⟩⟩
  | before _ _ hstate =>
      rw [hstate]
      exact polled_checked s s.compareInterrupt
  | idle _ _ _ hstate =>
      rw [hstate]
      exact polled_checked s true
  | taken hiso hcrossed hexc hready _ => exact absurd ⟨hiso, hcrossed, hready⟩ (hno hexc)

lemma poll_polled (hm : m.IsN64) {s s' : MipsBase MipsTlbNormal δ} (hno : ¬ PollInterrupts m s)
    (h : poll m s = .ok ((), s')) : Polled s s' := by
  cases poll_cases hm h with
  | counts _ hstate =>
      rw [hstate]
      exact ⟨rfl, ⟨rfl, rfl, rfl, rfl, rfl, rfl, rfl, rfl⟩⟩
  | looks hdue t hcheck hcompare =>
      cases checkInterrupt_cases hm hcheck with
      | taken hexc hready _ => exact absurd ⟨hexc, hdue, .inl hready⟩ hno
      | idle _ hstate =>
          rw [hstate] at hcompare
          have hpolled : Polled (polling s) s' := checkCompare_polled hm
            (fun hexc hcross => hno ⟨hexc, hdue, .inr hcross⟩) hcompare
          exact ⟨hpolled.eq, hpolled.cop0⟩

variable (m) in
/-- The poll of a round finds the interrupt lines as they are: it is not due, or does not copy them,
or `Cause` shows them already and the timer raises no new one. -/
def LinesSteady (s : MipsBase MipsTlbNormal δ) : Prop :=
  s.interruptPollCounter + 1 < kInterruptCheckInterval ∨ m.config.hasIsolateCacheBit = true ∨
    ((latched m s).cop0.cause = s.cop0.cause ∧
      ((s.cop0.checkCompareInterrupt s.timestamp).1 = true → s.compareInterrupt = true))

/-- Then the lines behind the poll are those before it. -/
lemma LinesSteady.withLines_eq (hm : m.IsN64) {s s' : MipsBase MipsTlbNormal δ}
    (hsteady : LinesSteady m s) (hno : ¬ PollInterrupts m s) (h : poll m s = .ok ((), s')) :
    withLines s' s = s := by
  cases poll_cases hm h with
  | counts _ hstate => rw [hstate, withLines]
  | looks hdue t hcheck hcompare =>
      cases checkInterrupt_cases hm hcheck with
      | taken hexc hready _ => exact absurd ⟨hexc, hdue, .inl hready⟩ hno
      | idle _ hstate =>
          have hcopied : m.config.hasIsolateCacheBit = false →
              (checked m (polling s)).cop0.cause = s.cop0.cause ∧
                ((s.cop0.checkCompareInterrupt s.timestamp).1 = true →
                  s.compareInterrupt = true) := by
            intro hiso
            rcases hsteady with hearly | hisolated | ⟨hcause, hline⟩
            · omega
            · exact absurd (hiso.symm.trans hisolated) (by simp)
            · refine ⟨?_, hline⟩
              rw [checked, MipsCop0.checkCompareInterrupt_cause]
              exact hcause
          rw [hstate] at hcompare
          cases checkCompare_cases hm hcompare with
          | isolated _ hend => rw [hend, withLines, polling]
          | before hiso _ hend =>
              rw [hend, withLines, (hcopied hiso).1]
              rfl
          | idle hiso hcrossed _ hend =>
              rw [hend, withLines]
              dsimp only
              rw [(hcopied hiso).1, ← (hcopied hiso).2 hcrossed]
          | taken hiso hcrossed hexc hready _ =>
              exact absurd ⟨hexc, hdue, .inr ⟨hiso, hcrossed, hready⟩⟩ hno

/-- The program a round executes: unmapped code whose executed entries are quiet. -/
structure QuietRound (m : MipsSetup δ) (s : MipsBase MipsTlbNormal δ) : Prop where
  segment : inKseg s.pc
  block : ∀ block t, enterBlock m s = .ok (block, t) → QuietBlock m block.entries t

/-- The number of instructions a round executes. -/
def Executes (m : MipsSetup δ) (s : MipsBase MipsTlbNormal δ) (n : ℕ) : Prop :=
  ∃ block t u, enterBlock m s = .ok (block, t) ∧ runBlock m block.entries t = .ok (n, u)

/-- The round that begins in `s₁` and ends in `s'` does what the plain interpreter does in as many
instructions from `s`. -/
def Simulated (m : MipsSetup δ) (s s₁ s' : MipsBase MipsTlbNormal δ) : Prop :=
  ∃ n t, 1 ≤ n ∧ Executes m s₁ n ∧ Prog.times (runInst m) n s = .ok ((), t) ∧ Agree s' t

/-- A round behind a poll that copied the lines. -/
lemma runCachedBlock_simulates (hm : m.IsN64) (hpure : m.bus.FetchPure)
    {s s₁ s' : MipsBase MipsTlbNormal δ} (hpolled : Polled s s₁) (hblocks : BlocksPresent m s)
    (hlive : (cleared m s).cache.LookupLive) (hmapped : AheadMapped m s)
    (hquiet : QuietRound m s₁) (hrun : runCachedBlock m s₁ = .ok ((), s')) :
    Simulated m (withLines s₁ s) s₁ s' := by
  obtain ⟨counter, compareInterrupt, cop0, hs₁⟩ : ∃ counter compareInterrupt cop0, s₁ =
      { s with
        interruptPollCounter := counter
        compareInterrupt := compareInterrupt
        cop0 := cop0 } := ⟨_, _, _, hpolled.eq⟩
  have hblocks' : BlocksPresent m s₁ := by rw [hs₁]; exact hblocks
  have hlive' : (cleared m s₁).cache.LookupLive := by rw [hs₁]; exact hlive
  have hmapped' : AheadMapped m s₁ := by
    rw [AheadMapped, lookAhead_congr (s := s) (by rw [hs₁]) (by rw [hs₁]), hs₁]
    exact hmapped
  rw [runCachedBlock_eq] at hrun
  obtain ⟨block, t, henter, hrest⟩ := Prog.bind_ok.mp hrun
  obtain ⟨n, u, hblock, hcount⟩ := Prog.bind_ok.mp hrest
  have hentered := enterBlock_entered hm hpure hquiet.segment hlive' henter
  obtain ⟨hpresent, ht⟩ := hentered.present hm hpure hquiet.segment hblocks' hmapped'
  have hagree : Agree t (withLines s₁ s) := by
    rw [ht]
    exact { hpolled.agree with }
  have hpresent' : Present m t.device t.pc block.entries := by rw [ht]; exact hpresent
  obtain ⟨t', hn, htimes, hend⟩ :=
    runBlock_simulates hm hpure hagree hpresent' (hquiet.block block t henter) hblock
  refine ⟨n, t', hn, ⟨block, t, u, henter, hblock⟩, htimes, ?_⟩
  rw [← Prog.state_eq hcount]
  exact { hend with }

/-- One round of the cached interpreter, from a state whose blocks hold the words of memory
and whose pointers are live, that takes no interrupt and only reads ahead where addresses are
translated: it does what the plain interpreter does from the same state, when the poll finds the
interrupt lines as they are, and otherwise from the state with the lines that the poll copied. -/
theorem round_simulates (hm : m.IsN64) (hpure : m.bus.FetchPure)
    {s s₁ s' : MipsBase MipsTlbNormal δ} (hpoll : poll m s = .ok ((), s₁))
    (hno : ¬ PollInterrupts m s) (hblocks : BlocksPresent m s)
    (hlive : (cleared m s).cache.LookupLive) (hmapped : AheadMapped m s)
    (hquiet : QuietRound m s₁) (hrun : runCachedBlock m s₁ = .ok ((), s')) :
    Simulated m (withLines s₁ s) s₁ s' ∧ (LinesSteady m s → Simulated m s s₁ s') := by
  have hlatched : Simulated m (withLines s₁ s) s₁ s' :=
    runCachedBlock_simulates hm hpure (poll_polled hm hno hpoll) hblocks hlive hmapped hquiet hrun
  exact ⟨hlatched, fun hsteady => hsteady.withLines_eq hm hno hpoll ▸ hlatched⟩

/-! ## Runs that are quiet -/

/-- An entry that runs and leaves the devices alone is quiet. -/
lemma quietEntry_of_run {entry : MipsCacheEntry} {rest : List MipsCacheEntry}
    {s : MipsBase MipsTlbNormal δ} (hinst : QuietInst entry.opcode entry.func s.pc)
    (hrun : returnedValue (runEntry m entry) s = some ())
    (hdevice : (lastState (runEntry m entry) s).device = s.device)
    (hrest : QuietEntries m rest (lastState (runEntry m entry) s)) :
    QuietEntry m entry rest s ∧
      ∀ s', runEntry m entry s = .ok ((), s') → QuietEntries m rest s' := by
  have hlast : ∀ s', runEntry m entry s = .ok ((), s') → s' = lastState (runEntry m entry) s := by
    intro s' hs'
    exact Prog.state_eq (hs'.symm.trans (run_of_returned hrun))
  refine ⟨⟨hinst, fun s' hs' e _ => ?_⟩, fun s' hs' => ?_⟩
  · rw [hlast s' hs', hdevice]
  · rw [hlast s' hs']
    exact hrest

/-- The block is left when control went elsewhere. -/
lemma quietEntries_leave {entry : MipsCacheEntry} {rest : List MipsCacheEntry}
    {s : MipsBase MipsTlbNormal δ} (hpc : s.pc ≠ entryPc entry) :
    QuietEntries m (entry :: rest) s := fun h => absurd h hpc

/-! ## A program that is simulated -/

/-- An addition and a `SYSCALL`. -/
def addProgram : MipsBase MipsTlbNormal WordMemory :=
  programState 0x80001000 0x1000 [0x24010001, 0x0000000C]

/-- The program after the poll. -/
def addPolled : MipsBase MipsTlbNormal WordMemory := { addProgram with interruptPollCounter := 1 }

/-- The state in which the block of the program is entered. -/
def addEntered : MipsBase MipsTlbNormal WordMemory := lastState (enterBlock cachedSetup) addPolled

/-- The block of the program. -/
def addBlock : MipsCacheBlock where
  start := 0x1000
  end_ := 0x1008
  entries := [⟨0x80001000, 0x24010001, .kAddiu⟩, ⟨0x80001004, 0x0000000C, .kSyscall⟩]

lemma addPolled_quiet : QuietRound cachedSetup addPolled := by
  have hreturned : returnedValue (enterBlock cachedSetup) addPolled = some addBlock := by
    decide +kernel
  refine ⟨by decide, fun block t henter => ?_⟩
  obtain ⟨rfl, rfl⟩ := Prog.ok_inj ((run_of_returned hreturned).symm.trans henter)
  have hfirst : inKseg addEntered.pc := by decide +kernel
  refine quietEntry_of_run ⟨hfirst, by decide, ?_⟩ (by decide +kernel) (by decide +kernel) ?_
  · exact fun hcop => absurd hcop (by decide)
  · intro _
    refine quietEntry_of_run ⟨?_, by decide, ?_⟩ (by decide +kernel) (by decide +kernel) trivial
    · decide +kernel
    · exact fun _ => ⟨by decide, by decide⟩

/-- A round of two instructions is simulated. -/
theorem addProgram_simulated :
    ∃ s', runCachedBlock cachedSetup addPolled = .ok ((), s') ∧
      Simulated cachedSetup addProgram addPolled s' := by
  have hreturned : returnedValue (runCachedBlock cachedSetup) addPolled = some () := by
    decide +kernel
  have hrun := run_of_returned hreturned
  have hno : ¬ PollInterrupts cachedSetup addProgram := fun hpoll => absurd hpoll.1 (by decide)
  have hblocks : BlocksPresent cachedSetup addProgram :=
    fun e he => absurd he (by simp [addProgram, programState])
  have hlive : (cleared cachedSetup addProgram).cache.LookupLive :=
    MipsCache.lookupLive_of_null fun _ => rfl
  have hall : (lookAhead cachedSetup addProgram (kCacheBlockMaxLength - 1) 0x80001000).all
      (fun address => (translateAddress addProgram.tlb address).found) = true := by decide +kernel
  have hmapped : AheadMapped cachedSetup addProgram := .inr (.inr (List.all_eq_true.mp hall))
  have hsteady : LinesSteady cachedSetup addProgram := .inl (by decide)
  exact ⟨_, hrun, (round_simulates (n64Setup_isN64 _) wordBus_fetchPure rfl hno hblocks hlive hmapped
    addPolled_quiet hrun).2 hsteady⟩

/-! ## Code at the end of the unmapped segments -/

/-- `ERET` in the last word of kseg1; nothing is mapped behind it. -/
def returnAtEnd : MipsBase MipsTlbNormal WordMemory :=
  { programState 0xBFFFFFFC 0x1FFFFFFC [0x42000018] with cop0 := { epc := 0x80001000 } }

/-- The program after the poll. -/
def returnPolled : MipsBase MipsTlbNormal WordMemory :=
  { returnAtEnd with interruptPollCounter := 1 }

/-- The state in which the block of the program is entered. -/
def returnEntered : MipsBase MipsTlbNormal WordMemory :=
  lastState (enterBlock cachedSetup) returnPolled

lemma returnPolled_block :
    ∃ entry next rest block, enterBlock cachedSetup returnPolled = .ok (block, returnEntered) ∧
      block.entries = entry :: next :: rest ∧ entry = ⟨0xBFFFFFFC, 0x42000018, .kCop⟩ ∧
      next.address = 0xC0000000 := by
  have hhead : (returnedValue (enterBlock cachedSetup) returnPolled).map
      (fun block => (block.entries[0]?, (block.entries[1]?).map (·.address))) =
      some (some ⟨0xBFFFFFFC, 0x42000018, .kCop⟩, some 0xC0000000) := by decide +kernel
  obtain ⟨block, hblock, hentries⟩ := Option.map_eq_some_iff.mp hhead
  obtain ⟨hfirst, hsecond⟩ := Prod.mk.inj hentries
  obtain ⟨next, hnext, haddress⟩ := Option.map_eq_some_iff.mp hsecond
  cases hlist : block.entries with
  | nil => rw [hlist] at hfirst; exact absurd hfirst (by simp)
  | cons entry tail =>
    cases htail : tail with
    | nil => rw [hlist, htail] at hnext; exact absurd hnext (by simp)
    | cons next' rest =>
      rw [hlist] at hfirst hnext
      rw [htail] at hnext
      refine ⟨entry, next', rest, block, run_of_returned hblock, by rw [hlist, htail],
        Option.some.inj hfirst, ?_⟩
      rw [← haddress, Option.some.inj hnext]

/-- `ERET` leaves the block and touches no memory. -/
lemma returnPolled_quiet : QuietRound cachedSetup returnPolled := by
  refine ⟨by decide, fun block t henter => ?_⟩
  obtain ⟨entry, next, rest, block', henter', hentries, rfl, haddress⟩ := returnPolled_block
  obtain ⟨rfl, rfl⟩ := Prog.ok_inj (henter'.symm.trans henter)
  have hsegment : inKseg returnEntered.pc := by decide +kernel
  have hpc : (lastState (runEntry cachedSetup ⟨0xBFFFFFFC, 0x42000018, .kCop⟩) returnEntered).pc =
      0x80001000 := by decide +kernel
  rw [hentries]
  refine quietEntry_of_run ⟨hsegment, by decide, ?_⟩ (by decide +kernel) (by decide +kernel) ?_
  · exact fun _ => ⟨by decide, by decide⟩
  · refine quietEntries_leave ?_
    rw [hpc, entryPc, haddress]
    decide

/-- The block of the program reaches into addresses that are not mapped: building it changes
`BadVAddr`, which the plain interpreter leaves alone. -/
theorem returnAtEnd_not_simulated :
    ∃ s', poll cachedSetup returnAtEnd = .ok ((), returnPolled) ∧
      ¬ PollInterrupts cachedSetup returnAtEnd ∧ BlocksPresent cachedSetup returnAtEnd ∧
      (cleared cachedSetup returnAtEnd).cache.LookupLive ∧ QuietRound cachedSetup returnPolled ∧
      runCachedBlock cachedSetup returnPolled = .ok ((), s') ∧
      LinesSteady cachedSetup returnAtEnd ∧ ¬ Simulated cachedSetup returnAtEnd returnPolled s' := by
  have hreturned : returnedValue (runCachedBlock cachedSetup) returnPolled = some () := by
    decide +kernel
  refine ⟨_, rfl, ?_, ?_, ?_, returnPolled_quiet, run_of_returned hreturned,
    .inl (by decide), ?_⟩
  · exact fun hpoll => absurd hpoll.1 (by decide)
  · exact fun e he => absurd he (by simp [returnAtEnd, programState])
  · exact MipsCache.lookupLive_of_null fun _ => rfl
  · rintro ⟨n, t, -, ⟨block, v, w, henter, hblock⟩, htimes, hagree⟩
    have hcount : returnedValue
        (do let block ← enterBlock cachedSetup; runBlock cachedSetup block.entries)
        returnPolled = some 1 := by decide +kernel
    have hn : n = 1 := by
      have hrun : (do let block ← enterBlock cachedSetup; runBlock cachedSetup block.entries)
          returnPolled = .ok (n, w) := (Prog.bind_of_ok henter).trans hblock
      have hone := hrun.symm.trans (run_of_returned hcount)
      exact (Prog.ok_inj hone).1
    have hplain : returnedValue (Prog.times (runInst cachedSetup) 1) returnAtEnd = some () := by
      decide +kernel
    rw [hn, run_of_returned hplain] at htimes
    obtain ⟨-, rfl⟩ := Prog.ok_inj htimes
    have hbad : (lastState (runCachedBlock cachedSetup) returnPolled).cop0.badvaddr ≠
        (lastState (Prog.times (runInst cachedSetup) 1) returnAtEnd).cop0.badvaddr := by
      decide +kernel
    exact hbad hagree.cop0.badvaddr

end MipsBase
end NgMips
