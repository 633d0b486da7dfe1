import NgMips.Proofs.Exception
import NgMips.Proofs.Translation
import NgMips.Source.Machine

/-!
# Reading ahead

`onNewBlock` fetches the words of a block before any of them is executed.  The words it
reads, and the bus addresses they come from, are a function of memory and of the translation
unit: `readAhead`.  A word whose address is not translated has no bus address; reading it
raises an exception, which does not return, or leaves a report of the address behind.

The report keeps the address space, so that it has no effect on the words that follow.
Building a block is therefore invisible when every word is translated, and otherwise only
when there are no exceptions and the report was there before.
-/

namespace NgMips

variable {T δ : Type} [MipsTlbBase T] {m : MipsSetup δ}

/-- The bus address of an address, when it is translated. -/
def busAddress (tlb : T) (address : BitVec 64) : Option (BitVec 64) :=
  if (translateAddress tlb address).found then some (translateAddress tlb address).address
  else none

lemma busAddress_eq_some {tlb : T} {address phys : BitVec 64} :
    busAddress tlb address = some phys ↔
      (translateAddress tlb address).found = true ∧
        (translateAddress tlb address).address = phys := by
  rw [busAddress]
  split <;> simp_all

lemma busAddress_eq_none {tlb : T} {address : BitVec 64} :
    busAddress tlb address = none ↔ (translateAddress tlb address).found = false := by
  rw [busAddress]
  split <;> simp_all

/-- A word read ahead. -/
structure Prefetch where
  address : BitVec 64
  /-- The bus address the word was read from. -/
  source : Option (BitVec 64)
  word : BitVec 32

/-- The word predecoded. -/
def Prefetch.entry (m : MipsSetup δ) (p : Prefetch) : MipsCacheEntry where
  address := p.address.setWidth 32
  opcode := p.word
  func := getInstFuncPtr m.kIs64Bit p.word

/-- Read one word; the device answers if there is a bus address. -/
def prefetch (m : MipsSetup δ) (tlb : T) (address : BitVec 64) (d : δ) : Prefetch × δ :=
  match busAddress tlb address with
  | some phys => (⟨address, some phys, m.bus.word d phys⟩, (m.bus.fetch d phys).2)
  | none => (⟨address, none, 0⟩, d)

/-- The words from an address on, up to the first branch and its delay slot. -/
def readAhead (m : MipsSetup δ) (tlb : T) : ℕ → BitVec 64 → δ → List Prefetch × δ
  | 0, _, d => ([], d)
  | n + 1, address, d =>
      let p := prefetch m tlb address d
      if isInstBranch p.1.word then
        if doesInstHaveDelaySlot p.1.word then
          let slot := prefetch m tlb (address + 4) p.2
          ([p.1, slot.1], slot.2)
        else ([p.1], p.2)
      else
        let rest := readAhead m tlb n (address + 4) p.2
        (p.1 :: rest.1, rest.2)

/-- The words `onNewBlock` reads for a program counter. -/
def readForBlock (m : MipsSetup δ) (s : MipsBase T δ) (pc : BitVec 64) : List Prefetch :=
  (readAhead m s.tlb (kCacheBlockMaxLength - 1) (pc &&& 0xFFFFFFFF) s.device).1

lemma prefetch_address (tlb : T) (address : BitVec 64) (d : δ) :
    (prefetch m tlb address d).1.address = address := by
  rw [prefetch]
  split <;> rfl

lemma prefetch_source (tlb : T) (address : BitVec 64) (d : δ) :
    (prefetch m tlb address d).1.source = busAddress tlb address := by
  rw [prefetch]
  split <;> simp_all

lemma prefetch_congr {tlb tlb' : T} {address : BitVec 64}
    (h : busAddress tlb address = busAddress tlb' address) (d : δ) :
    prefetch m tlb address d = prefetch m tlb' address d := by
  rw [prefetch, h, prefetch]

/-- Units that translate alike read the same words. -/
lemma readAhead_congr {tlb tlb' : T} (h : ∀ a, busAddress tlb a = busAddress tlb' a) (n : ℕ)
    (address : BitVec 64) (d : δ) : readAhead m tlb n address d = readAhead m tlb' n address d := by
  induction n generalizing address d with
  | zero => rfl
  | succ n ih => simp only [readAhead, prefetch_congr (h _), ih]

/-- The words are read from consecutive addresses, each by way of the translation unit. -/
lemma readAhead_getElem (tlb : T) (n : ℕ) (address : BitVec 64) (d : δ) {i : ℕ} {p : Prefetch}
    (hp : (readAhead m tlb n address d).1[i]? = some p) :
    p.address = address + BitVec.ofNat 64 (4 * i) ∧ p.source = busAddress tlb p.address := by
  induction n generalizing address d i with
  | zero => exact absurd hp (by simp [readAhead])
  | succ n ih =>
      -- The first word, wherever the list goes on.
      have hfirst : p = (prefetch m tlb address d).1 → i = 0 →
          p.address = address + BitVec.ofNat 64 (4 * i) ∧ p.source = busAddress tlb p.address := by
        rintro rfl rfl
        rw [prefetch_address, prefetch_source]
        exact ⟨(BitVec.add_zero address).symm, rfl⟩
      simp only [readAhead] at hp
      split at hp
      · split at hp
        · match i with
          | 0 => exact hfirst (Option.some.inj hp).symm rfl
          | 1 =>
              obtain rfl := Option.some.inj hp
              rw [prefetch_address, prefetch_source]
              exact ⟨rfl, rfl⟩
          | j + 2 => exact absurd hp (by simp)
        · match i with
          | 0 => exact hfirst (Option.some.inj hp).symm rfl
          | j + 1 => exact absurd hp (by simp)
      · match i with
        | 0 => exact hfirst (Option.some.inj hp).symm rfl
        | j + 1 =>
            obtain ⟨haddress, hsource⟩ := ih (address + 4) (prefetch m tlb address d).2 hp
            refine ⟨?_, hsource⟩
            rw [haddress, BitVec.add_assoc]
            congr 1
            apply BitVec.eq_of_toNat_eq
            have hfour : (4 : BitVec 64).toNat = 4 := rfl
            simp only [BitVec.toNat_add, BitVec.toNat_ofNat, hfour]
            omega

/-- There is a first word. -/
lemma readAhead_head (tlb : T) (n : ℕ) (address : BitVec 64) (d : δ) :
    (readAhead m tlb (n + 1) address d).1.head? = some (prefetch m tlb address d).1 := by
  simp only [readAhead]
  split
  · split <;> rfl
  · rfl

lemma length_readAhead (tlb : T) (n : ℕ) (address : BitVec 64) (d : δ) :
    (readAhead m tlb n address d).1.length ≤ n + 1 := by
  induction n generalizing address d with
  | zero => simp [readAhead]
  | succ n ih =>
      simp only [readAhead]
      split
      · split <;> simp
      · simpa using ih (address + 4) _

/-! ## What is left behind -/

/-- Reading a word that is not translated leaves a report. -/
def note (s : MipsBase T δ) (p : Prefetch) : MipsBase T δ :=
  match p.source with
  | some _ => s
  | none => MipsBase.faulted p.address s

/-- The state after words were read ahead, the last of them leaving the devices in `d`. -/
def noted (s : MipsBase T δ) (d : δ) (l : List Prefetch) : MipsBase T δ :=
  { l.foldl note s with device := d }

/-- What reading ahead relies on: a fetch of an address that is not translated stops when
there are exceptions and only leaves its report when there are none, the report does not
change the translation, and bus addresses fit the 32 bits a block keeps of them. -/
structure FetchesAhead (m : MipsSetup δ) (T : Type) [MipsTlbBase T] : Prop where
  stops : m.config.hasException = true → ∀ (s : MipsBase T δ) (address : BitVec 64),
    busAddress s.tlb address = none →
      ∃ e, e ≠ .panic .blockCreationFailed ∧ MipsBase.fetch m address s = .error e
  goesOn : m.config.hasException = false → ∀ (s : MipsBase T δ) (address : BitVec 64),
    busAddress s.tlb address = none →
      MipsBase.fetch m address s = .ok (0, MipsBase.faulted address s)
  inform : ∀ (tlb : T) (miss address : BitVec 64),
    busAddress (informTlbException tlb miss) address = busAddress tlb address
  fits : ∀ (tlb : T) (address phys : BitVec 64),
    busAddress tlb (address &&& 0xFFFFFFFF) = some phys → phys.toNat < 2 ^ 32

lemma busAddress_dummy (tlb : MipsTlbDummy) (address : BitVec 64) :
    busAddress tlb address = some address := rfl

/-- On the second processor there are no misses. -/
lemma fetchesAhead_dummy (m : MipsSetup δ) : FetchesAhead m MipsTlbDummy where
  stops _ _ _ hmiss := absurd hmiss (by simp [busAddress_dummy])
  goesOn _ _ _ hmiss := absurd hmiss (by simp [busAddress_dummy])
  inform _ _ _ := rfl
  fits tlb address phys h := by
    rw [busAddress_dummy] at h
    rw [← Option.some.inj h, mask_toNat]
    exact Nat.mod_lt _ (Nat.two_pow_pos 32)

namespace MipsTlbNormal

/-- A report keeps the address space, which is all the scan reads of `EntryHi`. -/
lemma asidMatch_inform (entry : MipsTlbEntry) (tlb : MipsTlbNormal) (miss : BitVec 64) :
    entry.asidMatch (tlb.informTlbException miss).entryHi = entry.asidMatch tlb.entryHi := by
  have hasid : (tlb.informTlbException miss).entryHi &&& 0xFF = tlb.entryHi &&& 0xFF :=
    tlb.asid_refill miss
  simp only [MipsTlbEntry.asidMatch, hasid]

lemma translateAddress_inform (tlb : MipsTlbNormal) (miss address : BitVec 64) :
    (tlb.informTlbException miss).translateAddress address = tlb.translateAddress address := by
  have hentry : ∀ (i : Fin 32) (a : BitVec 64),
      ((tlb.informTlbException miss).entry i).translate (tlb.informTlbException miss).entryHi a =
        (tlb.entry i).translate tlb.entryHi a := by
    intro i a
    have hmatch : (tlb.entry i).matchesAddress (tlb.informTlbException miss).entryHi a =
        (tlb.entry i).matchesAddress tlb.entryHi a := by
      simp only [MipsTlbEntry.matchesAddress, asidMatch_inform]
    show (tlb.entry i).translate (tlb.informTlbException miss).entryHi a = _
    simp only [MipsTlbEntry.translate, hmatch]
  simp only [translateAddress, hentry]

/-- Physical addresses have 32 bits. -/
lemma translate_fits {entry : MipsTlbEntry} {entryHi address : BitVec 64}
    {result : MipsTlbTranslationResult} (h : entry.translate entryHi address = some result) :
    result.address.toNat < 2 ^ 32 := by
  simp only [MipsTlbEntry.translate] at h
  split at h
  · split at h
    · exact absurd h (by simp)
    · rw [← Option.some.inj h, BitVec.toNat_or, BitVec.toNat_and]
      have hframe := BitVec.isLt ((((entry.selectLo address &&& 0x03FFFFC0) <<< 6).setWidth 32 :
        BitVec 32) &&& ~~~(entry.oddMask - 1))
      refine Nat.or_lt_two_pow ?_ (Nat.and_lt_two_pow _ ?_)
      · rwa [BitVec.toNat_setWidth_of_le (by decide)]
      · rw [BitVec.toNat_setWidth_of_le (by decide)]
        exact BitVec.isLt _
  · exact absurd h (by simp)

lemma translateAddress_fits (tlb : MipsTlbNormal) (address : BitVec 64) :
    (tlb.translateAddress address).address.toNat < 2 ^ 32 := by
  by_cases hseg : inKseg address = true
  · rw [tlb.translateAddress_of_inKseg hseg, ksegPhysical_toNat]
    omega
  · rw [tlb.translateAddress_of_mapped (by simpa using hseg)]
    cases hscan : (List.finRange 32).findSome? fun i =>
        (tlb.entry i).translate tlb.entryHi (address &&& 0xFFFFFFFF) with
    | none => simp
    | some result =>
        obtain ⟨i, -, hi⟩ := List.exists_of_findSome?_eq_some hscan
        exact translate_fits hi

end MipsTlbNormal

lemma fetchesAhead_normal (hm : m.IsN64) : FetchesAhead m MipsTlbNormal where
  stops hexc s address hmiss := by
    rw [MipsBase.fetch, MipsBase.fetchWith_fault hm _ (busAddress_eq_none.mp hmiss)]
    have htlb : ExceptionCause.isTlb .kTlbMissLoad = true := rfl
    obtain ⟨e, hne, he⟩ := MipsBase.triggerException_tlb hm hexc htlb (MipsBase.faulted address s)
    exact ⟨e, hne, by rw [he]; rfl⟩
  goesOn hexc s address hmiss := by
    rw [MipsBase.fetch, MipsBase.fetchWith_fault hm _ (busAddress_eq_none.mp hmiss),
      MipsBase.triggerException_off hexc]
    rfl
  inform tlb miss address := by
    rw [busAddress, busAddress]
    have h := MipsTlbNormal.translateAddress_inform tlb miss address
    show (if ((tlb.informTlbException miss).translateAddress address).found then
      some ((tlb.informTlbException miss).translateAddress address).address else none) = _
    rw [h]
    rfl
  fits tlb address phys h := by
    obtain ⟨-, rfl⟩ := busAddress_eq_some.mp h
    exact tlb.translateAddress_fits _

/-! ## Collecting the entries -/

namespace MipsBase

/-- A word that is translated, or no exceptions: the fetch returns. -/
lemma fetch_prefetch (hr : FetchesAhead m T) {address : BitVec 64} {s : MipsBase T δ}
    (hgoes : m.config.hasException = false ∨ busAddress s.tlb address ≠ none) :
    fetch m address s = .ok ((prefetch m s.tlb address s.device).1.word,
      noted s (prefetch m s.tlb address s.device).2 [(prefetch m s.tlb address s.device).1]) := by
  cases hbus : busAddress s.tlb address with
  | none =>
      rw [hr.goesOn (hgoes.resolve_right (not_not.mpr hbus)) s address hbus, prefetch, hbus]
      rfl
  | some phys =>
      obtain ⟨hfound, haddress⟩ := busAddress_eq_some.mp hbus
      rw [fetch, fetchWith_found _ hfound, prefetch, hbus, wordAt, fetched, haddress]
      rfl

lemma fetchEntry_prefetch (hr : FetchesAhead m T) {address : BitVec 64} {s : MipsBase T δ}
    (hgoes : m.config.hasException = false ∨ busAddress s.tlb address ≠ none) :
    fetchEntry m address s = .ok ((prefetch m s.tlb address s.device).1.entry m,
      noted s (prefetch m s.tlb address s.device).2 [(prefetch m s.tlb address s.device).1]) := by
  rw [fetchEntry, Prog.bind_of_ok (fetch_prefetch hr hgoes)]
  simp only [Prog.pure_run, Prefetch.entry, prefetch_address]

/-- A report has no effect on later translations. -/
lemma busAddress_note (hr : FetchesAhead m T) (s : MipsBase T δ) (p : Prefetch)
    (address : BitVec 64) : busAddress (note s p).tlb address = busAddress s.tlb address := by
  rw [note]
  cases p.source with
  | some phys => rfl
  | none => exact hr.inform s.tlb p.address address

/-- What was read first does not matter for what is read next. -/
lemma readAhead_noted (hr : FetchesAhead m T) (s : MipsBase T δ) (d : δ) (p : Prefetch) (n : ℕ)
    (address : BitVec 64) :
    readAhead m (noted s d [p]).tlb n address d = readAhead m s.tlb n address d :=
  readAhead_congr (busAddress_note hr s p) n address d

lemma note_device (s : MipsBase T δ) (d : δ) (p : Prefetch) :
    note { s with device := d } p = { note s p with device := d } := by
  rw [note, note]
  cases p.source <;> rfl

/-- Reports are left one after the other. -/
lemma noted_noted (s : MipsBase T δ) (d d' : δ) (p : Prefetch) (l : List Prefetch) :
    noted (noted s d [p]) d' l = noted s d' (p :: l) := by
  have hfold : ∀ (l : List Prefetch) (t : MipsBase T δ),
      l.foldl note { t with device := d } = { l.foldl note t with device := d } := by
    intro l
    induction l with
    | nil => intro t; rfl
    | cons q l ih =>
        intro t
        rw [List.foldl_cons, note_device, ih]
        rfl
  show { l.foldl note { note s p with device := d } with device := d' } = _
  rw [hfold]
  rfl

/-- The entries are the words read ahead, and only the reports are left behind. -/
lemma collectEntries_run (hr : FetchesAhead m T) (n : ℕ) (address : BitVec 64) (s : MipsBase T δ)
    (hgoes : m.config.hasException = false ∨
      ∀ p ∈ (readAhead m s.tlb n address s.device).1, p.source ≠ none) :
    collectEntries m n address s =
      .ok ((readAhead m s.tlb n address s.device).1.map (Prefetch.entry m),
        noted s (readAhead m s.tlb n address s.device).2
          (readAhead m s.tlb n address s.device).1) := by
  induction n generalizing address s with
  | zero => rfl
  | succ n ih =>
      have hfirst : m.config.hasException = false ∨ busAddress s.tlb address ≠ none := by
        refine hgoes.imp_right fun hall => ?_
        rw [← prefetch_source (m := m) s.tlb address s.device]
        exact hall _ (List.mem_of_head? (readAhead_head s.tlb n address s.device))
      rw [collectEntries, Prog.bind_of_ok (fetchEntry_prefetch hr hfirst)]
      simp only [readAhead] at hgoes ⊢
      show (if isInstBranch (prefetch m s.tlb address s.device).1.word then _ else _ :
        CpuM T δ (List MipsCacheEntry)) _ = _
      generalize hp : prefetch m s.tlb address s.device = p at hgoes ⊢
      split at hgoes
      · next hbranch =>
          rw [if_pos hbranch, if_pos hbranch]
          show (if doesInstHaveDelaySlot p.1.word then _ else _ :
            CpuM T δ (List MipsCacheEntry)) _ = _
          split at hgoes
          · next hslot =>
              rw [if_pos hslot, if_pos hslot]
              have hbus := busAddress_note hr s p.1 (address + 4)
              have hnext : prefetch m (noted s p.2 [p.1]).tlb (address + 4) p.2 =
                  prefetch m s.tlb (address + 4) p.2 := prefetch_congr hbus p.2
              have hgoes' : m.config.hasException = false ∨
                  busAddress (noted s p.2 [p.1]).tlb (address + 4) ≠ none := by
                refine hgoes.imp_right fun hall => ?_
                show busAddress (note s p.1).tlb (address + 4) ≠ none
                rw [hbus, ← prefetch_source (m := m) s.tlb (address + 4) p.2]
                exact hall _ (by simp)
              have hrun := fetchEntry_prefetch hr hgoes'
              rw [show (noted s p.2 [p.1]).device = p.2 from rfl, hnext, noted_noted] at hrun
              rw [Prog.bind_of_ok hrun]
              rfl
          · next hslot =>
              rw [if_neg hslot, if_neg hslot]
              rfl
      · next hbranch =>
          rw [if_neg hbranch, if_neg hbranch]
          have hrest := readAhead_noted hr s p.2 p.1 n (address + 4)
          have hrun := ih (address + 4) (noted s p.2 [p.1]) (by
            show _ ∨ ∀ q ∈ (readAhead m (noted s p.2 [p.1]).tlb n (address + 4) p.2).1, _
            rw [hrest]
            exact hgoes.imp_right fun hall q hq => hall q (List.mem_cons_of_mem _ hq))
          rw [show (noted s p.2 [p.1]).device = p.2 from rfl, hrest, noted_noted] at hrun
          rw [Prog.bind_of_ok hrun]
          rfl

/-- With exceptions, a word that is not translated stops the block builder. -/
lemma collectEntries_stops (hr : FetchesAhead m T) (hexc : m.config.hasException = true) (n : ℕ)
    (address : BitVec 64) (s : MipsBase T δ)
    (hmiss : ∃ p ∈ (readAhead m s.tlb n address s.device).1, p.source = none) :
    ∃ e, e ≠ .panic .blockCreationFailed ∧ collectEntries m n address s = .error e := by
  induction n generalizing address s with
  | zero =>
      obtain ⟨p, hp, -⟩ := hmiss
      exact absurd hp (by simp [readAhead])
  | succ n ih =>
      rw [collectEntries]
      by_cases hbus : busAddress s.tlb address = none
      · obtain ⟨e, hne, he⟩ := hr.stops hexc s address hbus
        refine ⟨e, hne, ?_⟩
        rw [Prog.bind_run, fetchEntry, Prog.bind_run, he]
        rfl
      · rw [Prog.bind_of_ok (fetchEntry_prefetch hr (.inr hbus))]
        simp only [readAhead] at hmiss
        show ∃ e, _ ∧ (if isInstBranch (prefetch m s.tlb address s.device).1.word then _ else _ :
          CpuM T δ (List MipsCacheEntry)) _ = .error e
        have hsource : (prefetch m s.tlb address s.device).1.source ≠ none := by
          rw [prefetch_source]
          exact hbus
        generalize hp : prefetch m s.tlb address s.device = p at hmiss hsource ⊢
        split at hmiss
        · next hbranch =>
            rw [if_pos hbranch]
            show ∃ e, _ ∧ (if doesInstHaveDelaySlot p.1.word then _ else _ :
              CpuM T δ (List MipsCacheEntry)) _ = .error e
            split at hmiss
            · next hslot =>
                obtain ⟨q, hq, hnone⟩ := hmiss
                rcases List.mem_cons.mp hq with rfl | hq
                · exact absurd hnone hsource
                · obtain rfl := List.mem_singleton.mp hq
                  rw [prefetch_source] at hnone
                  have hbus' := busAddress_note hr s p.1 (address + 4)
                  obtain ⟨e, hne, he⟩ := hr.stops hexc (noted s p.2 [p.1]) (address + 4)
                    (hbus'.trans hnone)
                  refine ⟨e, hne, ?_⟩
                  rw [if_pos hslot, Prog.bind_run, fetchEntry, Prog.bind_run, he]
                  rfl
            · obtain ⟨q, hq, hnone⟩ := hmiss
              obtain rfl := List.mem_singleton.mp hq
              exact absurd hnone hsource
        · next hbranch =>
            rw [if_neg hbranch]
            obtain ⟨q, hq, hnone⟩ := hmiss
            rcases List.mem_cons.mp hq with rfl | hq
            · exact absurd hnone hsource
            · have hrest := readAhead_noted hr s p.2 p.1 n (address + 4)
              obtain ⟨e, hne, he⟩ := ih (address + 4) (noted s p.2 [p.1]) ⟨q, by
                show q ∈ (readAhead m (noted s p.2 [p.1]).tlb n (address + 4) p.2).1
                rw [hrest]
                exact hq, hnone⟩
              refine ⟨e, hne, ?_⟩
              rw [Prog.bind_run, he]
              rfl

/-! ## The block that is built -/

/-- The block made of the words read for a program counter. -/
def blockOf (m : MipsSetup δ) (pc : BitVec 64) (l : List Prefetch) : MipsCacheBlock where
  start := (pc &&& 0xFFFFFFFF).setWidth 32
  end_ := ((pc &&& 0xFFFFFFFF) + BitVec.ofNat 64 (l.length * 4)).setWidth 32
  entries := l.map (Prefetch.entry m)

/-- The devices after the words for a program counter were read. -/
def deviceAfter (m : MipsSetup δ) (s : MipsBase T δ) (pc : BitVec 64) : δ :=
  (readAhead m s.tlb (kCacheBlockMaxLength - 1) (pc &&& 0xFFFFFFFF) s.device).2

/-- What one report leaves alone, all reports leave alone. -/
lemma foldl_note_keeps {α : Type} {f : MipsBase T δ → α} (hf : ∀ s p, f (note s p) = f s)
    (l : List Prefetch) (s : MipsBase T δ) : f (l.foldl note s) = f s := by
  induction l generalizing s with
  | nil => rfl
  | cons p l ih => rw [List.foldl_cons, ih, hf]

lemma cache_foldl_note (l : List Prefetch) (s : MipsBase T δ) :
    (l.foldl note s).cache = s.cache := by
  refine foldl_note_keeps (fun s p => ?_) l s
  rw [note]
  split <;> rfl

lemma onNewBlock_run (hr : FetchesAhead m T) (pc : BitVec 64) (s : MipsBase T δ)
    (hgoes : m.config.hasException = false ∨ ∀ p ∈ readForBlock m s pc, p.source ≠ none) :
    onNewBlock m pc s = .ok ((), { noted s (deviceAfter m s pc) (readForBlock m s pc) with
      cache := s.cache.insertBlock ((readForBlock m s pc).foldl note s).tlb
        (blockOf m pc (readForBlock m s pc)) }) := by
  rw [onNewBlock, buildBlock, Prog.bind_run,
    Prog.bind_of_ok (collectEntries_run hr _ _ s hgoes)]
  simp only [Prog.pure_run, Except.bind, Prog.modify_run]
  have hcache := cache_foldl_note (readForBlock m s pc) s
  simp only [noted, readForBlock] at hcache ⊢
  rw [hcache, blockOf, deviceAfter, List.length_map]

lemma onNewBlock_stops (hr : FetchesAhead m T) (hexc : m.config.hasException = true)
    (pc : BitVec 64) (s : MipsBase T δ) (hmiss : ∃ p ∈ readForBlock m s pc, p.source = none) :
    ∃ e, e ≠ .panic .blockCreationFailed ∧ onNewBlock m pc s = .error e := by
  obtain ⟨e, hne, he⟩ := collectEntries_stops hr hexc _ _ s hmiss
  refine ⟨e, hne, ?_⟩
  rw [onNewBlock, buildBlock, Prog.bind_run, Prog.bind_run, he]
  rfl

/-- The devices answered the fetches and did nothing else. -/
def fetchAll (m : MipsSetup δ) (d : δ) (sources : List (BitVec 64)) : δ :=
  sources.foldl (fun d phys => (m.bus.fetch d phys).2) d

lemma prefetch_device (tlb : T) (address : BitVec 64) (d : δ) :
    (prefetch m tlb address d).2 =
      fetchAll m d ((prefetch m tlb address d).1.source.toList) := by
  rw [prefetch]
  split <;> rfl

lemma readAhead_device (tlb : T) (n : ℕ) (address : BitVec 64) (d : δ) :
    ∃ sources, (readAhead m tlb n address d).2 = fetchAll m d sources := by
  induction n generalizing address d with
  | zero => exact ⟨[], rfl⟩
  | succ n ih =>
      simp only [readAhead]
      have hfirst := prefetch_device (m := m) tlb address d
      have happend : ∀ l l' : List (BitVec 64),
          fetchAll m (fetchAll m d l) l' = fetchAll m d (l ++ l') := by
        intro l l'
        rw [fetchAll, fetchAll, fetchAll, List.foldl_append]
      split
      · split
        · rw [prefetch_device, hfirst, happend]
          exact ⟨_, rfl⟩
        · exact ⟨_, hfirst⟩
      · obtain ⟨sources, hsources⟩ := ih (address + 4) (prefetch m tlb address d).2
        rw [hsources, hfirst, happend]
        exact ⟨_, rfl⟩

/-! ## When building a block is invisible -/

/-- The last address read ahead that is not translated. -/
def lastMiss (l : List Prefetch) : Option (BitVec 64) :=
  ((l.filter fun p => p.source.isNone).getLast?).map Prefetch.address

lemma lastMiss_append (l : List Prefetch) (p : Prefetch) :
    lastMiss (l ++ [p]) = if p.source.isNone then some p.address else lastMiss l := by
  rw [lastMiss, List.filter_append]
  by_cases hmiss : p.source.isNone = true
  · rw [if_pos hmiss, List.filter_cons_of_pos (by simpa using hmiss)]
    simp
  · rw [if_neg hmiss, List.filter_cons_of_neg (by simpa using hmiss)]
    simp [lastMiss]

lemma lastMiss_eq_none {l : List Prefetch} :
    lastMiss l = none ↔ ∀ p ∈ l, p.source ≠ none := by
  simp [lastMiss]

/-- `BadVAddr` and `EntryHi` hold what a miss at the address would write into them. -/
def ReportHeld (s : MipsBase MipsTlbNormal δ) (address : BitVec 64) : Prop :=
  s.cop0.badvaddr = address ∧ s.tlb.entryHi = (s.tlb.informTlbException address).entryHi

/-- A report takes the place of the one before it. -/
lemma faulted_faulted (s : MipsBase MipsTlbNormal δ) (a b : BitVec 64) :
    faulted b (faulted a s) = faulted b s := by
  have hasid := s.tlb.asid_refill a
  simp only [faulted, informTlbException, MipsTlbNormal.informTlbException]
  congr 3

lemma foldl_note (l : List Prefetch) (s : MipsBase MipsTlbNormal δ) :
    l.foldl note s = (lastMiss l).elim s fun address => faulted address s := by
  induction l using List.reverseRecOn with
  | nil => rfl
  | append_singleton l p ih =>
      rw [List.foldl_append, ih, lastMiss_append]
      show note _ p = _
      rw [note]
      cases hp : p.source with
      | some phys => rfl
      | none =>
          cases lastMiss l with
          | none => rfl
          | some a => exact faulted_faulted s a p.address

lemma faulted_of_held {s : MipsBase MipsTlbNormal δ} {address : BitVec 64}
    (h : ReportHeld s address) : faulted address s = s := by
  obtain ⟨hbad, hhi⟩ := h
  have htlb : s.tlb.informTlbException address = s.tlb := by
    show { s.tlb with entryHi := (s.tlb.informTlbException address).entryHi } = s.tlb
    rw [← hhi]
  show { s with
    cop0 := { s.cop0 with badvaddr := address }, tlb := s.tlb.informTlbException address } = s
  rw [htlb, ← hbad]

/-- `onNewBlock` changes the block cache; the devices answer the fetches. -/
def Invisible (m : MipsSetup δ) (pc : BitVec 64) (s : MipsBase MipsTlbNormal δ) : Prop :=
  ∃ cache sources, onNewBlock m pc s =
    .ok ((), { s with cache := cache, device := fetchAll m s.device sources })

/-- Building a block is invisible exactly when every address read ahead is translated, or
there are no exceptions and the last address that is not was reported before. -/
theorem invisible_iff (hm : m.IsN64) (pc : BitVec 64) (s : MipsBase MipsTlbNormal δ) :
    Invisible m pc s ↔ ∀ address, lastMiss (readForBlock m s pc) = some address →
      m.config.hasException = false ∧ ReportHeld s address := by
  have hr := fetchesAhead_normal hm
  constructor
  · rintro ⟨cache, sources, hrun⟩ address hlast
    have hmiss : ∃ p ∈ readForBlock m s pc, p.source = none := by
      by_contra hno
      rw [lastMiss_eq_none.mpr fun p hp hnone => hno ⟨p, hp, hnone⟩] at hlast
      exact absurd hlast (by simp)
    have hexc : m.config.hasException = false := by
      by_contra hexc
      obtain ⟨e, -, he⟩ := onNewBlock_stops hr (by simpa using hexc) pc s hmiss
      exact absurd (hrun.symm.trans he) (by simp)
    refine ⟨hexc, ?_⟩
    rw [onNewBlock_run hr pc s (.inl hexc), noted, foldl_note, hlast] at hrun
    have hstate := Prog.state_eq hrun
    have hbad : address = s.cop0.badvaddr := congrArg (fun t => t.cop0.badvaddr) hstate
    have hhi : (s.tlb.informTlbException address).entryHi = s.tlb.entryHi :=
      congrArg (fun t => t.tlb.entryHi) hstate
    exact ⟨hbad.symm, hhi.symm⟩
  · intro hheld
    obtain ⟨sources, hsources⟩ :=
      readAhead_device (m := m) s.tlb (kCacheBlockMaxLength - 1) (pc &&& 0xFFFFFFFF) s.device
    have hgoes : m.config.hasException = false ∨ ∀ p ∈ readForBlock m s pc, p.source ≠ none := by
      cases hlast : lastMiss (readForBlock m s pc) with
      | none => exact .inr (lastMiss_eq_none.mp hlast)
      | some address => exact .inl (hheld address hlast).1
    -- The reports that are left do not show.
    have hnoted : (readForBlock m s pc).foldl note s = s := by
      rw [foldl_note]
      cases hlast : lastMiss (readForBlock m s pc) with
      | none => rfl
      | some address => exact faulted_of_held (hheld address hlast).2
    have hrun := onNewBlock_run hr pc s hgoes
    rw [noted, hnoted, deviceAfter, hsources] at hrun
    exact ⟨_, sources, hrun⟩

/-- Entry 0 maps the page at `0x40000000` to physical `0x1000`; the page after it is not
valid. -/
def onePage : MipsTlbNormal :=
  [TlbOp.setEntryHi 0x40000000, .setEntryLo0 0x47, .setEntryLo1 1, .write 0].foldl
    (fun tlb op => op.apply tlb) {}

/-- The last word of the page is an `ERET`, which is not classed as a branch. -/
def eretAtPageEnd : MipsBase MipsTlbNormal WordMemory :=
  { programState 0x40000FFC 0x1FFC [0x42000018] with tlb := onePage }

/-- The word can be fetched, but the block for it cannot be built. -/
theorem eretAtPageEnd_not_invisible :
    wordAt exceptionSetup eretAtPageEnd.pc eretAtPageEnd = 0x42000018 ∧
      (translateAddress eretAtPageEnd.tlb eretAtPageEnd.pc).found = true ∧
      ¬ Invisible exceptionSetup eretAtPageEnd.pc eretAtPageEnd := by
  refine ⟨by decide +kernel, by decide +kernel, ?_⟩
  rintro ⟨cache, sources, hrun⟩
  have hstops :
      returnedValue (onNewBlock exceptionSetup eretAtPageEnd.pc) eretAtPageEnd = none := by
    decide +kernel
  rw [returnedValue, hrun] at hstops
  exact absurd hstops (by simp)

/-- The page ends in a return and its delay slot. -/
def returnAtPageEnd : MipsBase MipsTlbNormal WordMemory :=
  { programState 0x40000FF8 0x1FF8 [0x03E00008, 0] with tlb := onePage }

theorem returnAtPageEnd_invisible :
    Invisible exceptionSetup returnAtPageEnd.pc returnAtPageEnd := by
  have hnone :
      lastMiss (readForBlock exceptionSetup returnAtPageEnd returnAtPageEnd.pc) = none := by
    decide +kernel
  refine (invisible_iff (n64Setup_isN64 _) returnAtPageEnd.pc returnAtPageEnd).mpr ?_
  intro address hlast
  exact absurd (hnone.symm.trans hlast) (by simp)

end MipsBase

end NgMips
