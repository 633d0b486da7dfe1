import NgMips.Lib.Match
import NgMips.Source.Cop
import Mathlib.Tactic.IntervalCases

/-!
# Probing and refilling the translation unit

The operations that reach a `MipsTlbNormal` keep its entries in a normal form
(`MipsTlbEntry.WellFormed`).  On such contents two things are settled exactly.

* `probeTlbEntry` compares bits 27 to 13 of the page number and forgets the page mask, while
  the translation compares bits 31 to 13 outside the page mask.  The two select the same
  entry exactly when the first entry that either test accepts has the whole page number of
  `EntryHi`.
* `informTlbException` drops bits 31 to 28 of the faulting address, so a refill that follows
  it closes the miss exactly for the addresses below `2 ^ 28`.
-/

namespace NgMips

/-! ## Reachable contents -/

/-- The bits of `PageMask` that exist. -/
def pageMaskBits : BitVec 64 := 0x1FFE000

/-- The virtual page number, bits 31 to 13. -/
def vpnBits : BitVec 64 := 0xFFFFE000

/-- The bits of the page number that `ProbeTlbEntry` and `InformTlbException` use. -/
def shortVpnBits : BitVec 64 := 0xFFFE000

/-- What instructions and misses do to the translation unit. -/
inductive TlbOp where
  | reset
  | setIndex (value : BitVec 32)
  | setEntryLo0 (value : BitVec 64)
  | setEntryLo1 (value : BitVec 64)
  | setEntryHi (value : BitVec 64)
  | setPageMask (value : BitVec 64)
  | inform (address : BitVec 64)
  | read
  | write (idx : BitVec 32)
  | probe

def TlbOp.apply : TlbOp → MipsTlbNormal → MipsTlbNormal
  | reset, tlb => tlb.reset
  | setIndex value, tlb => tlb.setIndex value
  | setEntryLo0 value, tlb => { tlb with entryLo0 := value }
  | setEntryLo1 value, tlb => { tlb with entryLo1 := value }
  | setEntryHi value, tlb => tlb.setEntryHi value
  | setPageMask value, tlb => tlb.setPageMask value
  | inform address, tlb => tlb.informTlbException address
  | read, tlb => MipsBase.tlbRead tlb
  | write idx, tlb => MipsBase.tlbWrite idx tlb
  | probe, tlb => MipsBase.tlbProbe tlb

/-- The contents the translation unit can have. -/
inductive TlbReachable : MipsTlbNormal → Prop
  | init : TlbReachable {}
  | step {tlb : MipsTlbNormal} (op : TlbOp) (h : TlbReachable tlb) : TlbReachable (op.apply tlb)

/-- The normal form of an entry: both halves have the same global bit, and the page mask has
no other bits than the register. -/
structure MipsTlbEntry.WellFormed (entry : MipsTlbEntry) : Prop where
  global : entry.entryLo0 &&& 1 = entry.entryLo1 &&& 1
  pageMask : entry.pageMask &&& pageMaskBits = entry.pageMask

/-- The normal form of the translation unit. -/
structure MipsTlbNormal.WellFormed (tlb : MipsTlbNormal) : Prop where
  entry : ∀ i, (tlb.entry i).WellFormed
  pageMask : tlb.pageMask &&& pageMaskBits = tlb.pageMask

lemma MipsTlbEntry.wellFormed_default : ({} : MipsTlbEntry).WellFormed :=
  ⟨by decide, by decide⟩

lemma or_one_and_one (x : BitVec 64) : (x ||| 1#64) &&& 1#64 = 1#64 := by
  ext i hi
  cases i <;> simp

namespace MipsTlbNormal

lemma wellFormed_setTlbEntry {tlb : MipsTlbNormal} (h : tlb.WellFormed) (idx : Fin 32)
    {entry : MipsTlbEntry} (hmask : entry.pageMask &&& pageMaskBits = entry.pageMask) :
    (tlb.setTlbEntry idx entry).WellFormed := by
  refine ⟨fun i => ?_, h.pageMask⟩
  by_cases hi : i = idx
  · subst hi
    simp only [setTlbEntry, Function.update_self]
    split
    · exact ⟨(or_one_and_one _).trans (or_one_and_one _).symm, hmask⟩
    · exact ⟨by simp [BitVec.and_assoc], hmask⟩
  · simp only [setTlbEntry, Function.update_of_ne hi]
    exact h.entry i

lemma wellFormed_setPageMask {tlb : MipsTlbNormal} (h : tlb.WellFormed) (value : BitVec 64) :
    (tlb.setPageMask value).WellFormed :=
  ⟨h.entry, by
    change value &&& pageMaskBits &&& pageMaskBits = value &&& pageMaskBits
    rw [BitVec.and_assoc, BitVec.and_self]⟩

end MipsTlbNormal

/-- Every operation keeps the normal form. -/
lemma TlbOp.wellFormed_apply (op : TlbOp) {tlb : MipsTlbNormal} (h : tlb.WellFormed) :
    (op.apply tlb).WellFormed := by
  cases op with
  | reset => exact ⟨fun _ => MipsTlbEntry.wellFormed_default, h.pageMask⟩
  | setIndex value => exact ⟨h.entry, h.pageMask⟩
  | setEntryLo0 value => exact ⟨h.entry, h.pageMask⟩
  | setEntryLo1 value => exact ⟨h.entry, h.pageMask⟩
  | setEntryHi value => exact ⟨h.entry, h.pageMask⟩
  | setPageMask value => exact MipsTlbNormal.wellFormed_setPageMask h value
  | inform address => exact ⟨h.entry, h.pageMask⟩
  | read =>
      refine MipsTlbNormal.wellFormed_setPageMask ?_ _
      exact ⟨h.entry, h.pageMask⟩
  | write idx => exact MipsTlbNormal.wellFormed_setTlbEntry h _ h.pageMask
  | probe => exact ⟨h.entry, h.pageMask⟩

lemma TlbReachable.wellFormed {tlb : MipsTlbNormal} (h : TlbReachable tlb) : tlb.WellFormed := by
  induction h with
  | init => exact ⟨fun _ => MipsTlbEntry.wellFormed_default, by decide⟩
  | step op _ ih => exact op.wellFormed_apply ih

/-! ## Probing -/

namespace MipsTlbEntry

variable (entry : MipsTlbEntry) (entryHi : BitVec 64)

/-- The entry is visible from the current address space. -/
def usable : Bool := entry.gBit || entry.asidMatch entryHi

/-- The test of `TranslateAddress` applied to `EntryHi` itself. -/
def matchesEntryHi : Bool := entry.matchesAddress entryHi entryHi

/-- The page numbers agree on bits 27 to 13. -/
def shortVpnMatch : Bool := entry.entryHi &&& shortVpnBits == entryHi &&& shortVpnBits

/-- A visible entry that agrees with `EntryHi` on bits 27 to 13, or outside its page mask. -/
def resembles : Bool :=
  entry.usable entryHi && (entry.shortVpnMatch entryHi || entry.vpnMatch entryHi)

variable {entry} {entryHi}

/-- The two global bits of a stored entry are one. -/
lemma WellFormed.global_and (h : entry.WellFormed) :
    (entry.entryLo0 &&& entry.entryLo1 &&& 1 != 0) = entry.gBit := by
  rw [gBit, BitVec.and_assoc, ← h.global, ← BitVec.and_assoc, BitVec.and_self]

lemma WellFormed.matchesProbe_eq (h : entry.WellFormed) :
    entry.matchesProbe entryHi = (entry.shortVpnMatch entryHi && entry.usable entryHi) := by
  rw [matchesProbe, h.global_and]
  rfl

lemma matchesEntryHi_eq :
    entry.matchesEntryHi entryHi = (entry.vpnMatch entryHi && entry.usable entryHi) := rfl

lemma WellFormed.resembles_eq (h : entry.WellFormed) :
    (entry.matchesProbe entryHi || entry.matchesEntryHi entryHi) = entry.resembles entryHi := by
  rw [h.matchesProbe_eq, matchesEntryHi_eq, resembles, ← Bool.and_or_distrib_right,
    Bool.and_comm]

/-- The page mask covers none of bits 31 to 28, so both comparisons together are the
comparison of the whole page number. -/
lemma WellFormed.both_match_iff (h : entry.WellFormed) :
    (entry.shortVpnMatch entryHi = true ∧ entry.vpnMatch entryHi = true) ↔
      entry.entryHi &&& vpnBits = entryHi &&& vpnBits := by
  simp only [shortVpnMatch, vpnMatch, beq_iff_eq]
  constructor
  · rintro ⟨hshort, hvpn⟩
    refine and_eq_and_of_cover hshort hvpn ?_
    have hmask : ~~~entry.mask = ~~~vpnBits ||| (entry.pageMask &&& pageMaskBits) := by
      rw [mask, BitVec.not_and, BitVec.not_not, h.pageMask, BitVec.or_comm]
      rfl
    calc vpnBits &&& ~~~(shortVpnBits ||| entry.mask)
        _ = vpnBits &&& ~~~shortVpnBits &&& (~~~vpnBits ||| (entry.pageMask &&& pageMaskBits)) := by
          rw [BitVec.not_or, hmask, BitVec.and_assoc]
        _ = (vpnBits &&& ~~~shortVpnBits &&& ~~~vpnBits) |||
              (vpnBits &&& ~~~shortVpnBits &&& pageMaskBits) &&& entry.pageMask := by
          rw [BitVec.and_or_distrib_left, BitVec.and_comm entry.pageMask, ← BitVec.and_assoc]
        _ = 0 := by
          have hhigh : vpnBits &&& ~~~shortVpnBits &&& ~~~vpnBits = 0 := by decide
          have hlow : vpnBits &&& ~~~shortVpnBits &&& pageMaskBits = 0 := by decide
          rw [hhigh, hlow]
          simp
  · intro hfull
    refine ⟨and_eq_and_of_submask hfull (by decide), and_eq_and_of_submask hfull ?_⟩
    rw [mask, BitVec.and_assoc]
    rfl

end MipsTlbEntry

namespace MipsTlbNormal

variable (tlb : MipsTlbNormal)

/-- `i` is the lowest-numbered entry that matches `EntryHi` as the translation does. -/
def IsLowestMatch (i : Fin 32) : Prop :=
  (tlb.entry i).matchesEntryHi tlb.entryHi = true ∧
    ∀ j < i, (tlb.entry j).matchesEntryHi tlb.entryHi = false

/-- Probing and translating select the same entry. -/
structure ProbeAgrees : Prop where
  hit : ∀ i : Fin 32, tlb.probeTlbEntry = BitVec.ofNat 32 i ↔ tlb.IsLowestMatch i
  miss : tlb.probeTlbEntry = probeMiss ↔
    ∀ i, (tlb.entry i).matchesEntryHi tlb.entryHi = false

/-- The first entry that resembles `EntryHi` has its whole page number. -/
def FirstResemblanceIsExact : Prop :=
  ∀ i, (tlb.entry i).resembles tlb.entryHi = true →
    (∀ j < i, (tlb.entry j).resembles tlb.entryHi = false) →
    (tlb.entry i).entryHi &&& vpnBits = tlb.entryHi &&& vpnBits

/-- The result of a probe determines the entry. -/
lemma probeResult_injective {r r' : Option (Fin 32)} (h : probeResult r = probeResult r') :
    r = r' := by
  have hinj : ∀ i j : Fin 32, BitVec.ofNat 32 i = BitVec.ofNat 32 j → i = j := by decide
  have hmiss : ∀ i : Fin 32, BitVec.ofNat 32 i ≠ probeMiss := by decide
  cases r with
  | none =>
      cases r' with
      | none => rfl
      | some j => exact absurd h.symm (hmiss j)
  | some i =>
      cases r' with
      | none => exact absurd h (hmiss i)
      | some j => rw [hinj i j h]

/-- Probing and translating agree when the two scans do. -/
lemma probeAgrees_iff_scan :
    tlb.ProbeAgrees ↔
      (List.finRange 32).find? (fun i => (tlb.entry i).matchesProbe tlb.entryHi) =
        (List.finRange 32).find? (fun i => (tlb.entry i).matchesEntryHi tlb.entryHi) := by
  have hprobe : ∀ r, tlb.probeTlbEntry = probeResult r ↔
      (List.finRange 32).find? (fun i => (tlb.entry i).matchesProbe tlb.entryHi) = r :=
    fun r => ⟨probeResult_injective, fun h => by rw [probeTlbEntry, h]⟩
  constructor
  · intro h
    cases hm : (List.finRange 32).find? (fun i => (tlb.entry i).matchesEntryHi tlb.entryHi) with
    | none => exact (hprobe none).mp (h.miss.mpr (find?_finRange_eq_none_iff.mp hm))
    | some i => exact (hprobe (some i)).mp ((h.hit i).mpr (find?_finRange_eq_some_iff.mp hm))
  · intro h
    refine ⟨fun i => ?_, ?_⟩
    · refine (hprobe (some i)).trans ?_
      rw [h]
      exact find?_finRange_eq_some_iff
    · refine (hprobe none).trans ?_
      rw [h]
      exact find?_finRange_eq_none_iff

/-- Probing and translating agree on reachable contents exactly when the first entry that
resembles `EntryHi` has its whole page number. -/
theorem probeAgrees_iff (h : TlbReachable tlb) :
    tlb.ProbeAgrees ↔ tlb.FirstResemblanceIsExact := by
  have hwf := h.wellFormed.entry
  rw [probeAgrees_iff_scan, find?_finRange_eq_iff]
  refine forall_congr' fun i => ?_
  simp only [(hwf _).resembles_eq]
  refine imp_congr_right fun hi => imp_congr_right fun _ => ?_
  have husable : (tlb.entry i).usable tlb.entryHi = true := by
    rw [MipsTlbEntry.resembles, Bool.and_eq_true] at hi
    exact hi.1
  rw [(hwf i).matchesProbe_eq, MipsTlbEntry.matchesEntryHi_eq, husable, Bool.and_true,
    Bool.and_true]
  exact (hwf i).both_match_iff

/-- Entry 0 maps a 16 KiB page, and `EntryHi` names its second half. -/
def largePage : MipsTlbNormal :=
  [TlbOp.setPageMask 0x6000, .setEntryHi 0x40000000, .write 0, .setEntryHi 0x40002000].foldl
    (fun tlb op => op.apply tlb) {}

lemma reachable_foldl (ops : List TlbOp) {tlb : MipsTlbNormal} (h : TlbReachable tlb) :
    TlbReachable (ops.foldl (fun tlb op => op.apply tlb) tlb) := by
  induction ops generalizing tlb with
  | nil => exact h
  | cons op ops ih => exact ih (.step op h)

/-- The probe misses an entry that translates. -/
theorem largePage_not_probeAgrees :
    TlbReachable largePage ∧ inKseg largePage.entryHi = false ∧ ¬ largePage.ProbeAgrees := by
  refine ⟨reachable_foldl _ .init, by decide, fun h => ?_⟩
  have hlowest : largePage.IsLowestMatch 0 := ⟨by decide, by decide⟩
  exact absurd ((h.hit 0).mpr hlowest) (by decide)

/-- Entry 5 maps a 4 KiB page, and `EntryHi` names it. -/
def smallPage : MipsTlbNormal :=
  [TlbOp.setEntryHi 0x40002007, .write 5].foldl (fun tlb op => op.apply tlb) {}

theorem smallPage_probeAgrees : smallPage.ProbeAgrees :=
  (probeAgrees_iff smallPage (reachable_foldl _ .init)).mpr (by
    unfold FirstResemblanceIsExact
    decide)

/-! ## Refilling -/

section Refill

/-- The frame an `EntryLo` names, as a physical address. -/
def frame (lo : BitVec 64) : BitVec 64 := (((lo &&& 0x03FFFFC0) <<< 6).setWidth 32).setWidth 64

/-- The registers after a miss at `address`, with the halves of a 4 KiB page written. -/
def refillRegisters (address lo0 lo1 : BitVec 64) : MipsTlbNormal :=
  { (tlb.informTlbException address).setPageMask 0 with entryLo0 := lo0, entryLo1 := lo1 }

/-- No entry matches the address. -/
def Misses (address : BitVec 64) : Prop :=
  ∀ i, (tlb.entry i).matchesAddress tlb.entryHi (address &&& 0xFFFFFFFF) = false

/-- The address is translated to the frame of the half that bit 12 selects; the low 12 bits
are kept. -/
def Refilled (address lo0 lo1 : BitVec 64) : Prop :=
  (tlb.translateAddress address).found = true ∧
    (tlb.translateAddress address).address =
      frame (if address &&& 0x1000 ≠ 0 then lo1 else lo0) ||| (address &&& 0xFFF)

/-- `EntryLo` as it is stored: the global bit is that of both halves. -/
def storedLo (isGlobal : Bool) (lo : BitVec 64) : BitVec 64 :=
  if isGlobal then lo ||| 1 else lo &&& ~~~1#64

/-- What a refill stores. -/
def refillEntry (address lo0 lo1 : BitVec 64) : MipsTlbEntry where
  entryLo0 := storedLo (lo0 &&& lo1 &&& 1 != 0) lo0
  entryLo1 := storedLo (lo0 &&& lo1 &&& 1 != 0) lo1
  entryHi := (address &&& shortVpnBits) ||| (tlb.entryHi &&& 0xFF)
  pageMask := 0

lemma storedLo_and (isGlobal : Bool) (lo : BitVec 64) {mask : BitVec 64}
    (hmask : mask &&& ~~~1#64 = mask) : storedLo isGlobal lo &&& mask = lo &&& mask := by
  have hlow : storedLo isGlobal lo &&& ~~~1#64 = lo &&& ~~~1#64 := by
    cases isGlobal with
    | false => simp [storedLo, BitVec.and_assoc]
    | true => simp [storedLo, BitVec.and_or_distrib_right]
  exact and_eq_and_of_submask hlow hmask

lemma tlbWrite_refillRegisters (address lo0 lo1 : BitVec 64) (idx : BitVec 32) :
    MipsBase.tlbWrite idx (tlb.refillRegisters address lo0 lo1) =
      { tlb.refillRegisters address lo0 lo1 with
        entry := Function.update tlb.entry (MipsBase.entryIndex idx)
          (tlb.refillEntry address lo0 lo1) } := by
  have hstored : ∀ g : Bool, (if g then
        ({ entryLo0 := lo0 ||| 1, entryLo1 := lo1 ||| 1,
           entryHi := (address &&& shortVpnBits) ||| (tlb.entryHi &&& 0xFF) } : MipsTlbEntry)
      else { entryLo0 := lo0 &&& ~~~1#64, entryLo1 := lo1 &&& ~~~1#64,
             entryHi := (address &&& shortVpnBits) ||| (tlb.entryHi &&& 0xFF) }) =
      { entryLo0 := storedLo g lo0, entryLo1 := storedLo g lo1,
        entryHi := (address &&& shortVpnBits) ||| (tlb.entryHi &&& 0xFF) } := by
    intro g
    cases g <;> rfl
  rw [refillEntry, ← hstored]
  rfl

/-- The address space identifier survives a miss. -/
lemma asid_refill (address : BitVec 64) :
    ((address &&& shortVpnBits) ||| (tlb.entryHi &&& 0xFF)) &&& 0xFF = tlb.entryHi &&& 0xFF := by
  have hdisjoint : shortVpnBits &&& 0xFF = 0 := by decide
  rw [BitVec.and_or_distrib_right, BitVec.and_assoc, hdisjoint, BitVec.and_assoc]
  simp

/-- The page number of the stored entry is that of the address exactly when the address has
none of bits 31 to 28. -/
lemma vpn_refill_iff (address : BitVec 64) :
    ((address &&& shortVpnBits) ||| (tlb.entryHi &&& 0xFF)) &&& vpnBits =
        (address &&& 0xFFFFFFFF) &&& vpnBits ↔ address &&& 0xF0000000 = 0 := by
  have hleft : ((address &&& shortVpnBits) ||| (tlb.entryHi &&& 0xFF)) &&& vpnBits =
      address &&& shortVpnBits := by
    have hdisjoint : (0xFF : BitVec 64) &&& vpnBits = 0 := by decide
    have hsub : shortVpnBits &&& vpnBits = shortVpnBits := by decide
    rw [BitVec.and_or_distrib_right, BitVec.and_assoc, BitVec.and_assoc, hdisjoint, hsub]
    simp
  have hright : (address &&& 0xFFFFFFFF) &&& vpnBits =
      (address &&& shortVpnBits) ||| (address &&& 0xF0000000) := by
    have hsplit : (0xFFFFFFFF : BitVec 64) &&& vpnBits = shortVpnBits ||| 0xF0000000 := by decide
    rw [BitVec.and_assoc, hsplit, BitVec.and_or_distrib_left]
  rw [hleft, hright]
  constructor
  · intro h
    have hdisjoint : shortVpnBits &&& (0xF0000000 : BitVec 64) = 0 := by decide
    have hhigh : address &&& shortVpnBits &&& 0xF0000000 =
        ((address &&& shortVpnBits) ||| (address &&& 0xF0000000)) &&& 0xF0000000 := by rw [← h]
    rw [BitVec.and_or_distrib_right, BitVec.and_assoc, BitVec.and_assoc, hdisjoint,
      BitVec.and_self] at hhigh
    simpa using hhigh.symm
  · intro h
    rw [h]
    simp

lemma matches_refillEntry_iff (address lo0 lo1 : BitVec 64) :
    (tlb.refillEntry address lo0 lo1).matchesAddress
        ((address &&& shortVpnBits) ||| (tlb.entryHi &&& 0xFF)) (address &&& 0xFFFFFFFF) = true ↔
      address &&& 0xF0000000 = 0 := by
  rw [← tlb.vpn_refill_iff address]
  have hmask : (tlb.refillEntry address lo0 lo1).mask = vpnBits := by
    change ~~~(0 : BitVec 64) &&& 0xFFFFE000 = vpnBits
    decide
  have hasid : (tlb.refillEntry address lo0 lo1).asidMatch
      ((address &&& shortVpnBits) ||| (tlb.entryHi &&& 0xFF)) = true := by
    simp [MipsTlbEntry.asidMatch, refillEntry]
  rw [MipsTlbEntry.matchesAddress, hasid, Bool.or_true, Bool.and_true, MipsTlbEntry.vpnMatch,
    hmask, beq_iff_eq]
  rfl

/-- Frames are aligned. -/
lemma frame_and_not_offset (lo : BitVec 64) :
    (((lo &&& 0x03FFFFC0) <<< 6).setWidth 32 &&& ~~~(0x1000 - 1 : BitVec 32)) =
      ((lo &&& 0x03FFFFC0) <<< 6).setWidth 32 := by
  ext i hi
  interval_cases i <;> simp

/-- A valid half of a 4 KiB page translates the addresses its entry matches. -/
lemma translate_refillEntry {address lo0 lo1 entryHi : BitVec 64} (hv0 : lo0 &&& 2 ≠ 0)
    (hv1 : lo1 &&& 2 ≠ 0)
    (hmatch : (tlb.refillEntry address lo0 lo1).matchesAddress entryHi
      (address &&& 0xFFFFFFFF) = true) :
    ∃ readOnly, (tlb.refillEntry address lo0 lo1).translate entryHi (address &&& 0xFFFFFFFF) =
      some {
        found := true
        readOnly := readOnly
        address := frame (if address &&& 0x1000 ≠ 0 then lo1 else lo0) |||
          (address &&& 0xFFF) } := by
  have hodd : (tlb.refillEntry address lo0 lo1).oddMask = 0x1000 := by
    change ((((0 : BitVec 64) ||| 0x1FFF) + 1) >>> 1).setWidth 32 = 0x1000#32
    decide
  obtain ⟨g, hg⟩ : ∃ g, (tlb.refillEntry address lo0 lo1).selectLo (address &&& 0xFFFFFFFF) =
      storedLo g (if address &&& 0x1000 ≠ 0 then lo1 else lo0) := by
    refine ⟨lo0 &&& lo1 &&& 1 != 0, ?_⟩
    have hbit : address &&& 0xFFFFFFFF &&& BitVec.setWidth 64 (0x1000 : BitVec 32) =
        address &&& 0x1000 := by
      rw [BitVec.and_assoc]
      rfl
    rw [MipsTlbEntry.selectLo, hodd, hbit]
    by_cases hb : address &&& 0x1000 = 0
    · rw [if_neg (not_not_intro hb), if_neg (by rw [bne_iff_ne]; exact not_not_intro hb)]
      rfl
    · rw [if_pos hb, if_pos (bne_iff_ne.mpr hb)]
      rfl
  have hvalid : (if address &&& 0x1000 ≠ 0 then lo1 else lo0) &&& 2 ≠ 0 := by
    split
    · exact hv1
    · exact hv0
  have hstored : storedLo g (if address &&& 0x1000 ≠ 0 then lo1 else lo0) &&& 2 ≠ 0 := by
    rw [storedLo_and _ _ (by decide)]
    exact hvalid
  rw [MipsTlbEntry.translate, if_pos hmatch, hg, hodd]
  dsimp only
  rw [if_neg (by simpa using hstored),
    storedLo_and g _ (by decide : (0x03FFFFC0 : BitVec 64) &&& ~~~1#64 = 0x03FFFFC0)]
  refine ⟨_, congrArg some (congrArg (MipsTlbTranslationResult.mk _ _) ?_)⟩
  rw [frame_and_not_offset, frame]
  have hoffset : address &&& 0xFFFFFFFF &&& BitVec.setWidth 64 (0x1000 - 1 : BitVec 32) =
      address &&& 0xFFF := by
    rw [BitVec.and_assoc]
    rfl
  rw [hoffset]

lemma translateAddress_of_mapped {address : BitVec 64} (hseg : inKseg address = false) :
    tlb.translateAddress address =
      ((List.finRange 32).findSome? fun i =>
        (tlb.entry i).translate tlb.entryHi (address &&& 0xFFFFFFFF)).getD
          { found := false, readOnly := false, address := 0 } := by
  rw [inKseg] at hseg
  simp only [translateAddress, hseg, Bool.false_eq_true, if_false]

/-- An entry that missed before the miss was reported misses after it: only the page number
in `EntryHi` changes. -/
lemma translate_of_misses {address : BitVec 64} (h : tlb.Misses address) (i : Fin 32) :
    (tlb.entry i).translate ((address &&& shortVpnBits) ||| (tlb.entryHi &&& 0xFF))
      (address &&& 0xFFFFFFFF) = none := by
  have hasid : (tlb.entry i).asidMatch ((address &&& shortVpnBits) ||| (tlb.entryHi &&& 0xFF)) =
      (tlb.entry i).asidMatch tlb.entryHi := by
    rw [MipsTlbEntry.asidMatch, asid_refill]
    rfl
  have hno := h i
  rw [MipsTlbEntry.matchesAddress, ← hasid] at hno
  rw [MipsTlbEntry.translate, MipsTlbEntry.matchesAddress, hno]
  simp

/-- `TLBWI` and `TLBWR` write the translation registers into some entry. -/
lemma cop0Command_tlbWrite {δ : Type} {s s' : MipsBase MipsTlbNormal δ} {command : BitVec 32}
    (hcommand : functField command = 0x02#6 ∨ functField command = 0x06#6)
    (hrun : MipsBase.cop0Command command s = .ok ((), s')) :
    ∃ idx, s'.tlb = MipsBase.tlbWrite idx s.tlb := by
  rcases hcommand with h | h
  · have hstate : { s with tlb := MipsBase.tlbWrite s.tlb.index s.tlb } = s' := by
      rw [MipsBase.cop0Command, h] at hrun
      exact Prog.state_eq hrun
    exact ⟨s.tlb.index, by rw [← hstate]⟩
  · rw [MipsBase.cop0Command, h] at hrun
    obtain ⟨rn, t, hrandom, hwrite⟩ := Prog.bind_ok.mp hrun
    have hstate : { t with tlb := MipsBase.tlbWrite rn t.tlb } = s' :=
      (Prog.state_eq hwrite)
    have ht : t.tlb = s.tlb := by
      rw [MipsBase.readRandom] at hrandom
      split at hrandom
      · rw [← Prog.state_eq hrandom]
      · exact absurd hrandom (by simp)
    exact ⟨rn, by rw [← hstate, ht]⟩

/-- The scan of a translation after the refill. -/
def refillScan (idx : BitVec 32) (address lo0 lo1 : BitVec 64) :
    Option MipsTlbTranslationResult :=
  (List.finRange 32).findSome? fun i =>
    (Function.update tlb.entry (MipsBase.entryIndex idx) (tlb.refillEntry address lo0 lo1)
      i).translate ((address &&& shortVpnBits) ||| (tlb.entryHi &&& 0xFF)) (address &&& 0xFFFFFFFF)

lemma translateAddress_refilled {address : BitVec 64} (hseg : inKseg address = false)
    (idx : BitVec 32) (lo0 lo1 : BitVec 64) :
    (MipsBase.tlbWrite idx (tlb.refillRegisters address lo0 lo1)).translateAddress address =
      (tlb.refillScan idx address lo0 lo1).getD
        { found := false, readOnly := false, address := 0 } := by
  rw [tlbWrite_refillRegisters, translateAddress_of_mapped _ hseg]
  rfl

/-- Only the new entry can translate the address. -/
lemma translate_of_ne {address : BitVec 64} (h : tlb.Misses address) (lo0 lo1 : BitVec 64)
    {idx j : Fin 32} (hj : j ≠ idx) :
    (Function.update tlb.entry idx (tlb.refillEntry address lo0 lo1) j).translate
      ((address &&& shortVpnBits) ||| (tlb.entryHi &&& 0xFF)) (address &&& 0xFFFFFFFF) = none := by
  rw [Function.update_of_ne hj]
  exact tlb.translate_of_misses h j

/-- A refill of a missing address closes the miss exactly when the address has none of bits
31 to 28: a miss forgets them. -/
theorem refilled_iff {δ : Type} {s s' : MipsBase MipsTlbNormal δ} {command : BitVec 32}
    {address lo0 lo1 : BitVec 64}
    (hcommand : functField command = 0x02#6 ∨ functField command = 0x06#6)
    (hseg : inKseg address = false) (hmiss : s.tlb.Misses address)
    (hv0 : lo0 &&& 2 ≠ 0) (hv1 : lo1 &&& 2 ≠ 0)
    (hrun : MipsBase.cop0Command command
      { s with tlb := s.tlb.refillRegisters address lo0 lo1 } = .ok ((), s')) :
    s'.tlb.Refilled address lo0 lo1 ↔ address &&& 0xF0000000 = 0 := by
  obtain ⟨idx, hwrite⟩ := cop0Command_tlbWrite hcommand hrun
  rw [Refilled, hwrite, translateAddress_refilled _ hseg]
  constructor
  · rintro ⟨hfound, -⟩
    rw [← s.tlb.matches_refillEntry_iff address lo0 lo1]
    by_contra hmatch
    -- No entry translates the address, the new one included.
    have hnone : s.tlb.refillScan idx address lo0 lo1 = none := by
      rw [refillScan, List.findSome?_eq_none_iff]
      intro j _
      by_cases hj : j = MipsBase.entryIndex idx
      · rw [hj, Function.update_self, MipsTlbEntry.translate, if_neg hmatch]
      · exact s.tlb.translate_of_ne hmiss lo0 lo1 hj
    rw [hnone] at hfound
    exact absurd hfound (by simp)
  · intro hlow
    have hmatch := (s.tlb.matches_refillEntry_iff address lo0 lo1).mpr hlow
    obtain ⟨readOnly, htranslate⟩ := s.tlb.translate_refillEntry hv0 hv1 hmatch
    rw [← Function.update_self (MipsBase.entryIndex idx) (s.tlb.refillEntry address lo0 lo1)
      s.tlb.entry] at htranslate
    have hscan := findSome?_finRange_eq_some htranslate
      fun j hj => s.tlb.translate_of_ne hmiss lo0 lo1 hj
    rw [refillScan, hscan]
    exact ⟨rfl, rfl⟩

/-- A processor without devices whose translation unit is empty. -/
def emptyTlbState : MipsBase MipsTlbNormal Unit := { tlb := {}, device := () }

/-- After `TLBWI` the address still misses. -/
theorem highAddress_not_refilled :
    inKseg 0x10001000 = false ∧ emptyTlbState.tlb.Misses 0x10001000 ∧
      ∃ s', MipsBase.cop0Command 0x42000002
        { emptyTlbState with tlb := emptyTlbState.tlb.refillRegisters 0x10001000 0x42 0x82 } =
          .ok ((), s') ∧ ¬ s'.tlb.Refilled 0x10001000 0x42 0x82 :=
  ⟨by decide, by unfold Misses; decide, _, rfl, fun h => absurd h.1 (by decide)⟩

theorem lowAddress_refilled :
    (MipsBase.tlbWrite 0 (emptyTlbState.tlb.refillRegisters 0x00401000 0x42 0x82)).Refilled
      0x00401000 0x42 0x82 :=
  (@refilled_iff Unit emptyTlbState
    { emptyTlbState with
      tlb := MipsBase.tlbWrite 0 (emptyTlbState.tlb.refillRegisters 0x00401000 0x42 0x82) }
    0x42000002 0x00401000 0x42 0x82 (.inl (by decide)) (by decide) (by unfold Misses; decide)
    (by decide) (by decide) rfl).mpr (by decide)

end Refill

end MipsTlbNormal

end NgMips
