import NgMips.Proofs.Coprocessors
import NgMips.Proofs.Kept
import NgMips.Proofs.TlbCommands

/-!
# Wired entries

`Wired` sets the first entries of the translation unit aside: `TLBWR` writes none of them, so only
`TLBWI` does, and only a write to `Wired` changes which ones they are.  A run that executes neither
keeps them (`run_keeps_wired`).  With them it keeps the translation of every page a wired entry maps
for all address spaces, whatever is done to the other entries and to `EntryHi`.
-/

namespace NgMips

/-! ## Pinned pages -/

lemma MipsTlbEntry.translate_global {entry : MipsTlbEntry} (h : entry.gBit = true)
    (entryHi address : BitVec 64) : entry.translate entryHi address = entry.translate 0 address := by
  rw [translate, translate, matchesAddress, matchesAddress, h, Bool.true_or, Bool.true_or]

lemma MipsTlbEntry.translate_of_vpn {entry : MipsTlbEntry} {address : BitVec 64}
    (h : entry.vpnMatch address = false) (entryHi : BitVec 64) :
    entry.translate entryHi address = none := by
  rw [translate, matchesAddress, h, Bool.false_and, if_neg (by simp)]

namespace MipsTlbNormal

/-- The entry maps the address for all address spaces, and no entry before it has the page. -/
structure Pins (tlb : MipsTlbNormal) (i : Fin 32) (address : BitVec 64) : Prop where
  global : (tlb.entry i).gBit = true
  valid : ((tlb.entry i).translate 0 (address &&& 0xFFFFFFFF)).isSome = true
  first : ∀ j < i, (tlb.entry j).vpnMatch (address &&& 0xFFFFFFFF) = false

lemma Pins.of_entry {tlb tlb' : MipsTlbNormal} {i : Fin 32} {address : BitVec 64}
    (h : tlb.Pins i address) (hentry : ∀ j ≤ i, tlb'.entry j = tlb.entry j) :
    tlb'.Pins i address where
  global := by rw [hentry i le_rfl]; exact h.global
  valid := by rw [hentry i le_rfl]; exact h.valid
  first j hj := by rw [hentry j hj.le]; exact h.first j hj

/-- The translation of a pinned page is that of its entry. -/
lemma Pins.scan {tlb : MipsTlbNormal} {i : Fin 32} {address : BitVec 64} (h : tlb.Pins i address) :
    (List.finRange 32).findSome? (fun j => (tlb.entry j).translate tlb.entryHi (address &&& 0xFFFFFFFF))
      = (tlb.entry i).translate 0 (address &&& 0xFFFFFFFF) := by
  obtain ⟨result, hresult⟩ := Option.isSome_iff_exists.mp h.valid
  rw [hresult]
  refine findSome?_finRange_of_first ?_ fun j hj => MipsTlbEntry.translate_of_vpn (h.first j hj) _
  rw [MipsTlbEntry.translate_global h.global, hresult]

/-- Only the entries up to its own decide about a pinned page. -/
lemma Pins.translateAddress_eq {tlb tlb' : MipsTlbNormal} {i : Fin 32} {address : BitVec 64}
    (h : tlb.Pins i address) (hentry : ∀ j ≤ i, tlb'.entry j = tlb.entry j) :
    tlb'.translateAddress address = tlb.translateAddress address := by
  rw [MipsTlbNormal.translateAddress, MipsTlbNormal.translateAddress, h.scan,
    (h.of_entry hentry).scan, hentry i le_rfl]

end MipsTlbNormal

namespace MipsBase

variable {δ : Type} {m : MipsSetup δ}

/-- `Wired` is as it was, and so are the entries it sets aside. -/
structure WiredKept (s t : MipsBase MipsTlbNormal δ) : Prop where
  wired : t.cop0.wired = s.cop0.wired
  entry : ∀ i : Fin 32, i.val < s.cop0.wired.toNat → t.tlb.entry i = s.tlb.entry i

namespace WiredKept

variable {s t u : MipsBase MipsTlbNormal δ}

lemma of_same (hwired : t.cop0.wired = s.cop0.wired) (hentry : t.tlb.entry = s.tlb.entry) :
    WiredKept s t := ⟨hwired, fun _ _ => by rw [hentry]⟩

lemma refl (s : MipsBase MipsTlbNormal δ) : WiredKept s s := .of_same rfl rfl

lemma trans (h : WiredKept s t) (h' : WiredKept t u) : WiredKept s u where
  wired := h'.wired.trans h.wired
  entry i hi := (h'.entry i (by rw [h.wired]; exact hi)).trans (h.entry i hi)

/-- A page pinned by a wired entry is translated as before. -/
lemma translateAddress (h : WiredKept s t) {i : Fin 32} (hi : i.val < s.cop0.wired.toNat)
    {address : BitVec 64} (hpins : s.tlb.Pins i address) :
    t.tlb.translateAddress address = s.tlb.translateAddress address :=
  hpins.translateAddress_eq fun j hj => h.entry j (lt_of_le_of_lt hj hi)

end WiredKept

variable (m) in
/-- The instruction neither writes `Wired` nor writes the entry `Index` names. -/
def SparesWired (opcode : BitVec 32) : Prop :=
  writesReg m 6 opcode = false ∧ isCop0Command m opcode 0x02 = false

instance (opcode : BitVec 32) : Decidable (SparesWired m opcode) :=
  inferInstanceAs (Decidable (_ ∧ _))

/-! ## The operations -/

section Operations

/-- No command but `TLBWI` writes a wired entry. -/
lemma wiredKept_cop0Command {opcode : BitVec 32} (hfunct : functField opcode ≠ 0x02#6) :
    Prog.Moves WiredKept (cop0Command opcode : CpuM MipsTlbNormal δ Unit) := by
  rw [cop0Command]
  split
  case h_2 h => exact absurd h hfunct
  case h_3 =>
    intro s a t h
    obtain ⟨rn, u, hrandom, hwrite⟩ := Prog.bind_ok.mp h
    obtain ⟨state, hloop, rfl⟩ := readRandom_some hrandom
    obtain ⟨hrn, hwired, -⟩ := randomLoop_some hloop
    rw [← Prog.state_eq hwrite]
    exact ⟨rfl, fun i hi => tlbWrite_entry hrn s.tlb (lt_of_lt_of_le hi hwired)⟩
  case h_6 =>
    intro s a t h
    rw [eret_run] at h
    rw [← Prog.state_eq h]
    exact .of_same rfl rfl
  case h_7 => exact .of_pure .refl ()
  all_goals exact .of_modify fun _ => .of_same rfl rfl

lemma wiredKept_cop0Read64 (idx : ℕ) :
    Prog.Moves WiredKept (cop0Read64 idx : CpuM MipsTlbNormal δ (BitVec 64)) := by
  intro s a t h
  rw [cop0Read64.eq_def] at h
  split at h
  case h_2 =>
    obtain ⟨rn, u, hrandom, hrest⟩ := Prog.bind_ok.mp h
    obtain ⟨state, rfl⟩ := readRandom_ok hrandom
    rw [← Prog.state_eq hrest]
    exact .of_same rfl rfl
  case h_9 =>
    rw [← Prog.state_eq h]
    refine .of_same ?_ rfl
    change (s.cop0.getCount s.timestamp).2.wired = s.cop0.wired
    rw [MipsCop0.getCount]
    split <;> rfl
  all_goals
    rw [← Prog.state_eq h]
    exact .refl s

/-- No register but `Wired` changes what is wired. -/
lemma wiredKept_cop0Write {context value : BitVec 64} {idx : ℕ} (hidx : idx ≠ 6) :
    Prog.Moves WiredKept (cop0Write context idx value : CpuM MipsTlbNormal δ Unit) := by
  intro s a t h
  rw [cop0Write.eq_def] at h
  split at h
  case h_6 => exact absurd rfl hidx
  case h_8 =>
    rw [← Prog.state_eq h]
    refine .of_same ?_ rfl
    change (s.cop0.writeCount s.timestamp (value.setWidth 32)).wired = s.cop0.wired
    rw [MipsCop0.writeCount]
    split <;> rfl
  all_goals
    rw [← Prog.state_eq h]
    exact .of_same rfl rfl

lemma Quiet.wiredKept {s t : MipsBase MipsTlbNormal δ} (h : Quiet s t) : WiredKept s t := by
  refine .of_same (by rw [h.cop0]) ?_
  rcases h.tlb with htlb | ⟨address, htlb⟩
  · rw [htlb]
  · rw [htlb]
    rfl

variable {opcode : BitVec 32}

/-- No operation of an instruction that spares the wired entries changes them. -/
lemma wiredKept_step (hm : m.IsN64) (hspares : SparesWired m opcode)
    (s t : MipsBase MipsTlbNormal δ) (h : CopStep m opcode (getInstFuncPtr true opcode) s t) :
    WiredKept s t := by
  cases h with
  | quiet h => exact h.wiredKept
  | command hcop hcommand hrun =>
      refine wiredKept_cop0Command (fun hfunct => ?_) s () t hrun
      refine absurd hspares.2 ?_
      simp [isCop0Command, hcop, hfunct, hm.is64Bit, hcommand]
  | read hrun => exact wiredKept_cop0Read64 _ s _ t hrun
  | write hcop hcommand hidx hrun =>
      refine wiredKept_cop0Write (fun h => ?_) s () t hrun
      exact copWriteIdx_ne hspares.1 hcop hcommand (hidx.trans (by rw [h]; rfl))
  | fpuCommand _ _ _ hstate => exact hstate ▸ .of_same rfl rfl
  | fpuWrite32 _ _ _ hstate => exact hstate ▸ .of_same rfl rfl
  | fpuWrite64 _ _ _ hstate => exact hstate ▸ .of_same rfl rfl

lemma WiredKept.exception (hm : m.IsN64) {cause : ExceptionCause} {s t : MipsBase MipsTlbNormal δ}
    (h : triggerException m cause s = .ok ((), t)) : WiredKept s t := by
  cases triggerException_outcome hm h with
  | off _ => exact .refl s
  | plain _ _ _ => exact .of_same rfl rfl
  | delayed _ _ _ _ _ => exact .of_same rfl rfl

lemma wiredKept_callInst (hm : m.IsN64) (hspares : SparesWired m opcode)
    {s t : MipsBase MipsTlbNormal δ}
    (h : callInst m opcode (getInstFuncPtr m.kIs64Bit opcode) s = .ok ((), t)) : WiredKept s t := by
  rcases callInst_cases hm h with ⟨cause, t₀, -, hreport, htrigger⟩ | ⟨x, hx, hact⟩
  · have hstart : WiredKept s t₀ := by cases hreport <;> exact .of_same rfl rfl
    exact hstart.trans (.exception hm htrigger)
  · rw [hm.is64Bit] at hx
    exact act_cops (wiredKept_step hm hspares) (fun _ _ _ => .trans) hm hx hact

end Operations

/-! ## Runs -/

lemma wiredKept_checked (s : MipsBase MipsTlbNormal δ) : WiredKept s (checked m s) := by
  obtain ⟨last, surpress, hstate⟩ :=
    (latched m s).cop0.checkCompareInterrupt_state s.timestamp
  refine .of_same ?_ rfl
  rw [checked, hstate]
  rfl

lemma keptBy_wiredKept (hm : m.IsN64) (s : MipsBase MipsTlbNormal δ) :
    KeptBy m (fun opcode _ => SparesWired m opcode) (WiredKept s) :=
  .of_registers hm (fun h hcop0 htlb _ => h.trans (.of_same (by rw [hcop0]) (by rw [htlb])))
    (fun h => h.trans (.of_same rfl rfl)) (fun _ {t} h => h.trans (wiredKept_checked t))
    (fun htrigger h => h.trans (.exception hm htrigger))
    fun {opcode t u} hspares hcall h => by
      have hstart : WiredKept t (started opcode t) := .of_same rfl rfl
      exact (h.trans hstart).trans (wiredKept_callInst hm hspares hcall)

/-- The wired entries of the first state are those of the second one, and the pages they pin are
translated alike. -/
structure WiredAlike (s t : MipsBase MipsTlbNormal δ) : Prop extends WiredKept s t where
  pinned : ∀ (i : Fin 32) (address : BitVec 64), i.val < s.cop0.wired.toNat →
    s.tlb.Pins i address → translateAddress t.tlb address = translateAddress s.tlb address

lemma WiredKept.alike {s t : MipsBase MipsTlbNormal δ} (h : WiredKept s t) : WiredAlike s t :=
  ⟨h, fun _ _ hi hpins => h.translateAddress hi hpins⟩

/-- **Wired entries outlive runs.**  When none of the instructions a run executes writes `Wired` or
is `TLBWI`, every instruction finds the entries that were wired at the start, and translates the pages
they pin as at the start; and so does whoever looks when the run has ended. -/
theorem run_keeps_wired (hm : m.IsN64) {fuel : ℕ} {cycle : ℤ} {s : MipsBase MipsTlbNormal δ}
    (hd : DecodedBlocks m s.cache)
    (hspares : ∀ d ∈ runCalls m fuel cycle s, SparesWired m d.opcode) :
    Throughout m fuel cycle s (WiredAlike s) := by
  have hstarted : ∀ {opcode} {t : MipsBase MipsTlbNormal δ}, WiredKept s t →
      WiredKept s (started opcode t) := fun h => h.trans (.of_same rfl rfl)
  obtain ⟨hcalls, hend⟩ := (keptBy_wiredKept hm s).throughout hstarted hd (.refl s) hspares
  exact ⟨fun d hmem => (hcalls d hmem).alike, fun r s' hrun => (hend r s' hrun).alike⟩

/-! ## A page that stays mapped -/

/-- `TLBWR`, `MTC0 $1, EntryHi` and `LW $2, 0($3)`, with the page of the word in the one wired
entry. -/
def pinning : MipsBase MipsTlbNormal WordMemory :=
  { programState 0x80001000 0x1000 [0x42000006, 0x40815000, 0x8C620000] with
    gpr := Function.update (Function.update (fun _ => 0) 1 0x4000) 3 0x2000
    cop0 := { wired := 1 }
    tlb := {
      entry := fun i =>
        if i.val = 0 then { entryHi := 0x2000, entryLo0 := 0x47, entryLo1 := 0x47 } else {}
      entryHi := 0x6000
      entryLo0 := 0x86
      entryLo1 := 0x86 } }

/-- `run_keeps_wired` on a program that writes another entry, changes `EntryHi` and loads from the
page. -/
theorem pinning_keeps :
    returnedValue (run exceptionSetup 10 5) pinning = some 6 ∧
      pinning.tlb.Pins (entryIndex 0) 0x2004 ∧
      WiredAlike pinning (lastState (run exceptionSetup 10 5) pinning) ∧
      (lastState (run exceptionSetup 10 5) pinning).tlb.entry (entryIndex 1) ≠
        pinning.tlb.entry (entryIndex 1) := by
  have hd : DecodedBlocks exceptionSetup pinning.cache := by
    intro e he
    exact absurd he (by simp [pinning, programState])
  have hreturned : returnedValue (run exceptionSetup 10 5) pinning = some 6 := by decide +kernel
  have hspares : ∀ d ∈ runCalls exceptionSetup 10 5 pinning, SparesWired exceptionSetup d.opcode := by
    decide +kernel
  have hkept := (run_keeps_wired (n64Setup_isN64 _) hd hspares).2 _ _ (run_of_returned hreturned)
  exact ⟨hreturned, ⟨by decide +kernel, by decide +kernel, by decide +kernel⟩, hkept,
    by decide +kernel⟩

end MipsBase

end NgMips
