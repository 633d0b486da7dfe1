import NgMips.Proofs.Branch

/-!
# Processors that agree

Two states agree when they differ only in what the two interpreters treat differently: the
high words of the program counters, the counted cycles with the timer behind them, the block
cache and the reports to the observer.  Agreement is kept by every handler
(`callInst_agree`), except by those that read what it leaves out: `Count`, and the whole of
`EPC`.  An idle loop only counts cycles, so it does not matter that one of the processors may
recognise it and the other not; the delay slot must be there to be looked at.
-/

namespace NgMips

/-! ## Low words -/

/-- Two addresses are the same modulo `2 ^ 32`. -/
def SameLow (a b : BitVec 64) : Prop := a.setWidth 32 = b.setWidth 32

namespace SameLow

variable {a b c : BitVec 64}

lemma refl (a : BitVec 64) : SameLow a a := rfl

lemma symm (h : SameLow a b) : SameLow b a := Eq.symm h

lemma trans (h : SameLow a b) (h' : SameLow b c) : SameLow a c := Eq.trans h h'

lemma add (h : SameLow a b) (c : BitVec 64) : SameLow (a + c) (b + c) := by
  simp only [SameLow] at h ⊢
  rw [BitVec.setWidth_add _ _ (by omega), BitVec.setWidth_add _ _ (by omega), h]

lemma sub (h : SameLow a b) (c : BitVec 64) : SameLow (a - c) (b - c) := by
  rw [BitVec.sub_eq_add_neg, BitVec.sub_eq_add_neg]
  exact h.add _

/-- The mask of the cached interpreter keeps the low word. -/
lemma mask_eq (a : BitVec 64) : a &&& 0xFFFFFFFF = (a.setWidth 32).setWidth 64 := by
  refine BitVec.eq_of_toNat_eq ?_
  rw [BitVec.toNat_and, BitVec.toNat_setWidth, BitVec.toNat_setWidth]
  show a.toNat &&& (2 ^ 32 - 1) = _
  rw [Nat.and_two_pow_sub_one_eq_mod]
  omega

lemma of_masked (a : BitVec 64) : SameLow (a &&& 0xFFFFFFFF) a := by
  rw [SameLow, mask_eq, BitVec.setWidth_setWidth_of_le _ (by omega), BitVec.setWidth_eq]

lemma and_mask (h : SameLow a b) : a &&& 0xFFFFFFFF = b &&& 0xFFFFFFFF := by
  rw [mask_eq a, mask_eq b, h]

lemma inKseg (h : SameLow a b) : inKseg a = inKseg b := by
  rw [NgMips.inKseg, NgMips.inKseg, h.and_mask]

lemma ksegPhysical (h : SameLow a b) : ksegPhysical a = ksegPhysical b := by
  have hlow : ∀ x : BitVec 64, NgMips.ksegPhysical x = x &&& 0xFFFFFFFF &&& 0x1FFFFFFF := by
    intro x
    rw [BitVec.and_assoc]
    rfl
  rw [hlow a, hlow b, h.and_mask]

end SameLow

/-- The target of a J-type jump depends on the low word of the program counter. -/
lemma jumpTarget_congr (opcode : BitVec 32) {a b : BitVec 64} (h : SameLow a b) :
    jumpTarget opcode a = jumpTarget opcode b := by
  have hlow : (a + 4).setWidth 32 = (b + 4).setWidth 32 := h.add 4
  simp only [jumpTarget, BitVec.setWidth_and, hlow]

/-! ## Agreement -/

/-- The registers of coprocessor 0 agree, the timer apart. -/
structure MipsCop0.Agree (c d : MipsCop0) : Prop where
  context : c.context = d.context
  wired : c.wired = d.wired
  badvaddr : c.badvaddr = d.badvaddr
  compare : c.compare = d.compare
  sr : c.sr = d.sr
  cause : c.cause = d.cause
  epc : SameLow c.epc d.epc
  errorEpc : c.errorEpc = d.errorEpc

namespace MipsBase

variable {δ : Type}

/-- The states agree: program counters modulo `2 ^ 32`, and everything else that does not
depend on the number of cycles or on the block cache. -/
structure Agree (s t : MipsBase MipsTlbNormal δ) : Prop where
  gpr : s.gpr = t.gpr
  hi : s.hi = t.hi
  lo : s.lo = t.lo
  pc : SameLow s.pc t.pc
  nextPc : SameLow s.nextPc t.nextPc
  llbit : s.llbit = t.llbit
  hasBranchDelay : s.hasBranchDelay = t.hasBranchDelay
  branchDelayDst : s.hasBranchDelay = true → SameLow s.branchDelayDst t.branchDelayDst
  compareInterrupt : s.compareInterrupt = t.compareInterrupt
  copCause : s.copCause = t.copCause
  halt : s.halt = t.halt
  tlb : s.tlb = t.tlb
  cop0 : s.cop0.Agree t.cop0
  fpu : s.fpu = t.fpu
  device : s.device = t.device
  xorshiftState : s.xorshiftState = t.xorshiftState

namespace Agree

variable {s t : MipsBase MipsTlbNormal δ}

lemma refl (s : MipsBase MipsTlbNormal δ) : Agree s s :=
  ⟨rfl, rfl, rfl, rfl, rfl, rfl, rfl, fun _ => rfl, rfl, rfl, rfl, rfl,
    ⟨rfl, rfl, rfl, rfl, rfl, rfl, rfl, rfl⟩, rfl, rfl, rfl⟩

/-- A fetch translates the low word. -/
lemma translate (h : Agree s t) {a b : BitVec 64} (hab : SameLow a b) :
    translateAddress s.tlb a = translateAddress t.tlb b := by
  rw [h.tlb]
  exact MipsTlbNormal.translateAddress_congr _ hab.and_mask

lemma setGpr (h : Agree s t) (gpr : BitVec 5 → BitVec 64) :
    Agree { s with gpr := gpr } { t with gpr := gpr } := { h with gpr := rfl }

lemma setCop0 (h : Agree s t) {c d : MipsCop0} (hcd : c.Agree d) :
    Agree { s with cop0 := c } { t with cop0 := d } := { h with cop0 := hcd }

lemma setTlb (h : Agree s t) (tlb : MipsTlbNormal) :
    Agree { s with tlb := tlb } { t with tlb := tlb } := { h with tlb := rfl }

/-- Control goes to the same address. -/
lemma setPc (h : Agree s t) {a b c d : BitVec 64} (hpc : SameLow a b) (hnext : SameLow c d) :
    Agree { s with pc := a, nextPc := c } { t with pc := b, nextPc := d } :=
  { h with pc := hpc, nextPc := hnext }

lemma branched (h : Agree s t) {a b : BitVec 64} (hab : SameLow a b) :
    Agree (branched a s) (branched b t) :=
  { h with hasBranchDelay := rfl, branchDelayDst := fun _ => hab }

lemma linked (h : Agree s t) (dstReg : BitVec 5) : Agree (linked dstReg s) (linked dstReg t) := by
  have hvalue : linkValue s.pc = linkValue t.pc := by
    rw [linkValue, linkValue, h.pc.add 8]
  rw [MipsBase.linked, MipsBase.linked]
  split
  · exact h
  · rw [h.gpr, hvalue]
    exact h.setGpr _

/-- What a device calls back changes both processors in the same way. -/
lemma serve (h : Agree s t) (call : CpuCall) : Agree (s.serve call) (t.serve call) := by
  cases call with
  | setHalt halt => exact { h with halt := rfl }
  | queueCacheClear => exact { h with }

lemma serve_all (h : Agree s t) (calls : List CpuCall) :
    Agree (calls.foldl MipsBase.serve s) (calls.foldl MipsBase.serve t) := by
  induction calls generalizing s t with
  | nil => exact h
  | cons call calls ih => exact ih (h.serve call)

end Agree

/-! ## Operations that respect agreement -/

/-- From states that agree, the program returns the same value and leaves states that
agree. -/
abbrev Respects {α : Type} (x : CpuM MipsTlbNormal δ α) : Prop := Prog.Sim Agree x x

variable {m : MipsSetup δ} {opcode : BitVec 32} {func : MipsInstId}

lemma respects_read {α : Type} {f : MipsBase MipsTlbNormal δ → α}
    (h : ∀ s t, Agree s t → f s = f t) : Respects (read f) := .of_read h

lemma respects_emit (e : Event) : Respects (emit e : CpuM MipsTlbNormal δ Unit) :=
  .of_modify fun _ _ h => { h with }

lemma respects_access {α : Type} (f : δ → Served δ α) :
    Respects (access f : CpuM MipsTlbNormal δ α) := by
  intro s t h a s' hs
  obtain ⟨ha, hs'⟩ := Prog.ok_inj hs
  have hserved : Agree { s with device := (f t.device).device }
      { t with device := (f t.device).device } := { h with device := rfl }
  refine ⟨(f t.device).calls.foldl MipsBase.serve { t with device := (f t.device).device }, ?_, ?_⟩
  · rw [← ha, h.device]
    rfl
  · rw [← hs', h.device]
    exact hserved.serve_all _

lemma respects_readGpr32 (idx : BitVec 5) :
    Respects (readGpr32 idx : CpuM MipsTlbNormal δ (BitVec 32)) :=
  respects_read fun s t h => by rw [h.gpr]

lemma respects_readGpr64 (idx : BitVec 5) : Respects (readGpr64 (T := MipsTlbNormal) m idx) :=
  respects_read fun s t h => by rw [h.gpr]

lemma respects_writeGpr64 (idx : BitVec 5) (value : BitVec 64) :
    Respects (writeGpr64 idx value : CpuM MipsTlbNormal δ Unit) := by
  rw [writeGpr64]
  split
  · exact .of_pure ()
  · refine .of_modify fun s t h => ?_
    rw [h.gpr]
    exact h.setGpr _

lemma respects_setBranchDelay {dst : MipsBase MipsTlbNormal δ → BitVec 64}
    (hdst : ∀ s t, Agree s t → SameLow (dst s) (dst t)) : Respects (setBranchDelay dst) :=
  .of_modify fun s t h => h.branched (hdst s t h)

lemma respects_setCop0 {f : BitVec 64 → MipsCop0 → MipsCop0}
    (hf : ∀ ts ts' c d, c.Agree d → (f ts c).Agree (f ts' d)) :
    Respects (setCop0 f : CpuM MipsTlbNormal δ Unit) :=
  .of_modify fun _ _ h => h.setCop0 (hf _ _ _ _ h.cop0)

lemma respects_modifyTlb (f : MipsTlbNormal → MipsTlbNormal) :
    Respects (modifyTlb f : CpuM MipsTlbNormal δ Unit) :=
  .of_modify fun s t h => by
    rw [h.tlb]
    exact h.setTlb _

/-! ## Exceptions -/

/-- The registers of coprocessor 0 after an exception agree. -/
lemma agree_enteredCop0 {s t : MipsBase MipsTlbNormal δ} (h : Agree s t) (cause : ExceptionCause)
    {a b : BitVec 64} (hab : SameLow a b) (bd : Bool) :
    (enteredCop0 m cause a bd s).Agree (enteredCop0 m cause b bd t) := by
  have hexl : s.cop0.exl = t.cop0.exl := by rw [MipsCop0.exl, MipsCop0.exl, h.cop0.sr]
  refine { h.cop0 with sr := ?_, cause := ?_, epc := ?_ }
  · simp only [enteredCop0, hexl, h.cop0.sr]
  · simp only [enteredCop0, h.cop0.cause, h.copCause, h.device, h.compareInterrupt]
  · simp only [enteredCop0, hexl]
    split
    · exact h.cop0.epc
    · exact hab

lemma agree_entered {s t : MipsBase MipsTlbNormal δ} (h : Agree s t) (cause : ExceptionCause)
    {a b : BitVec 64} (hab : SameLow a b) (bd : Bool) :
    Agree (entered m cause a bd s) (entered m cause b bd t) :=
  (h.setCop0 (agree_enteredCop0 h cause hab bd)).setPc (.refl _) (.refl _)

lemma agree_told {s t : MipsBase MipsTlbNormal δ} (h : Agree s t) (e e' : Event) :
    Agree (told e s) (told e' t) := { h with }

/-- An exception in a delay slot fetches the branch at the same physical address. -/
lemma respects_triggerException (hm : m.IsN64) (cause : ExceptionCause) :
    Respects (triggerException (T := MipsTlbNormal) m cause) := by
  intro s t h a s' hs
  cases triggerException_outcome hm hs with
  | off hexc => exact ⟨t, triggerException_off hexc cause t, h⟩
  | plain hexc htlb hbd =>
      have hbd' : t.hasBranchDelay = false := h.hasBranchDelay ▸ hbd
      refine ⟨entered m cause t.pc false (told (.exception cause) t), ?_, ?_⟩
      · rw [triggerException_run hm hexc cause hbd', if_neg (by simp [htlb])]
      · exact agree_entered (agree_told h _ _) cause h.pc false
  | delayed hexc htlb hbd hfound hslot =>
      have hbd' : t.hasBranchDelay = true := h.hasBranchDelay ▸ hbd
      have hpc : SameLow (s.pc - 4) (t.pc - 4) := h.pc.sub 4
      have htrans := h.translate hpc
      have hword : wordAt m (t.pc - 4) t = wordAt m (s.pc - 4) s := by
        rw [wordAt, wordAt, htrans, h.device]
      rw [htrans] at hfound
      refine ⟨entered m cause (t.pc - 4) true (fetched m (t.pc - 4) (givenUp cause t)), ?_, ?_⟩
      · rw [triggerException_pending hm hexc cause hbd' hfound, hword, if_pos hslot,
          if_neg (by simp [htlb])]
      · refine agree_entered ?_ cause hpc true
        have hgiven : Agree (givenUp cause s) (givenUp cause t) :=
          { h with
            hasBranchDelay := rfl
            branchDelayDst := fun hno => absurd hno (by simp [givenUp]) }
        have hdevice : (fetched m (s.pc - 4) (givenUp cause s)).device =
            (fetched m (t.pc - 4) (givenUp cause t)).device := by
          show (m.bus.fetch s.device (translateAddress s.tlb (s.pc - 4)).address).2 = _
          rw [htrans, h.device]
          rfl
        exact { hgiven with device := hdevice }

/-- A translation fault is reported with the same address on both sides. -/
lemma respects_translationFault (hm : m.IsN64) (cause : ExceptionCause) (address : BitVec 64) :
    Respects (translationFault (T := MipsTlbNormal) m (triggerException m) cause address) := by
  intro s t h a s' hs
  rw [translationFault_run hm] at hs
  rw [translationFault_run hm]
  have hcop0 : (faulted address s).cop0.Agree (faulted address t).cop0 :=
    { h.cop0 with badvaddr := rfl }
  have htlb : (faulted address s).tlb = (faulted address t).tlb := by
    rw [faulted, faulted, h.tlb]
  have hfaulted : Agree (faulted address s) (faulted address t) :=
    { h with cop0 := hcop0, tlb := htlb }
  exact respects_triggerException hm cause _ _ hfaulted a s' hs

/-! ## Memory -/

/-- A look at a part of the state that agrees. -/
lemma respects_of_run {α : Type} {x : CpuM MipsTlbNormal δ α} {f : MipsBase MipsTlbNormal δ → α}
    (hx : ∀ s, x s = .ok (f s, s)) (hf : ∀ s t, Agree s t → f s = f t) : Respects x := by
  intro s t h a s' hs
  rw [hx] at hs
  obtain ⟨rfl, rfl⟩ := Prog.ok_inj hs
  exact ⟨t, by rw [hx, hf s t h], h⟩

lemma respects_status (hm : m.IsN64) : Respects (copRead32Internal (T := MipsTlbNormal) m 12) :=
  respects_of_run (copRead32Internal_status hm) fun _ _ h => h.cop0.sr

lemma respects_loadWith (hm : m.IsN64) {w : ℕ}
    (load : δ → BitVec 64 → Served δ (Option (BitVec w))) (address : BitVec 64) :
    Respects (loadWith (T := MipsTlbNormal) m load address) := by
  refine .bind (respects_read fun s t h => by rw [h.tlb]) fun result => ?_
  split
  · refine .bind (respects_emit _) fun _ => .bind (respects_access _) fun value => ?_
    split
    · exact .of_pure value
    · exact .of_throw _ _
  · exact .bind (respects_translationFault hm _ _) fun _ => .of_pure none

lemma respects_isIsolated (hm : m.IsN64) : Respects (isIsolated (T := MipsTlbNormal) m) := by
  rw [isIsolated]
  split
  · exact .bind (respects_status hm) fun _ => .of_pure _
  · exact .of_pure _

lemma respects_storeWith (hm : m.IsN64) {w : ℕ}
    (store : δ → BitVec 64 → BitVec w → Served δ Unit) (address : BitVec 64) (value : BitVec w) :
    Respects (storeWith (T := MipsTlbNormal) m store address value) := by
  refine .bind (respects_isIsolated hm) fun isolated => ?_
  split
  · exact .of_pure ()
  · refine .bind (respects_read fun s t h => by rw [h.tlb]) fun result => ?_
    split
    · split
      · exact respects_translationFault hm _ _
      · exact .bind (respects_emit _) fun _ => respects_access _
    · exact respects_translationFault hm _ _

/-! ## The coprocessor ports -/

lemma respects_readRandom : Respects (readRandom : CpuM MipsTlbNormal δ (BitVec 32)) := by
  intro s t h a s' hs
  have hloop : randomLoop t.cop0.wired (2 ^ 32) t.xorshiftState =
      randomLoop s.cop0.wired (2 ^ 32) s.xorshiftState := by rw [h.cop0.wired, h.xorshiftState]
  rw [readRandom] at hs ⊢
  rw [hloop]
  split at hs
  · next rn state _ =>
      obtain ⟨rfl, rfl⟩ := Prog.ok_inj hs
      exact ⟨{ t with xorshiftState := state }, rfl, { h with xorshiftState := rfl }⟩
  · exact absurd hs (by simp)

/-- `ERET` returns to addresses that agree. -/
lemma respects_eret : Respects (eret : CpuM MipsTlbNormal δ Unit) := by
  have hback : ∀ (bit : BitVec 32) {a b : BitVec 64}, SameLow a b →
      Prog.Sim Agree
        (do
          MipsBase.setCop0 fun _ cop0 => { cop0 with sr := cop0.sr &&& ~~~bit }
          setPcDuringInst a
          setLlbit false : CpuM MipsTlbNormal δ Unit)
        (do
          MipsBase.setCop0 fun _ cop0 => { cop0 with sr := cop0.sr &&& ~~~bit }
          setPcDuringInst b
          setLlbit false) := by
    intro bit a b hab
    refine .bind (respects_setCop0 fun _ _ _ _ hc => { hc with sr := by rw [hc.sr] }) fun _ => ?_
    refine .bind (.of_modify fun _ _ h => h.setPc hab hab) fun _ => ?_
    exact .of_modify fun _ _ h => { h with llbit := rfl }
  intro s t h a s' hs
  have herl : t.cop0.erl = s.cop0.erl := by rw [MipsCop0.erl, MipsCop0.erl, h.cop0.sr]
  have herror : SameLow s.cop0.errorEpc t.cop0.errorEpc := by
    rw [h.cop0.errorEpc]
    exact .refl _
  rw [eret, Prog.bind_of_ok (read_run _ _)] at hs ⊢
  rw [herl]
  split at hs
  · next hcase =>
      rw [if_pos hcase]
      exact hback 4 herror s t h a s' hs
  · next hcase =>
      rw [if_neg hcase]
      exact hback 2 h.cop0.epc s t h a s' hs

lemma respects_cop0Command (command : BitVec 32) :
    Respects (cop0Command command : CpuM MipsTlbNormal δ Unit) := by
  rw [cop0Command]
  split
  · exact respects_modifyTlb _
  · exact respects_modifyTlb _
  · exact .bind respects_readRandom fun _ => respects_modifyTlb _
  · exact respects_modifyTlb _
  · exact respects_setCop0 fun _ _ _ _ hc => { hc with sr := by rw [hc.sr] }
  · exact respects_eret
  · exact .of_pure ()

/-- Every register of coprocessor 0 reads the same, `Count` and the whole of `EPC` apart. -/
lemma respects_cop0Read64 {idx : ℕ} (hcount : idx ≠ 9) (hepc : idx ≠ 14) :
    Respects (cop0Read64 idx : CpuM MipsTlbNormal δ (BitVec 64)) := by
  rw [cop0Read64.eq_def]
  split
  case h_2 => exact .bind respects_readRandom fun _ => .of_pure _
  case h_9 => exact absurd rfl hcount
  case h_14 => exact absurd rfl hepc
  case h_15 => exact .of_pure _
  case h_17 => exact .of_pure _
  all_goals
    refine respects_read fun s t h => ?_
    simp only [h.tlb, h.cop0.context, h.cop0.wired, h.cop0.badvaddr, h.cop0.compare, h.cop0.sr,
      h.cop0.cause, h.cop0.errorEpc]

/-- The low word of `EPC` agrees, too. -/
lemma respects_cop0Read32 {idx : ℕ} (hcount : idx ≠ 9) :
    Respects (cop0Read32 idx : CpuM MipsTlbNormal δ (BitVec 32)) := by
  by_cases hepc : idx = 14
  · have hrun : ∀ s : MipsBase MipsTlbNormal δ,
        cop0Read32 idx s = .ok (s.cop0.epc.setWidth 32, s) := by
      intro s
      rw [hepc]
      rfl
    exact respects_of_run hrun fun _ _ h => h.cop0.epc
  · exact .bind (respects_cop0Read64 hcount hepc) fun _ => .of_pure _

lemma respects_cop0Write (context : BitVec 64) (idx : ℕ) (value : BitVec 64) :
    Respects (cop0Write context idx value : CpuM MipsTlbNormal δ Unit) := by
  have hclear : Respects (clearCompareInterrupt : CpuM MipsTlbNormal δ Unit) :=
    .of_modify fun _ _ h => { h with compareInterrupt := rfl }
  rw [cop0Write.eq_def]
  split
  case h_4 => exact respects_setCop0 fun _ _ _ _ hc => { hc with context := rfl }
  case h_6 => exact respects_setCop0 fun _ _ _ _ hc => { hc with wired := rfl }
  case h_7 => exact respects_setCop0 fun _ _ _ _ hc => { hc with badvaddr := rfl }
  case h_8 =>
    -- Only the timer is written, which need not agree.
    refine respects_setCop0 fun ts ts' c d hc => ?_
    rw [MipsCop0.writeCount, MipsCop0.writeCount]
    split <;> split <;> exact { hc with }
  case h_10 =>
    refine .bind (respects_setCop0 fun _ _ _ _ hc => ?_) fun _ => hclear
    exact { hc with compare := rfl }
  case h_11 => exact respects_setCop0 fun _ _ _ _ hc => { hc with sr := rfl }
  case h_12 => exact respects_setCop0 fun _ _ _ _ hc => { hc with cause := by rw [hc.cause] }
  case h_13 => exact respects_setCop0 fun _ _ _ _ hc => { hc with epc := .refl _ }
  case h_14 => exact respects_setCop0 fun _ _ _ _ hc => { hc with errorEpc := rfl }
  case h_15 => exact .of_pure ()
  all_goals exact respects_modifyTlb _

lemma respects_getFr (hm : m.IsN64) : Respects (getFr (T := MipsTlbNormal) m) :=
  .bind (respects_status hm) fun _ => .of_pure _

lemma respects_setFpu (f : MipsFpu → Except Stop MipsFpu) :
    Respects (setFpu f : CpuM MipsTlbNormal δ Unit) := by
  intro s t h a s' hs
  rw [setFpu] at hs ⊢
  rw [← h.fpu]
  cases hf : f s.fpu with
  | error e =>
      rw [hf] at hs
      exact absurd hs (by simp [Except.map])
  | ok fpu =>
      rw [hf] at hs
      obtain ⟨-, rfl⟩ := Prog.ok_inj hs
      exact ⟨{ t with fpu := fpu }, rfl, { h with fpu := rfl }⟩

/-- Coprocessor 0 sits in slot 0 only. -/
lemma slot_ne_cop0 {copId : BitVec 2} (h : copId ≠ 0) : m.slot copId ≠ .cop0 := by
  simp only [MipsSetup.slot, if_neg h]
  split
  · simp
  · split
    · split <;> simp
    · simp

lemma respects_copCommand (hm : m.IsN64) (copId : BitVec 2) (command : BitVec 32) :
    Respects (copCommand (T := MipsTlbNormal) m copId command) := by
  rw [copCommand]
  split
  · exact respects_cop0Command command
  · exact .bind (respects_getFr hm) fun _ => respects_setFpu _
  · exact respects_access _
  · exact .of_pure ()

lemma respects_copRead32 (hm : m.IsN64) {copId : BitVec 2} {idx : ℕ}
    (hcount : copId = 0 → idx ≠ 9) : Respects (copRead32 (T := MipsTlbNormal) m copId idx) := by
  rw [copRead32]
  split
  · next hslot =>
      have hzero : copId = 0 := by
        by_contra hne
        exact slot_ne_cop0 hne hslot
      exact respects_cop0Read32 (hcount hzero)
  · exact .bind (respects_getFr hm) fun _ => respects_read fun _ _ h => by rw [h.fpu]
  · exact respects_access _
  · exact .of_pure _

lemma respects_copRead64 (hm : m.IsN64) {copId : BitVec 2} {idx : ℕ}
    (hquiet : copId = 0 → idx ≠ 9 ∧ idx ≠ 14) :
    Respects (copRead64 (T := MipsTlbNormal) m copId idx) := by
  rw [copRead64]
  split
  · next hslot =>
      have hzero : copId = 0 := by
        by_contra hne
        exact slot_ne_cop0 hne hslot
      obtain ⟨hcount, hepc⟩ := hquiet hzero
      exact respects_cop0Read64 hcount hepc
  · exact .bind (respects_getFr hm) fun _ => respects_read fun _ _ h => by rw [h.fpu]
  · exact respects_access _
  · exact .of_pure _

lemma respects_copWrite32 (hm : m.IsN64) (copId : BitVec 2) (idx : ℕ) (value : BitVec 32) :
    Respects (copWrite32 (T := MipsTlbNormal) m copId idx value) := by
  rw [copWrite32]
  split
  · exact respects_cop0Write _ idx _
  · exact .bind (respects_getFr hm) fun _ => respects_setFpu _
  · exact respects_access _
  · exact .of_pure ()

lemma respects_copWrite64 (hm : m.IsN64) (copId : BitVec 2) (idx : ℕ) (value : BitVec 64) :
    Respects (copWrite64 (T := MipsTlbNormal) m copId idx value) := by
  rw [copWrite64]
  split
  · exact respects_cop0Write _ idx _
  · exact .bind (respects_getFr hm) fun _ => respects_setFpu _
  · exact respects_access _
  · exact .of_pure ()

lemma respects_copGetFlag (copId : BitVec 2) :
    Respects (copGetFlag (T := MipsTlbNormal) m copId) := by
  rw [copGetFlag]
  split
  · exact respects_read fun _ _ h => by rw [h.fpu]
  · exact respects_read fun _ _ h => by rw [h.device]
  · exact .of_pure _

/-! ## Branches -/

lemma respects_jumpRel (offset : BitVec 32) :
    Respects (jumpRel offset : CpuM MipsTlbNormal δ Unit) :=
  respects_setBranchDelay fun _ _ h => (h.pc.add 4).add _

lemma respects_linkForJump (dstReg : BitVec 5) :
    Respects (linkForJump dstReg : CpuM MipsTlbNormal δ Unit) := by
  intro s t h a s' hs
  rw [linkForJump_run] at hs
  obtain ⟨-, rfl⟩ := Prog.ok_inj hs
  exact ⟨MipsBase.linked dstReg t, linkForJump_run dstReg t, h.linked dstReg⟩

lemma respects_nullifyDelaySlot : Respects (nullifyDelaySlot : CpuM MipsTlbNormal δ Unit) :=
  .of_modify fun _ _ h => { h with nextPc := h.pc.add 8 }

lemma respects_instJal : Respects (instJal opcode : CpuM MipsTlbNormal δ Unit) := by
  intro s t h a s' hs
  rw [instJal_run] at hs
  obtain ⟨-, rfl⟩ := Prog.ok_inj hs
  refine ⟨_, instJal_run t, ?_⟩
  rw [jumpTarget_congr opcode h.pc]
  exact (h.linked 31).branched (.refl _)

/-! ## Idle loops -/

/-- Whether an idle loop was recognised makes no difference. -/
lemma Idled.agree {s s' t t' : MipsBase MipsTlbNormal δ} (hs : Idled s s') (ht : Idled t t')
    (h : Agree s t) : Agree s' t' := by
  rw [hs.eq, ht.eq]
  exact { h with }

lemma Idled.refl (s : MipsBase MipsTlbNormal δ) : Idled s s := ⟨rfl⟩

lemma detectIdleLoop_inKseg (hpure : m.bus.FetchPure) {s : MipsBase MipsTlbNormal δ}
    (hslot : inKseg (s.pc + 4)) : ∃ s', detectIdleLoop m s = .ok ((), s') ∧ Idled s s' := by
  refine detectIdleLoop_found hpure ?_
  rw [MipsTlbNormal.translateAddress_eq, MipsTlbNormal.translateAddress_of_inKseg _ hslot]

lemma instBeq_agree (hpure : m.bus.FetchPure) {s t s' : MipsBase MipsTlbNormal δ}
    (h : Agree s t) (hslot : inKseg (s.pc + 4)) (hs : instBeq m opcode s = .ok ((), s')) :
    ∃ t', instBeq m opcode t = .ok ((), t') ∧ Agree s' t' := by
  have hbranch : Respects (branchR (T := MipsTlbNormal) m opcode false (· == ·)) :=
    .bind (respects_readGpr64 _) fun _ => .bind (respects_readGpr64 _) fun _ => by
      rw [branchIf]
      split
      · exact respects_jumpRel _
      · exact .of_pure ()
  have hslot' : inKseg (t.pc + 4) := by rwa [← (h.pc.add 4).inKseg]
  rw [instBeq] at hs ⊢
  split at hs
  · next hidle =>
      obtain ⟨u, hu, hidled⟩ := detectIdleLoop_inKseg (m := m) hpure hslot
      obtain ⟨v, hv, hidled'⟩ := detectIdleLoop_inKseg (m := m) hpure hslot'
      rw [Prog.bind_of_ok hu] at hs
      rw [if_pos hidle, Prog.bind_of_ok hv]
      exact hbranch _ _ (hidled.agree hidled' h) _ _ hs
  · next hidle =>
      rw [if_neg hidle]
      exact hbranch _ _ h _ _ hs

/-- The program counters may differ in the test for a jump to itself. -/
lemma instJ_agree (hpure : m.bus.FetchPure) {s t s' : MipsBase MipsTlbNormal δ} (h : Agree s t)
    (hslot : inKseg (s.pc + 4)) (hs : instJ m opcode s = .ok ((), s')) :
    ∃ t', instJ m opcode t = .ok ((), t') ∧ Agree s' t' := by
  have hrun : ∀ u : MipsBase MipsTlbNormal δ, inKseg (u.pc + 4) →
      ∃ u', instJ m opcode u = .ok ((), u') ∧
        Idled (MipsBase.branched ((jumpTarget opcode u.pc).setWidth 64) u) u' := by
    intro u hu
    have hjump : jump32 (jumpTarget opcode u.pc) u =
        .ok ((), MipsBase.branched ((jumpTarget opcode u.pc).setWidth 64) u) := rfl
    rw [instJ, Prog.bind_of_ok (read_run _ _), Prog.bind_of_ok hjump]
    split
    · exact detectIdleLoop_inKseg hpure hu
    · exact ⟨_, rfl, .refl _⟩
  obtain ⟨u, hu, hidled⟩ := hrun s hslot
  obtain ⟨v, hv, hidled'⟩ := hrun t (by rwa [← (h.pc.add 4).inKseg])
  obtain rfl : u = s' := Prog.state_eq (hu.symm.trans hs)
  refine ⟨v, hv, hidled.agree hidled' ?_⟩
  rw [jumpTarget_congr opcode h.pc]
  exact h.branched (.refl _)

/-! ## All handlers -/

/-- The instruction reads neither `Count` nor the whole of `EPC`. -/
def QuietRead (opcode : BitVec 32) (func : MipsInstId) : Prop :=
  copId opcode = 0 → func.copReadIdx opcode ≠ some 9 ∧
    (func = .kDmfc ∨ func = .kSdc → func.copReadIdx opcode ≠ some 14)

lemma respects_actOp (hm : m.IsN64) (hquiet : QuietRead opcode func) (hbeq : func ≠ .kBeq)
    (hj : func ≠ .kJ) (α : Type) (x : CpuM MipsTlbNormal δ α) (hx : ActOp m opcode func α x) :
    Respects x := by
  cases hx with
  | gpr32 idx => exact respects_readGpr32 idx
  | gpr64 idx => exact respects_readGpr64 idx
  | hi => exact respects_read fun _ _ h => h.hi
  | lo => exact respects_read fun _ _ h => h.lo
  | writeGpr idx value => exact respects_writeGpr64 idx value
  | writeHi value => exact .of_modify fun _ _ h => { h with hi := rfl }
  | writeLo value => exact .of_modify fun _ _ h => { h with lo := rfl }
  | load load address => exact respects_loadWith hm load address
  | store store address value => exact respects_storeWith hm store address value
  | command _ => exact respects_copCommand hm _ _
  | copRead32 idx hidx =>
      refine respects_copRead32 hm fun hzero hnine => (hquiet hzero).1 ?_
      rw [hidx, hnine]
  | copRead64 idx hidx hfunc =>
      refine respects_copRead64 hm fun hzero => ⟨fun hnine => (hquiet hzero).1 ?_, fun hepc => ?_⟩
      · rw [hidx, hnine]
      · refine (hquiet hzero).2 hfunc ?_
        rw [hidx, hepc]
  | copWrite32 idx value _ _ => exact respects_copWrite32 hm _ idx value
  | copWrite64 idx value _ _ => exact respects_copWrite64 hm _ idx value
  | getFlag => exact respects_copGetFlag _
  | jumpRel _ offset => exact respects_jumpRel offset
  | jump64 _ dst => exact respects_setBranchDelay fun _ _ _ => .refl dst
  | link _ dstReg => exact respects_linkForJump dstReg
  | nullify _ => exact respects_nullifyDelaySlot
  | j h => exact absurd h hj
  | jal h => exact respects_instJal
  | idle h => exact absurd h hbeq
  | cache h =>
      refine .bind (respects_readGpr64 _) fun baseValue => ?_
      split
      · exact .of_pure ()
      · split
        · exact .of_modify fun _ _ h => { h with }
        · exact .of_pure ()
  | panic reason => exact .of_throw _ _

lemma respects_look (hm : m.IsN64) (α : Type) (x : CpuM MipsTlbNormal δ α) (hx : Look m α x) :
    Respects x := by
  cases hx with
  | gpr32 idx => exact respects_readGpr32 idx
  | gpr64 idx => exact respects_readGpr64 idx
  | copEnabled copId =>
      exact respects_of_run (isCopEnabled_run hm copId) fun _ _ h => by rw [h.cop0.sr]

lemma respects_raise (hm : m.IsN64) (x : CpuM MipsTlbNormal δ Unit) (hx : Raise m x) :
    Respects x := by
  cases hx with
  | trigger cause _ => exact respects_triggerException hm cause
  | address cause _ address =>
      have hwrite : Respects (copWrite64Internal (T := MipsTlbNormal) m 8 address) := by
        intro s t h a s' hs
        rw [copWrite64Internal_badvaddr hm] at hs
        obtain ⟨-, rfl⟩ := Prog.ok_inj hs
        exact ⟨_, copWrite64Internal_badvaddr hm address t,
          h.setCop0 { h.cop0 with badvaddr := rfl }⟩
      exact .bind hwrite fun _ => respects_triggerException hm cause
  | copUnusable copId =>
      exact .bind (.of_modify fun _ _ h => { h with copCause := rfl })
        fun _ => respects_triggerException hm .kCop
  | «break» =>
      refine .bind (respects_triggerException hm .kBkpt) fun _ => ?_
      split
      · exact .of_pure ()
      · exact respects_copCommand hm _ _

/-- Every handler keeps agreement, unless it reads `Count` or the whole of `EPC`; a jump that
may be an idle loop needs its delay slot to be an unmapped address. -/
theorem callInst_agree (hm : m.IsN64) (hpure : m.bus.FetchPure) (hquiet : QuietRead opcode func)
    {s t s' : MipsBase MipsTlbNormal δ} (h : Agree s t)
    (hslot : func.hasDelaySlot = true → inKseg (s.pc + 4))
    (hs : callInst m opcode func s = .ok ((), s')) :
    ∃ t', callInst m opcode func t = .ok ((), t') ∧ Agree s' t' := by
  by_cases hbeq : func = .kBeq
  · subst hbeq
    exact instBeq_agree hpure h (hslot rfl) hs
  · by_cases hj : func = .kJ
    · subst hj
      exact instJ_agree hpure h (hslot rfl) hs
    · have hbody := (callInst_body (T := MipsTlbNormal) m opcode func).sim (respects_look hm)
        (respects_raise hm) fun _ hx => hx.sim (respects_actOp hm hquiet hbeq hj)
      exact hbody s t h () s' hs

end MipsBase

end NgMips
