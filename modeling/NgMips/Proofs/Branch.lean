import NgMips.Proofs.Effect

/-!
# Branches executed again

An instruction that made a jump pending makes the same jump pending when it is executed
again, with the registers it left behind: `callInst_retakes`.  Its inputs have to be the
same (`SameInputs`), and it must not have overwritten a register it reads by linking.
-/

namespace NgMips

/-- The instruction links into a register it reads. -/
def MipsInstId.linksOverSource (func : MipsInstId) (opcode : BitVec 32) : Bool :=
  match func with
  | .kBgezal | .kBltzal | .kBgezall | .kBltzall => rsField opcode == 31
  | .kJalr => rdField opcode == rsField opcode && rdField opcode != 0
  | _ => false

namespace MipsBase

variable {T δ : Type} [MipsTlbBase T] {m : MipsSetup δ}

/-! ## The parts of a branch -/

/-- The state after a jump was made pending. -/
def branched (dst : BitVec 64) (s : MipsBase T δ) : MipsBase T δ :=
  { s with hasBranchDelay := true, branchDelayDst := dst }

/-- The address an instruction at `pc` links. -/
def linkValue (pc : BitVec 64) : BitVec 64 := ((pc + 8).setWidth 32).signExtend 64

/-- The state after linking. -/
def linked (dstReg : BitVec 5) (s : MipsBase T δ) : MipsBase T δ :=
  if dstReg = 0 then s else { s with gpr := Function.update s.gpr dstReg (linkValue s.pc) }

/-- The target of a branch. -/
def branchTarget (opcode : BitVec 32) (pc : BitVec 64) : BitVec 64 :=
  pc + 4 + (sextItypeImmBranch opcode).signExtend 64

/-- The state after a branch. -/
def branchEnd (opcode : BitVec 32) (likely taken : Bool) (s : MipsBase T δ) : MipsBase T δ :=
  if taken then branched (branchTarget opcode s.pc) s
  else if likely then { s with nextPc := s.pc + 8 }
  else s

section Parts

omit [MipsTlbBase T]

lemma linkForJump_run (dstReg : BitVec 5) (s : MipsBase T δ) :
    linkForJump dstReg s = .ok ((), linked dstReg s) := by
  rw [linkForJump, Prog.bind_of_ok (read_run _ _), writeGpr64, linked]
  split <;> rfl

lemma branchIf_run (opcode : BitVec 32) (likely taken : Bool) (s : MipsBase T δ) :
    branchIf opcode likely taken s = .ok ((), branchEnd opcode likely taken s) := by
  cases taken <;> cases likely <;> rfl

@[simp] lemma linked_zero (s : MipsBase T δ) : linked 0 s = s := by rw [linked, if_pos rfl]

lemma linked_gpr_self {dstReg : BitVec 5} (h : dstReg ≠ 0) (s : MipsBase T δ) :
    (linked dstReg s).gpr dstReg = linkValue s.pc := by
  rw [linked, if_neg h]
  exact Function.update_self ..

lemma linked_gpr_of_ne {dstReg idx : BitVec 5} (h : idx ≠ dstReg) (s : MipsBase T δ) :
    (linked dstReg s).gpr idx = s.gpr idx := by
  rw [linked]
  split
  · rfl
  · exact Function.update_of_ne h ..

/-- Linking again changes nothing. -/
lemma linked_of_gpr {dstReg : BitVec 5} {s : MipsBase T δ}
    (h : dstReg ≠ 0 → s.gpr dstReg = linkValue s.pc) : linked dstReg s = s := by
  rw [linked]
  split
  · rfl
  · next hne => rw [← h hne, Function.update_eq_self]

lemma linked_flag (dstReg : BitVec 5) (s : MipsBase T δ) :
    (linked dstReg s).hasBranchDelay = s.hasBranchDelay ∧ (linked dstReg s).pc = s.pc := by
  rw [linked]
  split <;> exact ⟨rfl, rfl⟩

/-- A branch that made a jump pending was taken. -/
lemma branchEnd_taken {opcode : BitVec 32} {likely taken : Bool} {s : MipsBase T δ}
    (hbd : s.hasBranchDelay = false)
    (h : (branchEnd opcode likely taken s).hasBranchDelay = true) : taken = true := by
  cases taken with
  | true => rfl
  | false => cases likely <;> exact absurd (hbd.symm.trans h) (by simp)

end Parts

/-! ## Executed again -/

/-- The states have the same inputs to a branch, registers apart. -/
structure SameInputs (m : MipsSetup δ) (u v : MipsBase T δ) : Prop where
  pc : v.pc = u.pc
  tlb : v.tlb = u.tlb
  sr : v.cop0.sr = u.cop0.sr
  fpu : v.fpu = u.fpu
  copFlag : ∀ copId, m.cop.getFlag v.device copId = m.cop.getFlag u.device copId

/-- The jump pending in `t` was made pending again, from `v`, with nothing else changed. -/
structure Retaken (t v t' : MipsBase T δ) : Prop where
  flag : t'.hasBranchDelay = true
  dst : t'.branchDelayDst = t.branchDelayDst
  gpr : t'.gpr = v.gpr
  hi : t'.hi = v.hi
  lo : t'.lo = v.lo
  device : t'.device = v.device
  fpu : t'.fpu = v.fpu
  cop0 : t'.cop0 = v.cop0
  nextPc : t'.nextPc = v.nextPc

/-- From `v`, which has the registers of `t`, the program makes the jump pending again. -/
def Retakes (x : CpuM T δ Unit) (t v : MipsBase T δ) : Prop :=
  ∃ t', x v = .ok ((), t') ∧ Retaken t v t'

section Families

variable {u v t : MipsBase T δ} {opcode : BitVec 32}

omit [MipsTlbBase T] in
lemma retaken_branched {t v : MipsBase T δ} {dst : BitVec 64} (h : t.branchDelayDst = dst) :
    Retaken t v (branched dst v) := ⟨rfl, h.symm, rfl, rfl, rfl, rfl, rfl, rfl, rfl⟩

omit [MipsTlbBase T] in
lemma branchR_run (hm : m.IsN64) (likely : Bool) (cond : BitVec 64 → BitVec 64 → Bool)
    (s : MipsBase T δ) :
    branchR m opcode likely cond s = .ok ((),
      branchEnd opcode likely (cond (s.gpr (rsField opcode)) (s.gpr (rtField opcode))) s) := by
  rw [branchR, Prog.bind_of_ok (readGpr64_run hm _ _), Prog.bind_of_ok (readGpr64_run hm _ _),
    branchIf_run]

omit [MipsTlbBase T] in
lemma branchR_retakes (hm : m.IsN64) {likely : Bool} {cond : BitVec 64 → BitVec 64 → Bool}
    (hpc : v.pc = u.pc) (hbd : u.hasBranchDelay = false)
    (hrun : branchR m opcode likely cond u = .ok ((), t)) (ht : t.hasBranchDelay = true)
    (hgpr : v.gpr = t.gpr) : Retakes (branchR m opcode likely cond) t v := by
  rw [branchR_run hm] at hrun
  obtain rfl := Prog.state_eq hrun
  have htaken := branchEnd_taken hbd ht
  rw [htaken] at hgpr
  have hsame : v.gpr = u.gpr := hgpr
  refine ⟨branched (branchTarget opcode v.pc) v, ?_, ?_⟩
  · rw [branchR_run hm, hsame, htaken]
    rfl
  · rw [hpc, htaken]
    exact retaken_branched rfl

omit [MipsTlbBase T] in
lemma branchZ_run (hm : m.IsN64) (link likely : Bool) (cond : BitVec 64 → Bool)
    (s : MipsBase T δ) :
    branchZ m opcode link likely cond s = .ok ((),
      branchEnd opcode likely (cond (s.gpr (rsField opcode)))
        (if link then linked 31 s else s)) := by
  rw [branchZ, Prog.bind_of_ok (readGpr64_run hm _ _)]
  cases link with
  | true =>
      change (linkForJump 31 >>= fun _ => branchIf opcode likely _ : CpuM T δ Unit) s = _
      rw [Prog.bind_of_ok (linkForJump_run _ _), branchIf_run]
      rfl
  | false => exact branchIf_run _ _ _ _

omit [MipsTlbBase T] in
lemma branchZ_retakes (hm : m.IsN64) {link likely : Bool} {cond : BitVec 64 → Bool}
    (hpc : v.pc = u.pc) (hbd : u.hasBranchDelay = false)
    (hsource : link = true → rsField opcode ≠ 31)
    (hrun : branchZ m opcode link likely cond u = .ok ((), t)) (ht : t.hasBranchDelay = true)
    (hgpr : v.gpr = t.gpr) : Retakes (branchZ m opcode link likely cond) t v := by
  rw [branchZ_run hm] at hrun
  obtain rfl := Prog.state_eq hrun
  cases link with
  | false =>
      have htaken := branchEnd_taken (s := u) hbd ht
      rw [htaken] at hgpr
      have hsame : v.gpr = u.gpr := hgpr
      refine ⟨branched (branchTarget opcode v.pc) v, ?_, ?_⟩
      · rw [branchZ_run hm, hsame, htaken]
        rfl
      · rw [hpc, htaken]
        exact retaken_branched rfl
  | true =>
      obtain ⟨hflag, hlpc⟩ := linked_flag 31 u
      have htaken := branchEnd_taken (s := linked 31 u) (hflag.trans hbd) ht
      rw [htaken] at hgpr
      have hsame : v.gpr = (linked 31 u).gpr := hgpr
      have hrs : v.gpr (rsField opcode) = u.gpr (rsField opcode) := by
        rw [hsame, linked_gpr_of_ne (hsource rfl)]
      have hra : linked 31 v = v := by
        refine linked_of_gpr fun hne => ?_
        rw [hsame, linked_gpr_self hne, hpc]
      refine ⟨branched (branchTarget opcode v.pc) v, ?_, ?_⟩
      · rw [branchZ_run hm, hrs, htaken, if_pos rfl, hra]
        rfl
      · rw [hpc, htaken, ← hlpc]
        exact retaken_branched rfl

/-- A handler of a coprocessor that made a jump pending found it usable. -/
lemma whenCopEnabled_taken (hm : m.IsN64) {body : CpuM T δ Unit} (hbd : u.hasBranchDelay = false)
    (hrun : whenCopEnabled m opcode body u = .ok ((), t)) (ht : t.hasBranchDelay = true) :
    (copId opcode == 0 || u.cop0.sr.getLsbD ((copId opcode).toNat + 28)) = true ∧
      body u = .ok ((), t) := by
  rw [whenCopEnabled, Prog.bind_of_ok (isCopEnabled_run hm _ _)] at hrun
  cases henabled : (copId opcode == 0 || u.cop0.sr.getLsbD ((copId opcode).toNat + 28)) with
  | true =>
      rw [henabled, if_pos rfl] at hrun
      exact ⟨rfl, hrun⟩
  | false =>
      rw [henabled, if_neg (by simp)] at hrun
      obtain ⟨cause, t₀, -, hreported, htrigger⟩ := raise_run hm (.copUnusable (copId opcode)) hrun
      have hnone := raised_flag hm hbd hreported htrigger
      exact absurd (hnone.symm.trans ht) (by simp)

/-- What a coprocessor flag reads as. -/
def flagOf (m : MipsSetup δ) (copId : BitVec 2) (s : MipsBase T δ) : Bool :=
  match m.slot copId with
  | .fpu => s.fpu.getFlag
  | .device => m.cop.getFlag s.device copId
  | _ => false

omit [MipsTlbBase T] in
lemma copGetFlag_run (copId : BitVec 2) (s : MipsBase T δ) :
    copGetFlag m copId s = .ok (flagOf m copId s, s) := by
  rw [copGetFlag, flagOf]
  cases m.slot copId <;> rfl

omit [MipsTlbBase T] in
lemma flagOf_same (h : SameInputs m u v) (copId : BitVec 2) :
    flagOf m copId v = flagOf m copId u := by
  rw [flagOf, flagOf, h.fpu, h.copFlag]

lemma branchCop_retakes (hm : m.IsN64) {likely onFlag : Bool} (hin : SameInputs m u v)
    (hbd : u.hasBranchDelay = false) (hrun : branchCop m opcode likely onFlag u = .ok ((), t))
    (ht : t.hasBranchDelay = true) : Retakes (branchCop m opcode likely onFlag) t v := by
  obtain ⟨henabled, hbody⟩ := whenCopEnabled_taken hm hbd hrun ht
  rw [Prog.bind_of_ok (copGetFlag_run _ _), branchIf_run] at hbody
  obtain rfl := Prog.state_eq hbody
  have htaken := branchEnd_taken hbd ht
  rw [htaken]
  refine ⟨branched (branchTarget opcode v.pc) v, ?_, ?_⟩
  · rw [branchCop, whenCopEnabled, Prog.bind_of_ok (isCopEnabled_run hm _ _), hin.sr, henabled,
      if_pos rfl, Prog.bind_of_ok (copGetFlag_run _ _), flagOf_same hin, htaken, branchIf_run]
    rfl
  · rw [hin.pc]
    exact retaken_branched rfl

/-! ## Idle loops -/

/-- Only cycles were counted. -/
structure Idled (s s' : MipsBase T δ) : Prop where
  eq : s' = { s with cycleSpent := s'.cycleSpent, cycleSpentTotal := s'.cycleSpentTotal }

lemma detectIdleLoop_found (hpure : m.bus.FetchPure) {s : MipsBase T δ}
    (h : (translateAddress s.tlb (s.pc + 4)).found = true) :
    ∃ s', detectIdleLoop m s = .ok ((), s') ∧ Idled s s' := by
  have hfetch := fetch_found (m := m) h
  rw [fetched_of_pure hpure] at hfetch
  rw [detectIdleLoop, Prog.bind_of_ok (read_run _ _), Prog.bind_of_ok hfetch]
  split
  · exact ⟨_, rfl, ⟨rfl⟩⟩
  · exact ⟨s, rfl, ⟨rfl⟩⟩

lemma detectIdleLoop_ok (hm : m.IsN64) (hexc : m.config.hasException = true)
    (hpure : m.bus.FetchPure) {s s' : MipsBase T δ} (h : detectIdleLoop m s = .ok ((), s')) :
    (translateAddress s.tlb (s.pc + 4)).found = true ∧ Idled s s' := by
  have hfound : (translateAddress s.tlb (s.pc + 4)).found = true := by
    rw [detectIdleLoop, Prog.bind_of_ok (read_run _ _)] at h
    obtain ⟨delayOp, t, hfetch, -⟩ := Prog.bind_ok.mp h
    exact (fetch_ok hm hexc hfetch).1
  obtain ⟨s'', hrun, hidled⟩ := detectIdleLoop_found hpure hfound
  obtain rfl : s'' = s' := Prog.state_eq (hrun.symm.trans h)
  exact ⟨hfound, hidled⟩

omit [MipsTlbBase T] in
lemma Idled.retaken {t v v' t' : MipsBase T δ} (hv : Idled v v') (h : Retaken t v' t') :
    Retaken t v t' := by
  rw [hv.eq] at h
  exact ⟨h.flag, h.dst, h.gpr, h.hi, h.lo, h.device, h.fpu, h.cop0, h.nextPc⟩

lemma instBeq_retakes (hm : m.IsN64) (hexc : m.config.hasException = true)
    (hpure : m.bus.FetchPure) (hin : SameInputs m u v) (hbd : u.hasBranchDelay = false)
    (hrun : instBeq m opcode u = .ok ((), t)) (ht : t.hasBranchDelay = true)
    (hgpr : v.gpr = t.gpr) : Retakes (instBeq m opcode) t v := by
  rw [instBeq] at hrun ⊢
  split at hrun
  · next hidle =>
      rw [if_pos hidle]
      obtain ⟨⟨⟩, u', hu, hrun'⟩ := Prog.bind_ok.mp hrun
      obtain ⟨hfound, hidled⟩ := detectIdleLoop_ok hm hexc hpure hu
      have hbd' : u'.hasBranchDelay = false := by rw [hidled.eq]; exact hbd
      have hpc' : u'.pc = u.pc := by rw [hidled.eq]
      rw [← hin.tlb, ← hin.pc] at hfound
      obtain ⟨v', hv, hvidled⟩ := detectIdleLoop_found hpure hfound
      have hvpc : v'.pc = u'.pc := by rw [hvidled.eq, hpc', ← hin.pc]
      have hvgpr : v'.gpr = t.gpr := by rw [hvidled.eq, ← hgpr]
      obtain ⟨t', ht', hretaken⟩ := branchR_retakes hm hvpc hbd' hrun' ht hvgpr
      exact ⟨t', Prog.bind_ok.mpr ⟨(), v', hv, ht'⟩, hvidled.retaken hretaken⟩
  · next hidle =>
      rw [if_neg hidle]
      exact branchR_retakes hm hin.pc hbd hrun ht hgpr

/-! ## Jumps -/

lemma instJ_retakes (hm : m.IsN64) (hexc : m.config.hasException = true)
    (hpure : m.bus.FetchPure) (hin : SameInputs m u v)
    (hrun : instJ m opcode u = .ok ((), t)) : Retakes (instJ m opcode) t v := by
  have hjump : ∀ s : MipsBase T δ, jump32 (jumpTarget opcode s.pc) s =
      .ok ((), branched ((jumpTarget opcode s.pc).setWidth 64) s) := fun _ => rfl
  rw [instJ, Prog.bind_of_ok (read_run _ _), Prog.bind_of_ok (hjump u)] at hrun
  have hdst : t.branchDelayDst = (jumpTarget opcode u.pc).setWidth 64 := by
    split at hrun
    · obtain ⟨-, hidled⟩ := detectIdleLoop_ok hm hexc hpure hrun
      rw [hidled.eq]
      rfl
    · obtain rfl := Prog.state_eq hrun
      rfl
  have hretaken : Retaken t v (branched ((jumpTarget opcode v.pc).setWidth 64) v) := by
    rw [hin.pc]
    exact retaken_branched hdst
  rw [Retakes, instJ, Prog.bind_of_ok (read_run _ _), Prog.bind_of_ok (hjump v), hin.pc]
  split at hrun
  · next hself =>
      obtain ⟨hfound, -⟩ := detectIdleLoop_ok hm hexc hpure hrun
      have hfound' : (translateAddress v.tlb (v.pc + 4)).found = true := by
        rw [hin.tlb, hin.pc]
        exact hfound
      obtain ⟨t', ht', hidled⟩ := detectIdleLoop_found (m := m)
        (s := branched ((jumpTarget opcode u.pc).setWidth 64) v) hpure hfound'
      rw [if_pos hself]
      refine ⟨t', ht', ?_⟩
      rw [hidled.eq]
      rw [hin.pc] at hretaken
      exact ⟨hretaken.flag, hretaken.dst, rfl, rfl, rfl, rfl, rfl, rfl, rfl⟩
  · next hself =>
      rw [if_neg hself]
      rw [hin.pc] at hretaken
      exact ⟨_, rfl, hretaken⟩

omit [MipsTlbBase T] in
lemma instJal_run (s : MipsBase T δ) : instJal opcode s =
    .ok ((), branched ((jumpTarget opcode s.pc).setWidth 64) (linked 31 s)) := by
  rw [instJal, Prog.bind_of_ok (read_run _ _), Prog.bind_of_ok (linkForJump_run _ _)]
  rfl

omit [MipsTlbBase T] in
lemma instJal_retakes (hpc : v.pc = u.pc) (hrun : instJal opcode u = .ok ((), t))
    (hgpr : v.gpr = t.gpr) : Retakes (instJal opcode) t v := by
  rw [instJal_run] at hrun
  obtain rfl := Prog.state_eq hrun
  have hsame : v.gpr = (linked 31 u).gpr := hgpr
  have hra : linked 31 v = v := by
    refine linked_of_gpr fun hne => ?_
    rw [hsame, linked_gpr_self hne, hpc]
  refine ⟨branched ((jumpTarget opcode v.pc).setWidth 64) v, by rw [instJal_run, hra], ?_⟩
  rw [hpc]
  exact retaken_branched rfl

omit [MipsTlbBase T] in
lemma instJr_retakes (hm : m.IsN64) (hrun : instJr m opcode u = .ok ((), t))
    (hgpr : v.gpr = t.gpr) : Retakes (instJr m opcode) t v := by
  rw [instJr, Prog.bind_of_ok (readGpr64_run hm _ _)] at hrun
  split at hrun
  · exact absurd hrun (by simp)
  · next haligned =>
      obtain rfl := Prog.state_eq hrun
      have hsame : v.gpr = u.gpr := hgpr
      refine ⟨branched (u.gpr (rsField opcode) &&& ~~~3#64) v, ?_, retaken_branched rfl⟩
      rw [instJr, Prog.bind_of_ok (readGpr64_run hm _ _), hsame, if_neg haligned]
      rfl

omit [MipsTlbBase T] in
lemma instJalr_retakes (hm : m.IsN64) (hpc : v.pc = u.pc)
    (hsource : rdField opcode ≠ rsField opcode ∨ rdField opcode = 0)
    (hrun : instJalr m opcode u = .ok ((), t)) (hgpr : v.gpr = t.gpr) :
    Retakes (instJalr m opcode) t v := by
  rw [instJalr, Prog.bind_of_ok (readGpr64_run hm _ _)] at hrun
  split at hrun
  · exact absurd hrun (by simp)
  · next haligned =>
      rw [Prog.bind_of_ok (linkForJump_run _ _)] at hrun
      obtain rfl := Prog.state_eq hrun
      have hsame : v.gpr = (linked (rdField opcode) u).gpr := hgpr
      have hrs : v.gpr (rsField opcode) = u.gpr (rsField opcode) := by
        rw [hsame]
        rcases hsource with hne | hzero
        · exact linked_gpr_of_ne hne.symm u
        · rw [hzero, linked_zero]
      have hrd : linked (rdField opcode) v = v := by
        refine linked_of_gpr fun hne => ?_
        rw [hsame, linked_gpr_self hne, hpc]
      refine ⟨branched (u.gpr (rsField opcode) &&& ~~~3#64) v, ?_, retaken_branched rfl⟩
      rw [instJalr, Prog.bind_of_ok (readGpr64_run hm _ _), hrs, if_neg haligned,
        Prog.bind_of_ok (linkForJump_run _ _), hrd]
      rfl

end Families

/-! ## All handlers -/

/-- Only an instruction with a delay slot makes a jump pending. -/
lemma callInst_slot (hm : m.IsN64) {opcode : BitVec 32} {func : MipsInstId}
    {u t : MipsBase T δ} (hbd : u.hasBranchDelay = false)
    (hrun : callInst m opcode func u = .ok ((), t)) (ht : t.hasBranchDelay = true) :
    func.hasDelaySlot = true := by
  by_contra hslot
  rcases callInst_cases hm hrun with ⟨cause, t₀, -, hreported, htrigger⟩ | ⟨x, hx, hact⟩
  · have hnone := raised_flag hm hbd hreported htrigger
    exact absurd (hnone.symm.trans ht) (by simp)
  · have hflag := (act_effect hm hx hact).flag (by simpa using hslot)
    exact absurd ((hflag.trans hbd).symm.trans ht) (by simp)

/-- An instruction that made a jump pending makes it pending again when it is executed with
the registers it left behind. -/
theorem callInst_retakes (hm : m.IsN64) (hexc : m.config.hasException = true)
    (hpure : m.bus.FetchPure) {opcode : BitVec 32} {func : MipsInstId} {u v t : MipsBase T δ}
    (hin : SameInputs m u v) (hbd : u.hasBranchDelay = false)
    (hsource : func.linksOverSource opcode = false)
    (hrun : callInst m opcode func u = .ok ((), t)) (ht : t.hasBranchDelay = true)
    (hgpr : v.gpr = t.gpr) : Retakes (callInst m opcode func) t v := by
  have hslot := callInst_slot hm hbd hrun ht
  have hra : ∀ {link : Bool}, (link = true → (rsField opcode == 31) = false) →
      link = true → rsField opcode ≠ 31 := fun h hlink => by simpa using h hlink
  cases func with
  | kBeq => exact instBeq_retakes hm hexc hpure hin hbd hrun ht hgpr
  | kBne => exact branchR_retakes hm hin.pc hbd hrun ht hgpr
  | kBeql => exact branchR_retakes hm hin.pc hbd hrun ht hgpr
  | kBnel => exact branchR_retakes hm hin.pc hbd hrun ht hgpr
  | kBgtz => exact branchZ_retakes hm hin.pc hbd (by simp) hrun ht hgpr
  | kBlez => exact branchZ_retakes hm hin.pc hbd (by simp) hrun ht hgpr
  | kBgez => exact branchZ_retakes hm hin.pc hbd (by simp) hrun ht hgpr
  | kBltz => exact branchZ_retakes hm hin.pc hbd (by simp) hrun ht hgpr
  | kBgtzl => exact branchZ_retakes hm hin.pc hbd (by simp) hrun ht hgpr
  | kBlezl => exact branchZ_retakes hm hin.pc hbd (by simp) hrun ht hgpr
  | kBgezl => exact branchZ_retakes hm hin.pc hbd (by simp) hrun ht hgpr
  | kBltzl => exact branchZ_retakes hm hin.pc hbd (by simp) hrun ht hgpr
  | kBgezal => exact branchZ_retakes hm hin.pc hbd (hra fun _ => hsource) hrun ht hgpr
  | kBltzal => exact branchZ_retakes hm hin.pc hbd (hra fun _ => hsource) hrun ht hgpr
  | kBgezall => exact branchZ_retakes hm hin.pc hbd (hra fun _ => hsource) hrun ht hgpr
  | kBltzall => exact branchZ_retakes hm hin.pc hbd (hra fun _ => hsource) hrun ht hgpr
  | kBcf => exact branchCop_retakes hm hin hbd hrun ht
  | kBcfl => exact branchCop_retakes hm hin hbd hrun ht
  | kBct => exact branchCop_retakes hm hin hbd hrun ht
  | kBctl => exact branchCop_retakes hm hin hbd hrun ht
  | kJ => exact instJ_retakes hm hexc hpure hin hrun
  | kJal => exact instJal_retakes hin.pc hrun hgpr
  | kJr => exact instJr_retakes hm hrun hgpr
  | kJalr =>
      refine instJalr_retakes hm hin.pc ?_ hrun hgpr
      simp only [MipsInstId.linksOverSource, Bool.and_eq_false_iff, beq_eq_false_iff_ne,
        bne_eq_false_iff_eq] at hsource
      exact hsource
  | _ => exact absurd hslot (by decide)

/-! ## What a branch leaves alone -/

/-- The translation unit, the coprocessors and the devices are the same. -/
structure BranchFrame (s s' : MipsBase T δ) : Prop where
  tlb : s'.tlb = s.tlb
  cop0 : s'.cop0 = s.cop0
  fpu : s'.fpu = s.fpu
  device : s'.device = s.device

omit [MipsTlbBase T] in
lemma BranchFrame.refl (s : MipsBase T δ) : BranchFrame s s := ⟨rfl, rfl, rfl, rfl⟩

omit [MipsTlbBase T] in
lemma BranchFrame.trans {s t u : MipsBase T δ} (h : BranchFrame s t) (h' : BranchFrame t u) :
    BranchFrame s u :=
  ⟨h'.tlb.trans h.tlb, h'.cop0.trans h.cop0, h'.fpu.trans h.fpu, h'.device.trans h.device⟩

section Frames

variable {opcode : BitVec 32}

omit [MipsTlbBase T] in
lemma frame_gpr64 (idx : BitVec 5) : Prog.Moves BranchFrame (readGpr64 (T := T) m idx) :=
  .of_read .refl _

omit [MipsTlbBase T] in
lemma frame_link (dstReg : BitVec 5) :
    Prog.Moves BranchFrame (linkForJump dstReg : CpuM T δ Unit) := by
  intro s a s' h
  rw [linkForJump_run] at h
  rw [← Prog.state_eq h, linked]
  split
  · exact .refl s
  · exact ⟨rfl, rfl, rfl, rfl⟩

omit [MipsTlbBase T] in
lemma frame_branchIf (likely taken : Bool) :
    Prog.Moves BranchFrame (branchIf opcode likely taken : CpuM T δ Unit) := by
  intro s a s' h
  rw [branchIf_run] at h
  rw [← Prog.state_eq h]
  cases taken <;> cases likely <;> exact ⟨rfl, rfl, rfl, rfl⟩

omit [MipsTlbBase T] in
lemma frame_jump64 (dst : BitVec 64) :
    Prog.Moves BranchFrame (jump64 dst : CpuM T δ Unit) := .of_modify fun _ => ⟨rfl, rfl, rfl, rfl⟩

omit [MipsTlbBase T] in
lemma frame_branchR (likely : Bool) (cond : BitVec 64 → BitVec 64 → Bool) :
    Prog.Moves BranchFrame (branchR (T := T) m opcode likely cond) :=
  .bind (fun _ _ _ => .trans) (frame_gpr64 _) fun _ =>
    .bind (fun _ _ _ => .trans) (frame_gpr64 _) fun _ => frame_branchIf _ _

omit [MipsTlbBase T] in
lemma frame_branchZ (link likely : Bool) (cond : BitVec 64 → Bool) :
    Prog.Moves BranchFrame (branchZ (T := T) m opcode link likely cond) := by
  refine .bind (fun _ _ _ => .trans) (frame_gpr64 _) fun _ => ?_
  dsimp only
  split
  · exact .bind (fun _ _ _ => .trans) (frame_link _) fun _ => frame_branchIf _ _
  · exact frame_branchIf _ _

lemma frame_detectIdleLoop (hm : m.IsN64) (hexc : m.config.hasException = true)
    (hpure : m.bus.FetchPure) : Prog.Moves BranchFrame (detectIdleLoop (T := T) m) := by
  intro s a s' h
  rw [(detectIdleLoop_ok hm hexc hpure h).2.eq]
  exact ⟨rfl, rfl, rfl, rfl⟩

lemma frame_instBeq (hm : m.IsN64) (hexc : m.config.hasException = true)
    (hpure : m.bus.FetchPure) : Prog.Moves BranchFrame (instBeq (T := T) m opcode) := by
  rw [instBeq]
  split
  · exact .bind (fun _ _ _ => .trans) (frame_detectIdleLoop hm hexc hpure) fun _ =>
      frame_branchR _ _
  · exact frame_branchR _ _

lemma frame_instJ (hm : m.IsN64) (hexc : m.config.hasException = true)
    (hpure : m.bus.FetchPure) : Prog.Moves BranchFrame (instJ (T := T) m opcode) := by
  refine .bind (fun _ _ _ => .trans) (.of_read .refl _) fun pc =>
    .bind (fun _ _ _ => .trans) (frame_jump64 _) fun _ => ?_
  split
  · exact frame_detectIdleLoop hm hexc hpure
  · exact .of_pure .refl ()

omit [MipsTlbBase T] in
lemma frame_instJal : Prog.Moves BranchFrame (instJal opcode : CpuM T δ Unit) := by
  intro s a s' h
  have hlinked : BranchFrame s (linked 31 s) :=
    frame_link 31 s () (linked 31 s) (linkForJump_run 31 s)
  rw [instJal_run] at h
  rw [← Prog.state_eq h]
  exact ⟨hlinked.tlb, hlinked.cop0, hlinked.fpu, hlinked.device⟩

omit [MipsTlbBase T] in
lemma frame_instJr : Prog.Moves BranchFrame (instJr (T := T) m opcode) := by
  refine .bind (fun _ _ _ => .trans) (frame_gpr64 _) fun _ => ?_
  split
  · exact .of_throw _
  · exact frame_jump64 _

omit [MipsTlbBase T] in
lemma frame_instJalr : Prog.Moves BranchFrame (instJalr (T := T) m opcode) := by
  refine .bind (fun _ _ _ => .trans) (frame_gpr64 _) fun _ => ?_
  split
  · exact .of_throw _
  · exact .bind (fun _ _ _ => .trans) (frame_link _) fun _ => frame_jump64 _

lemma frame_branchCop (hm : m.IsN64) {likely onFlag : Bool} {u t : MipsBase T δ}
    (hbd : u.hasBranchDelay = false) (hrun : branchCop m opcode likely onFlag u = .ok ((), t))
    (ht : t.hasBranchDelay = true) : BranchFrame u t := by
  obtain ⟨-, hbody⟩ := whenCopEnabled_taken hm hbd hrun ht
  rw [Prog.bind_of_ok (copGetFlag_run _ _)] at hbody
  exact frame_branchIf _ _ u () t hbody

end Frames

/-- An instruction that made a jump pending left everything but registers alone. -/
lemma callInst_branchFrame (hm : m.IsN64) (hexc : m.config.hasException = true)
    (hpure : m.bus.FetchPure) {opcode : BitVec 32} {func : MipsInstId} {u t : MipsBase T δ}
    (hbd : u.hasBranchDelay = false) (hrun : callInst m opcode func u = .ok ((), t))
    (ht : t.hasBranchDelay = true) : BranchFrame u t := by
  have hslot := callInst_slot hm hbd hrun ht
  cases func with
  | kBeq => exact frame_instBeq hm hexc hpure u () t hrun
  | kBne | kBeql | kBnel => exact frame_branchR _ _ u () t hrun
  | kBgtz | kBlez | kBgez | kBltz | kBgtzl | kBlezl | kBgezl | kBltzl | kBgezal | kBltzal
  | kBgezall | kBltzall => exact frame_branchZ _ _ _ u () t hrun
  | kBcf | kBcfl | kBct | kBctl => exact frame_branchCop hm hbd hrun ht
  | kJ => exact frame_instJ hm hexc hpure u () t hrun
  | kJal => exact frame_instJal u () t hrun
  | kJr => exact frame_instJr u () t hrun
  | kJalr => exact frame_instJalr u () t hrun
  | _ => exact absurd hslot (by decide)

end MipsBase

end NgMips
