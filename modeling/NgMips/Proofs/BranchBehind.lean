import NgMips.Proofs.Interrupt
import NgMips.Proofs.Simulation
import NgMips.Proofs.SlotPanic
import NgMips.Proofs.TwoPc

/-!
# Branches behind the program counter

A program in the unmapped segments that never has a branch or jump in a delay slot
(`KsegProgram`).  While memory holds the program and the program counter is in it, a pending branch
is the one before the program counter (`Follows`): an instruction that makes a jump pending goes on
to the next word, and the instruction there uses the jump up.

Nothing of the processor gives up on an exception in a delay slot while this is so: neither a poll
(`onTrack_poll`), nor the building of a block (`onTrack_enterBlock`), nor an instruction
(`callInst_follows`).
-/

namespace NgMips

/-- A program in the unmapped segments, at its physical addresses: the ones of its instructions,
and what they are.  No branch or jump is in the delay slot of another. -/
structure KsegProgram where
  code : BitVec 64 → Prop
  word : BitVec 64 → BitVec 32
  slot : ∀ address, inKseg address → code (ksegPhysical address) →
    doesInstHaveDelaySlot (word (ksegPhysical address)) = true →
    inKseg (address + 4) ∧ code (ksegPhysical (address + 4)) ∧
      doesInstHaveDelaySlot (word (ksegPhysical (address + 4))) = false

namespace KsegProgram

variable (p : KsegProgram) {a b : BitVec 64}

/-- The address is one of the program. -/
def At (address : BitVec 64) : Prop := inKseg address ∧ p.code (ksegPhysical address)

/-- The instruction at an address. -/
def instAt (address : BitVec 64) : BitVec 32 := p.word (ksegPhysical address)

/-- There is a branch or jump at the address. -/
def BranchAt (address : BitVec 64) : Prop :=
  p.At address ∧ doesInstHaveDelaySlot (p.instAt address) = true

variable {p}

lemma At.congr (h : SameLow a b) (hat : p.At a) : p.At b := by
  rw [At, h.inKseg, h.ksegPhysical] at hat
  exact hat

lemma instAt_congr (h : SameLow a b) : p.instAt a = p.instAt b := by
  rw [instAt, instAt, h.ksegPhysical]

lemma BranchAt.congr (h : SameLow a b) (hbranch : p.BranchAt a) : p.BranchAt b :=
  ⟨hbranch.1.congr h, instAt_congr h ▸ hbranch.2⟩

/-- The delay slot of a branch is part of the program, and holds no branch. -/
lemma BranchAt.slot (h : p.BranchAt a) : p.At (a + 4) ∧ ¬ p.BranchAt (a + 4) := by
  obtain ⟨hkseg, hcode, hno⟩ := p.slot a h.1.1 h.1.2 h.2
  exact ⟨⟨hkseg, hcode⟩, fun hbranch => absurd (hno.symm.trans hbranch.2) (by simp)⟩

end KsegProgram

namespace MipsBase

variable {δ : Type} {m : MipsSetup δ} {p : KsegProgram}

/-! ## A program in memory -/

variable (m p) in
/-- Memory holds the program. -/
def Held (d : δ) : Prop := ∀ a, p.code a → m.bus.word d a = p.word a

variable (m p) in
/-- The processor is in the program, which is as it was. -/
structure InProgram (s : MipsBase MipsTlbNormal δ) : Prop where
  at_ : p.At s.pc
  held : Held m p s.device

variable (p) in
/-- A branch that is pending is the one before the program counter. -/
def Follows (s : MipsBase MipsTlbNormal δ) : Prop :=
  s.hasBranchDelay = true → p.BranchAt (s.pc - 4)

lemma Follows.of_none {s : MipsBase MipsTlbNormal δ} (h : NonePending s) : Follows p s :=
  fun hbd => absurd (h.symm.trans hbd) (by simp)

lemma Follows.of_same {s t : MipsBase MipsTlbNormal δ} (hpc : t.pc = s.pc)
    (hflag : t.hasBranchDelay = s.hasBranchDelay) (h : Follows p s) : Follows p t := by
  rw [Follows, hpc, hflag]
  exact h

/-- No branch is pending at a branch. -/
lemma Follows.none_of_branchAt {s : MipsBase MipsTlbNormal δ} (h : Follows p s)
    (hbranch : p.BranchAt s.pc) : NonePending s := by
  cases hbd : s.hasBranchDelay with
  | false => exact hbd
  | true =>
      have hslot := (h hbd).slot.2
      rw [BitVec.sub_add_cancel] at hslot
      exact absurd hbranch hslot

variable (m p) in
/-- A branch that is pending is the one before the program counter, and memory holds it. -/
structure OnTrack (s : MipsBase MipsTlbNormal δ) : Prop where
  follows : Follows p s
  held : Held m p s.device

lemma wordAt_inKseg {address : BitVec 64} (h : inKseg address) (s : MipsBase MipsTlbNormal δ) :
    wordAt m address s = m.bus.word s.device (ksegPhysical address) := by
  have htrans : translateAddress s.tlb address =
      { found := true, readOnly := false, address := ksegPhysical address } :=
    MipsTlbNormal.translateAddress_of_inKseg _ h
  rw [wordAt, htrans]

/-- Memory has the instruction of a program at its address. -/
lemma Held.wordAt {s : MipsBase MipsTlbNormal δ} (h : Held m p s.device) {address : BitVec 64}
    (hat : p.At address) : wordAt m address s = p.instAt address := by
  rw [wordAt_inKseg hat.1, h _ hat.2, KsegProgram.instAt]

lemma OnTrack.branchBehind {s : MipsBase MipsTlbNormal δ} (h : OnTrack m p s) :
    BranchBehind m s := by
  intro hbd _
  have hbranch := h.follows hbd
  rw [h.held.wordAt hbranch.1]
  exact hbranch.2

/-! ## Checks for interrupts -/

variable (m p) in
/-- From a state on track, the program does not end in the `PANIC`, and stays on track. -/
abbrev StaysOnTrack {α : Type} (x : CpuM MipsTlbNormal δ α) : Prop :=
  Prog.Guards (OnTrack m p) NotOnBd x

lemma onTrack_triggerException (hm : m.IsN64) (hpure : m.bus.FetchPure) (cause : ExceptionCause) :
    StaysOnTrack m p (triggerException m cause) where
  stops _ _ hs h := triggerException_notOnBd hm hs.branchBehind h
  keeps s _ s' hs h := by
    have hdevice : s'.device = s.device := by
      cases triggerException_outcome hm h with
      | off _ => rfl
      | plain _ _ _ => rfl
      | delayed _ _ _ _ _ =>
          rw [fetched_of_pure hpure]
          rfl
    refine ⟨?_, by rw [hdevice]; exact hs.held⟩
    rcases triggerException_flag hm h with hnone | rfl
    · exact .of_none hnone
    · exact hs.follows

lemma onTrack_copRead32Internal (hm : m.IsN64) (idx : ℕ) :
    StaysOnTrack m p (copRead32Internal m idx) := by
  rw [copRead32Internal, hm.slot_zero]
  exact .of_total (fun _ => ⟨_, rfl⟩) fun _ _ _ hs h =>
    Prog.state_eq h ▸ ⟨hs.follows, hs.held⟩

lemma onTrack_cause (hm : m.IsN64) (value : BitVec 32) :
    StaysOnTrack m p (copWrite32Internal m 13 value) := by
  refine .of_total (fun s => ⟨_, copWrite32Internal_cause hm value s⟩) fun s a s' hs h => ?_
  rw [copWrite32Internal_cause hm] at h
  rw [← Prog.state_eq h]
  exact ⟨hs.follows, hs.held⟩

lemma onTrack_checkInterrupt (hm : m.IsN64) (hpure : m.bus.FetchPure) :
    StaysOnTrack m p (checkInterrupt m) := by
  rw [checkInterrupt]
  split
  · refine .bind (onTrack_copRead32Internal hm 12) fun sr =>
      .bind (onTrack_copRead32Internal hm 13) fun cause => .bind (.of_read _) fun ip => ?_
    split
    · exact onTrack_triggerException hm hpure .kInt
    · exact .of_pure ()
  · exact .of_pure ()

lemma onTrack_checkCompare (hm : m.IsN64) (hpure : m.bus.FetchPure) :
    StaysOnTrack m p (checkCompare m) := by
  rw [checkCompare]
  split
  · refine .bind (onTrack_copRead32Internal hm 13) fun cause => .bind (.of_read _) fun ip =>
      .bind (onTrack_cause hm _) fun _ => .bind (onTrack_copRead32Internal hm 128) fun crossed => ?_
    split
    · exact .bind (.of_modify fun s hs => ⟨hs.follows, hs.held⟩) fun _ =>
        onTrack_checkInterrupt hm hpure
    · exact .of_pure ()
  · exact .of_pure ()

lemma onTrack_poll (hm : m.IsN64) (hpure : m.bus.FetchPure) : StaysOnTrack m p (poll m) := by
  rw [poll]
  split
  · refine .bind (.of_modify fun s hs => ⟨hs.follows, hs.held⟩) fun _ =>
      .bind (.of_read _) fun counter => ?_
    split
    · exact .bind (.of_modify fun s hs => ⟨hs.follows, hs.held⟩) fun _ =>
        .bind (onTrack_checkInterrupt hm hpure) fun _ => onTrack_checkCompare hm hpure
    · exact .of_pure ()
  · exact .of_pure ()

/-- What a run does before its loop. -/
lemma onTrack_beginRun (hm : m.IsN64) (hpure : m.bus.FetchPure) :
    StaysOnTrack m p (beginRun m) := by
  have hchecks : StaysOnTrack m p (do checkInterrupt m; checkCompare m : CpuM _ δ Unit) :=
    .bind (onTrack_checkInterrupt hm hpure) fun _ => onTrack_checkCompare hm hpure
  have hreset : ∀ {s : MipsBase MipsTlbNormal δ}, OnTrack m p s →
      OnTrack m p { s with cycleSpent := 0 } := fun hs => ⟨hs.follows, hs.held⟩
  constructor
  · intro s e hs h
    rw [beginRun] at h
    split at h
    · exact absurd h Prog.ok_ne_error
    · exact hchecks.stops _ e (hreset hs) h
  · intro s a s' hs h
    rw [beginRun] at h
    split at h
    · exact Prog.state_eq h ▸ hreset hs
    · exact hchecks.keeps _ a s' (hreset hs) h

/-! ## Fetches and blocks -/

lemma onTrack_fetch (hm : m.IsN64) (hpure : m.bus.FetchPure) (address : BitVec 64) :
    StaysOnTrack m p (fetch m address) := by
  refine .bind (.of_read _) fun result => ?_
  split
  · refine .of_total (fun _ => ⟨_, rfl⟩) fun s a s' hs h => ?_
    rw [← Prog.state_eq h]
    exact ⟨hs.follows, (hpure s.device result.address).symm ▸ hs.held⟩
  · have hbadvaddr : StaysOnTrack m p (copWrite64Internal m 8 address) := by
      refine .of_total (fun s => ⟨_, copWrite64Internal_badvaddr hm address s⟩)
        fun s a s' hs h => ?_
      rw [copWrite64Internal_badvaddr hm] at h
      exact Prog.state_eq h ▸ ⟨hs.follows, hs.held⟩
    have hfault : StaysOnTrack m p
        (translationFault m (triggerException m) .kTlbMissLoad address) :=
      .bind hbadvaddr fun _ => .bind (.of_modify fun s hs => ⟨hs.follows, hs.held⟩) fun _ =>
        onTrack_triggerException hm hpure _
    exact .bind hfault fun _ => .of_pure 0

lemma onTrack_getBlock : StaysOnTrack m p getBlock :=
  .of_total (fun _ => ⟨_, rfl⟩) fun _ _ _ hs h => Prog.state_eq h ▸ ⟨hs.follows, hs.held⟩

lemma onTrack_getOrBuildBlock (hm : m.IsN64) (hpure : m.bus.FetchPure) :
    StaysOnTrack m p (getOrBuildBlock m) := by
  refine .bind onTrack_getBlock fun block => ?_
  split
  · exact .of_pure _
  · refine .bind (.of_read _) fun pc => .bind (.bind ?_ fun block => .of_modify ?_) fun _ =>
      .bind onTrack_getBlock fun block => ?_
    · exact (built_buildBlock (P := fun α x => StaysOnTrack m p x)
        (fun address => .op (onTrack_fetch hm hpure address)) _).guards fun _ _ hx => hx
    · exact fun s hs => ⟨hs.follows, hs.held⟩
    · split
      · exact .of_pure _
      · exact .of_throw (notOnBd_panic (by decide))

lemma onTrack_derefBlock (i : ℕ) : StaysOnTrack m p (derefBlock i) where
  stops s e _ h := by
    rw [derefBlock] at h
    split at h
    · exact absurd h Prog.ok_ne_error
    · rw [← Except.error.inj h, NotOnBd]
      decide
  keeps s block s' hs h := (derefBlock_ok h).1 ▸ hs

/-- The way to a block. -/
lemma onTrack_enterBlock (hm : m.IsN64) (hpure : m.bus.FetchPure) :
    StaysOnTrack m p (enterBlock m) := by
  refine .bind (.of_modify fun s hs => ?_) fun _ =>
    .bind (onTrack_getOrBuildBlock hm hpure) onTrack_derefBlock
  split
  · exact ⟨hs.follows, hs.held⟩
  · exact hs

/-! ## Instructions -/

/-- A handler that leaves a jump pending is one of a branch or jump, and control goes on to the
word that was next. -/
lemma callInst_pending (hm : m.IsN64) {opcode : BitVec 32} {func : MipsInstId}
    {u t : MipsBase MipsTlbNormal δ} (hnone : NonePending u)
    (h : callInst m opcode func u = .ok ((), t)) (hflag : t.hasBranchDelay = true) :
    func.hasDelaySlot = true ∧ t.nextPc = u.nextPc := by
  refine ⟨callInst_slot hm hnone h hflag, ?_⟩
  have hno : ¬ t.hasBranchDelay = false := by simp [hflag]
  by_cases hraise : Raises u t
  · exact absurd (callInst_raises hm hnone hraise h).2 hno
  · have hcontrol := callInst_controlled hm hnone hraise h
    cases hc : control m func opcode u with
    | jump target =>
        rw [hc] at hcontrol
        exact hcontrol.1
    | next | skip | goto address =>
        rw [hc] at hcontrol
        exact absurd hcontrol.2 hno

section Instruction

variable {opcode : BitVec 32} {s t : MipsBase MipsTlbNormal δ} (hm : m.IsN64) (hat : p.At s.pc)
  (hop : opcode = p.instAt s.pc)

include hat hop

lemma branchAt_of_func
    (h : (getInstFuncPtr m.kIs64Bit opcode).hasDelaySlot = true) : p.BranchAt s.pc :=
  ⟨hat, hop ▸ doesInstHaveDelaySlot_of_func opcode h⟩

include hm

/-- An instruction of the program leaves behind the branch it made pending, whatever becomes of
the high word of the program counter. -/
lemma callInst_follows {mask : BitVec 64} (hmask : ∀ a, SameLow (a &&& mask) a)
    (hfollows : Follows p s)
    (h : callInst m opcode (getInstFuncPtr m.kIs64Bit opcode) (started opcode s) = .ok ((), t)) :
    Follows p (stepped mask t) := by
  intro hflag
  obtain ⟨hslot, hnext⟩ := callInst_pending hm (u := started opcode s) rfl h hflag
  have hbranch := branchAt_of_func hat hop hslot
  have hnone := hfollows.none_of_branchAt hbranch
  have hpc : t.nextPc = s.pc + 4 := by
    rw [hnext]
    change (if s.hasBranchDelay then s.branchDelayDst else s.pc + 4) = _
    rw [hnone, if_neg (by simp)]
  have hback : SameLow (t.nextPc - 4) ((stepped mask t).pc - 4) := ((hmask t.nextPc).sub 4).symm
  rw [hpc, BitVec.add_sub_cancel] at hback
  exact hbranch.congr hback

/-- An instruction of the program does not end in the `PANIC`. -/
lemma callInst_program_notOnBd {e : Stop}
    (h : callInst m opcode (getInstFuncPtr m.kIs64Bit opcode) (started opcode s) = .error e) :
    NotOnBd e := by
  refine callInst_notOnBd hm (s := started opcode s) rfl (fun hslot => ?_) h
  have hkseg := (branchAt_of_func hat hop hslot).slot.1.1
  have htrans : translateAddress s.tlb (s.pc + 4) =
      { found := true, readOnly := false, address := ksegPhysical (s.pc + 4) } :=
    MipsTlbNormal.translateAddress_of_inKseg _ hkseg
  change (translateAddress s.tlb (s.pc + 4)).found = true
  rw [htrans]

end Instruction

section Steps

variable {s t : MipsBase MipsTlbNormal δ} {e : Stop} (hm : m.IsN64)

include hm

lemma runInst_follows (hpure : m.bus.FetchPure) (hprogram : InProgram m p s)
    (hfollows : Follows p s) (h : runInst m s = .ok ((), t)) : Follows p t := by
  obtain ⟨opcode, s₀, u, hfetch, hcall, rfl⟩ := runInst_ok.mp h
  rw [fetch_inKseg hpure hprogram.at_.1] at hfetch
  obtain ⟨hop, rfl⟩ := Prog.ok_inj hfetch
  have hword : opcode = p.instAt s.pc := hop ▸ hprogram.held _ hprogram.at_.2
  have hall : ∀ a : BitVec 64, SameLow (a &&& BitVec.allOnes 64) a := by
    intro a
    rw [BitVec.and_allOnes]
    exact .refl a
  exact (callInst_follows hm hprogram.at_ hword hall hfollows hcall).of_same rfl rfl

lemma runInst_notOnBd (hpure : m.bus.FetchPure) (hprogram : InProgram m p s)
    (h : runInst m s = .error e) : NotOnBd e := by
  rw [runInst, Prog.bind_of_ok (read_run _ _),
    Prog.bind_of_ok (fetch_inKseg hpure hprogram.at_.1 s)] at h
  obtain hexec | ⟨⟨⟩, u, -, hrest⟩ := Prog.bind_error.mp h
  · rw [execute_run] at hexec
    exact callInst_program_notOnBd hm hprogram.at_ (hprogram.held _ hprogram.at_.2) hexec
  · exact absurd hrest Prog.ok_ne_error

variable {entry : MipsCacheEntry} (hat : p.At s.pc) (hop : entry.opcode = p.instAt s.pc)
  (hfunc : entry.func = getInstFuncPtr m.kIs64Bit entry.opcode)

include hat hop hfunc

lemma runEntry_follows (hfollows : Follows p s) (h : runEntry m entry s = .ok ((), t)) :
    Follows p t := by
  obtain ⟨u, hcall, rfl⟩ := runEntry_ok.mp h
  rw [hfunc] at hcall
  exact callInst_follows hm hat hop .of_masked hfollows hcall

lemma runEntry_notOnBd (h : runEntry m entry s = .error e) : NotOnBd e := by
  obtain hexec | ⟨⟨⟩, u, -, hrest⟩ := Prog.bind_error.mp h
  · rw [execute_run, hfunc] at hexec
    exact callInst_program_notOnBd hm hat hop hexec
  · exact absurd hrest Prog.ok_ne_error

end Steps

end MipsBase

end NgMips
