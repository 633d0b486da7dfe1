import NgMips.Proofs.Branch
import NgMips.Proofs.Poll

/-!
# Giving up on an exception in a delay slot

An exception with a branch pending looks for that branch in front of the program counter, and
gives up when it is not there.  No other part of the processor stops with this `PANIC`: neither a
check for interrupts nor a fetch does where a branch is found (`BranchBehind`), and a handler
does not since it is called with no branch pending (`callInst_notOnBd`).
-/

namespace NgMips

/-- Any reason to stop but the `PANIC` of an exception that finds no branch. -/
def NotOnBd (e : Stop) : Prop := e ≠ .panic .nonBranchOnBd

lemma notOnBd_panic {reason : Panic} (h : reason ≠ .nonBranchOnBd) : NotOnBd (.panic reason) :=
  fun heq => h (Stop.panic.inj heq)

lemma Panics.notOnBd {α : Type} {r : Except Stop α} (h : Panics r) {e : Stop} (he : r = .error e) :
    NotOnBd e := by
  obtain ⟨reason, rfl, hreason⟩ := h e he
  exact notOnBd_panic hreason

namespace MipsBase

variable {T δ : Type} [MipsTlbBase T] {m : MipsSetup δ} {opcode : BitVec 32} {func : MipsInstId}

/-! ## Exceptions -/

variable (m) in
/-- The instruction before the program counter has a delay slot, if a branch is pending. -/
def BranchBehind (s : MipsBase T δ) : Prop :=
  s.hasBranchDelay = true → (translateAddress s.tlb (s.pc - 4)).found = true →
    doesInstHaveDelaySlot (wordAt m (s.pc - 4) s) = true

/-- No branch is pending. -/
def NonePending (s : MipsBase T δ) : Prop := s.hasBranchDelay = false

lemma NonePending.branchBehind {s : MipsBase T δ} (h : NonePending s) : BranchBehind m s :=
  fun hbd => absurd (h.symm.trans hbd) (by simp)

/-- An exception gives up in a delay slot only if it finds no branch. -/
lemma triggerException_notOnBd (hm : m.IsN64) {cause : ExceptionCause} {s : MipsBase T δ} {e : Stop}
    (hs : BranchBehind m s) (h : triggerException m cause s = .error e) : NotOnBd e := by
  cases hexc : m.config.hasException with
  | false =>
      rw [triggerException_off hexc] at h
      exact absurd h Prog.ok_ne_error
  | true =>
      have htlb : NotOnBd (.panic .tlbException) := notOnBd_panic (by decide)
      cases hbd : s.hasBranchDelay with
      | false =>
          rw [triggerException_run hm hexc cause hbd] at h
          split at h
          · exact Except.error.inj h ▸ htlb
          · exact absurd h Prog.ok_ne_error
      | true =>
          cases hfound : (translateAddress s.tlb (s.pc - 4)).found with
          | false =>
              rw [triggerException_lost hm hexc cause hbd hfound] at h
              exact Except.error.inj h ▸ htlb
          | true =>
              rw [triggerException_pending hm hexc cause hbd hfound, if_pos (hs hbd hfound)] at h
              split at h
              · exact Except.error.inj h ▸ htlb
              · exact absurd h Prog.ok_ne_error

omit [MipsTlbBase T] in
/-- With no branch pending before, none is pending afterwards, and the `PANIC` does not occur. -/
abbrev StaysNone {α : Type} (x : CpuM T δ α) : Prop := Prog.Guards NonePending NotOnBd x

lemma staysNone_triggerException (hm : m.IsN64) (cause : ExceptionCause) :
    StaysNone (triggerException (T := T) m cause) where
  stops _ _ hs h := triggerException_notOnBd hm hs.branchBehind h
  keeps _ _ _ hs h := by
    rcases triggerException_flag hm h with hnone | rfl
    · exact hnone
    · exact hs

/-! ## Operations of handlers -/

omit [MipsTlbBase T] in
lemma staysNone_copRead32Internal (hm : m.IsN64) (idx : ℕ) :
    StaysNone (copRead32Internal (T := T) m idx) := by
  rw [copRead32Internal, hm.slot_zero]
  exact .of_total (fun _ => ⟨_, rfl⟩) fun _ _ _ hs h => Prog.state_eq h ▸ hs

omit [MipsTlbBase T] in
lemma staysNone_badvaddr (hm : m.IsN64) (address : BitVec 64) :
    StaysNone (copWrite64Internal (T := T) m 8 address) := by
  refine .of_total (fun s => ⟨_, copWrite64Internal_badvaddr hm address s⟩) fun s a s' hs h => ?_
  rw [copWrite64Internal_badvaddr hm] at h
  rw [← Prog.state_eq h]
  exact hs

omit [MipsTlbBase T] in
lemma staysNone_look (hm : m.IsN64) (α : Type) (x : CpuM T δ α) (hx : Look m α x) : StaysNone x := by
  cases hx with
  | gpr32 idx => exact .of_read _
  | gpr64 idx => exact .of_read _
  | copEnabled copId =>
      rw [isCopEnabled]
      split
      · exact .bind (staysNone_copRead32Internal hm 12) fun _ => .of_pure _
      · exact .of_pure true

lemma staysNone_raise (hm : m.IsN64) (x : CpuM T δ Unit) (hx : Raise m x) : StaysNone x := by
  cases hx with
  | trigger cause _ => exact staysNone_triggerException hm cause
  | address cause _ address =>
      exact .bind (staysNone_badvaddr hm address) fun _ => staysNone_triggerException hm cause
  | copUnusable copId =>
      exact .bind (.of_modify fun _ hs => hs) fun _ => staysNone_triggerException hm .kCop
  | «break» =>
      refine .bind (staysNone_triggerException hm .kBkpt) fun _ => ?_
      rw [if_pos hm.hasCop0]
      exact .of_pure ()

/-- An operation of an instruction without a delay slot. -/
lemma staysNone_portElem (hm : m.IsN64) (hslot : func.hasDelaySlot = false) (α : Type)
    (x : CpuM T δ α) (hx : PortElem m opcode func α x) : StaysNone x := by
  cases hx with
  | read f _ => exact .of_read f
  | readStatus => exact staysNone_copRead32Internal hm 12
  | access f =>
      refine .of_total (fun _ => ⟨_, rfl⟩) fun s a s' hs h => ?_
      obtain ⟨device, halt, cache, rfl⟩ := access_ok h
      exact hs
  | fault cause _ address =>
      exact .bind (staysNone_badvaddr hm address) fun _ =>
        .bind (.of_modify fun _ hs => hs) fun _ => staysNone_triggerException hm cause
  | random =>
      refine ⟨fun s e _ h => ?_, fun s a s' hs h => ?_⟩
      · rw [readRandom] at h
        split at h
        · exact absurd h Prog.ok_ne_error
        · rw [← Except.error.inj h, NotOnBd]
          decide
      · obtain ⟨state, rfl⟩ := readRandom_ok h
        exact hs
  | fpu f _ hpanics =>
      refine ⟨fun s e _ h => ?_, fun s a s' hs h => ?_⟩
      · rw [setFpu] at h
        cases hf : f s.fpu with
        | ok fpu =>
            rw [hf] at h
            exact absurd h Prog.ok_ne_error
        | error e' =>
            rw [hf] at h
            obtain rfl := Except.error.inj h
            exact (hpanics s.fpu).notOnBd hf
      · obtain ⟨fpu, rfl⟩ := setFpu_ok h
        exact hs
  | eret _ _ _ =>
      refine .of_total (fun s => ⟨_, eret_run s⟩) fun s a s' hs h => ?_
      rw [eret_run] at h
      rw [← Prog.state_eq h]
      exact hs
  | jump hyes dst _ => exact absurd (hslot.symm.trans hyes) (by simp)
  | nullify hyes => exact absurd (hslot.symm.trans hyes) (by simp)
  | panic α reason hreason => exact .of_throw (notOnBd_panic hreason)
  | _ => exact .of_total (fun _ => ⟨_, rfl⟩) fun _ _ _ hs h => Prog.state_eq h ▸ hs

lemma staysNone_coreElem (hm : m.IsN64) (hslot : func.hasDelaySlot = false) (α : Type)
    (x : CpuM T δ α) (hx : CoreElem m opcode func α x) : StaysNone x := by
  cases hx with
  | port h => exact staysNone_portElem hm hslot α x h
  | writeGpr idx value =>
      rw [writeGpr64]
      split
      · exact .of_pure ()
      · exact .of_modify fun _ hs => hs
  | writeHi value => exact .of_modify fun _ hs => hs
  | writeLo value => exact .of_modify fun _ hs => hs

/-- A handler of an instruction without a delay slot. -/
lemma staysNone_callInst (hm : m.IsN64) (hslot : func.hasDelaySlot = false) :
    StaysNone (callInst (T := T) m opcode func) :=
  (callInst_body m opcode func).guards (staysNone_look hm) (staysNone_raise hm) fun _ hx =>
    (hx.refine core_actOp).guards (staysNone_coreElem hm hslot)

/-! ## Branches and jumps -/

lemma detectIdleLoop_total {s : MipsBase T δ}
    (h : (translateAddress s.tlb (s.pc + 4)).found = true) :
    ∃ r, detectIdleLoop m s = .ok r := by
  rw [detectIdleLoop, Prog.bind_of_ok (read_run _ _), Prog.bind_of_ok (fetch_found h)]
  split <;> exact ⟨_, rfl⟩

lemma branchCop_notOnBd (hm : m.IsN64) {likely onFlag : Bool} {s : MipsBase T δ} {e : Stop}
    (hs : NonePending s) (h : branchCop m opcode likely onFlag s = .error e) : NotOnBd e := by
  rw [branchCop, whenCopEnabled, Prog.bind_of_ok (isCopEnabled_run hm _ _)] at h
  split at h
  · rw [Prog.bind_of_ok (copGetFlag_run _ _), branchIf_run] at h
    exact absurd h Prog.ok_ne_error
  · exact (staysNone_raise hm _ (.copUnusable _)).stops s e hs h

lemma instBeq_notOnBd (hm : m.IsN64) {s : MipsBase T δ} {e : Stop}
    (hnext : (translateAddress s.tlb (s.pc + 4)).found = true)
    (h : instBeq m opcode s = .error e) : NotOnBd e := by
  rw [instBeq] at h
  split at h
  · obtain ⟨⟨⟨⟩, t⟩, hidle⟩ := detectIdleLoop_total (m := m) hnext
    rw [Prog.bind_of_ok hidle] at h
    exact absurd ((branchR_run hm _ _ t).symm.trans h) Prog.ok_ne_error
  · exact absurd ((branchR_run hm _ _ s).symm.trans h) Prog.ok_ne_error

/-- The jump is pending when its delay slot is looked at. -/
lemma instJ_notOnBd {s : MipsBase T δ} {e : Stop}
    (hnext : (translateAddress s.tlb (s.pc + 4)).found = true)
    (h : instJ m opcode s = .error e) : NotOnBd e := by
  have hjump : jump32 (jumpTarget opcode s.pc) s =
      .ok ((), branched ((jumpTarget opcode s.pc).setWidth 64) s) := rfl
  rw [instJ, Prog.bind_of_ok (read_run _ _), Prog.bind_of_ok hjump] at h
  split at h
  · obtain ⟨r, hidle⟩ := detectIdleLoop_total (m := m)
      (s := branched ((jumpTarget opcode s.pc).setWidth 64) s) hnext
    exact absurd (hidle.symm.trans h) Prog.ok_ne_error
  · exact absurd h Prog.ok_ne_error

omit [MipsTlbBase T] in
lemma instJr_notOnBd {s : MipsBase T δ} {e : Stop} (h : instJr m opcode s = .error e) :
    NotOnBd e := by
  obtain hread | ⟨rsValue, t, -, hrest⟩ := Prog.bind_error.mp h
  · exact absurd hread Prog.ok_ne_error
  · split at hrest
    · exact Except.error.inj hrest ▸ notOnBd_panic (by decide)
    · exact absurd hrest Prog.ok_ne_error

omit [MipsTlbBase T] in
lemma instJalr_notOnBd {s : MipsBase T δ} {e : Stop} (h : instJalr m opcode s = .error e) :
    NotOnBd e := by
  obtain hread | ⟨rsValue, t, -, hrest⟩ := Prog.bind_error.mp h
  · exact absurd hread Prog.ok_ne_error
  · split at hrest
    · exact Except.error.inj hrest ▸ notOnBd_panic (by decide)
    · rw [Prog.bind_of_ok (linkForJump_run _ _)] at hrest
      exact absurd hrest Prog.ok_ne_error

/-- A handler that is called with no branch pending, and can look at its delay slot, does not end
in the `PANIC`. -/
theorem callInst_notOnBd (hm : m.IsN64) {s : MipsBase T δ} {e : Stop} (hs : NonePending s)
    (hnext : func.hasDelaySlot = true → (translateAddress s.tlb (s.pc + 4)).found = true)
    (h : callInst m opcode func s = .error e) : NotOnBd e := by
  cases hslot : func.hasDelaySlot with
  | false => exact (staysNone_callInst hm hslot).stops s e hs h
  | true =>
      have hfound := hnext hslot
      have htotal : ∀ {x : CpuM T δ Unit} {r}, x s = .ok r → x s = .error e → NotOnBd e :=
        fun hok herr => absurd (hok.symm.trans herr) Prog.ok_ne_error
      cases func with
      | kBeq => exact instBeq_notOnBd hm hfound h
      | kBne | kBeql | kBnel => exact htotal (branchR_run hm _ _ s) h
      | kBgtz | kBlez | kBgez | kBltz | kBgtzl | kBlezl | kBgezl | kBltzl | kBgezal | kBltzal
      | kBgezall | kBltzall => exact htotal (branchZ_run hm _ _ _ s) h
      | kBcf | kBcfl | kBct | kBctl => exact branchCop_notOnBd hm hs h
      | kJ => exact instJ_notOnBd hfound h
      | kJal => exact htotal (instJal_run s) h
      | kJr => exact instJr_notOnBd h
      | kJalr => exact instJalr_notOnBd h
      | _ => exact absurd hslot (by decide)

end MipsBase

end NgMips
