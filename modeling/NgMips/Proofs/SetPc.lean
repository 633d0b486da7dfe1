import NgMips.Proofs.Points
import NgMips.Proofs.Reset
import NgMips.Proofs.TwoPc

/-!
# Setting the program counter

`SetPc` sets the two program counters and leaves a pending branch pending.  The instruction at
the new address is executed, and control then goes to the target of that branch: `setPc_clean_iff`.
What holds of the instruction itself is shown for every processor, whatever its registers and
coprocessors: unless it raises an exception, returns from one or skips its delay slot, it leaves
the next program counter alone (`callInst_nextPc`).
-/

namespace NgMips

namespace MipsBase

variable {T δ : Type}

/-! ## What is kept unless an exception is raised -/

section Kept

variable {α : Type}

/-- A part of the state is kept, unless an exception is raised on the way. -/
def KeptUnlessRaised (f : MipsBase T δ → α) (s s' : MipsBase T δ) : Prop :=
  ∃ new, s'.trace = new ++ s.trace ∧ ((∃ cause, Event.exception cause ∈ new) ∨ f s' = f s)

variable {f : MipsBase T δ → α}

namespace KeptUnlessRaised

lemma of_same {s s' : MipsBase T δ} (htrace : s'.trace = s.trace) (hf : f s' = f s) :
    KeptUnlessRaised f s s' := ⟨[], htrace, Or.inr hf⟩

lemma refl (s : MipsBase T δ) : KeptUnlessRaised f s s := .of_same rfl rfl

lemma trans {s t u : MipsBase T δ} (h : KeptUnlessRaised f s t) (h' : KeptUnlessRaised f t u) :
    KeptUnlessRaised f s u := by
  obtain ⟨new, htrace, hkept⟩ := h
  obtain ⟨new', htrace', hkept'⟩ := h'
  refine ⟨new' ++ new, by rw [htrace', htrace, List.append_assoc], ?_⟩
  rcases hkept with ⟨cause, hmem⟩ | hkept
  · exact Or.inl ⟨cause, List.mem_append_right _ hmem⟩
  · rcases hkept' with ⟨cause, hmem⟩ | hkept'
    · exact Or.inl ⟨cause, List.mem_append_left _ hmem⟩
    · exact Or.inr (hkept'.trans hkept)

lemma map {β : Type} (g : α → β) {s s' : MipsBase T δ} (h : KeptUnlessRaised f s s') :
    KeptUnlessRaised (fun s => g (f s)) s s' := by
  obtain ⟨new, htrace, hkept⟩ := h
  exact ⟨new, htrace, hkept.imp_right fun hf => congrArg g hf⟩

end KeptUnlessRaised

/-- The program counters and the pending branch. -/
def flow (s : MipsBase T δ) : BitVec 64 × BitVec 64 × Bool × BitVec 64 :=
  (s.pc, s.nextPc, s.hasBranchDelay, s.branchDelayDst)

abbrev FlowKept : MipsBase T δ → MipsBase T δ → Prop := KeptUnlessRaised flow

end Kept

variable {m : MipsSetup δ}

lemma flow_modify {f : MipsBase T δ → MipsBase T δ}
    (h : ∀ s, (f s).trace = s.trace ∧ (f s).flow = s.flow) :
    Prog.Moves FlowKept (modify f : CpuM T δ PUnit) :=
  .of_modify fun s => .of_same (h s).1 (h s).2

/-- Internal registers are read and written without an effect on control. -/
lemma flow_copRead32Internal (idx : ℕ) :
    Prog.Moves FlowKept (copRead32Internal (T := T) m idx) := by
  rw [copRead32Internal]
  split
  · intro s a s' h
    rw [← Prog.state_eq h]
    exact .of_same rfl rfl
  · exact .of_read .refl _
  · exact .of_pure .refl _

lemma flow_copWrite64Internal (idx : ℕ) (value : BitVec 64) :
    Prog.Moves FlowKept (copWrite64Internal (T := T) m idx value) := by
  rw [copWrite64Internal]
  split
  · intro s a s' h
    change Except.map _ (s.cop0.write64Internal idx value) = _ at h
    cases hwrite : s.cop0.write64Internal idx value with
    | ok cop0 =>
        rw [hwrite] at h
        rw [← Prog.state_eq h]
        exact .of_same rfl rfl
    | error e =>
        rw [hwrite] at h
        exact absurd h.symm Prog.ok_ne_error
  · exact flow_modify fun _ => ⟨rfl, rfl⟩
  · exact .of_pure .refl _

lemma extends_internals {α : Type} {x : CpuM T δ α} (hx : Internals m x) : Prog.Moves Extends x :=
  extends_of_background (background_internals hx)

variable [MipsTlbBase T]

/-- Without exceptions nothing happens, and otherwise one is reported first. -/
lemma flow_triggerException (cause : ExceptionCause) :
    Prog.Moves FlowKept (triggerException (T := T) m cause) := by
  rw [triggerException]
  split
  · intro s a s' h
    obtain ⟨⟨⟩, t, hemit, hrest⟩ := Prog.bind_ok.mp h
    have hextends : Extends t s' := by
      refine extends_internals (m := m) ?_ t a s' hrest
      refine .bind (.op (.read _ fun _ _ => rfl)) fun pc =>
        .bind (.op (.read _ fun _ _ => rfl)) fun hasBranchDelay => ?_
      split
      · refine .bind (.op .giveUp) fun _ =>
          .bind (internal_fetchWith internal_triggerNoDelay _) fun opcode => ?_
        split
        · exact internal_takeException cause _ true
        · exact .op (.panic _ _ (.inr rfl))
      · exact internal_takeException cause pc false
    obtain ⟨new, hnew⟩ := hextends
    have htold : t.trace = .exception cause :: s.trace := by rw [← Prog.state_eq hemit]
    exact ⟨new ++ [.exception cause], by rw [hnew, htold]; simp, Or.inl ⟨cause, by simp⟩⟩
  · exact .of_pure .refl _

lemma flow_translationFault (cause : ExceptionCause) (address : BitVec 64) :
    Prog.Moves FlowKept (translationFault (T := T) m (triggerException m) cause address) :=
  .bind (fun _ _ _ => .trans) (flow_copWrite64Internal 8 _) fun _ =>
    .bind (fun _ _ _ => .trans) (flow_modify fun _ => ⟨rfl, rfl⟩) fun _ =>
      flow_triggerException cause

lemma flow_fetch (address : BitVec 64) : Prog.Moves FlowKept (fetch (T := T) m address) := by
  refine .bind (fun _ _ _ => .trans) (.of_read .refl _) fun result => ?_
  split
  · intro s a s' h
    rw [← Prog.state_eq h]
    exact .of_same rfl rfl
  · exact .bind (fun _ _ _ => .trans) (flow_translationFault _ _) fun _ => .of_pure .refl _

omit [MipsTlbBase T] in
lemma flow_access {α : Type} (f : δ → Served δ α) :
    Prog.Moves FlowKept (access f : CpuM T δ α) := by
  intro s a s' h
  have hserve : ∀ (calls : List CpuCall) (t : MipsBase T δ),
      (calls.foldl serve t).trace = t.trace ∧ (calls.foldl serve t).flow = t.flow := by
    intro calls
    induction calls with
    | nil => exact fun t => ⟨rfl, rfl⟩
    | cons call calls ih =>
        intro t
        obtain ⟨htrace, hflow⟩ := ih (serve t call)
        rw [List.foldl_cons, htrace, hflow]
        cases call <;> exact ⟨rfl, rfl⟩
  rw [← Prog.state_eq h]
  obtain ⟨htrace, hflow⟩ := hserve (f s.device).calls { s with device := (f s.device).device }
  exact .of_same htrace hflow

omit [MipsTlbBase T] in
lemma flow_setFpu (f : MipsFpu → Except Stop MipsFpu) :
    Prog.Moves FlowKept (setFpu f : CpuM T δ Unit) := by
  intro s a s' h
  obtain ⟨fpu, rfl⟩ := setFpu_ok h
  exact .of_same rfl rfl

/-- The word that the second processor gives its coprocessor 0 when it stops. -/
lemma flow_stopCommand : Prog.Moves FlowKept (copCommand (T := T) m 0 0) := by
  have hget : Prog.Moves FlowKept (getFr (T := T) m) :=
    .bind (fun _ _ _ => .trans) (flow_copRead32Internal 12) fun _ => .of_pure .refl _
  rw [copCommand]
  split
  · exact .of_pure .refl ()
  · exact .bind (fun _ _ _ => .trans) hget fun _ => flow_setFpu _
  · exact flow_access _
  · exact .of_pure .refl ()

lemma flow_raise {x : CpuM T δ Unit} (hx : Raise m x) : Prog.Moves FlowKept x := by
  cases hx with
  | trigger cause hcause => exact flow_triggerException cause
  | address cause hcause address =>
      exact .bind (fun _ _ _ => .trans) (flow_copWrite64Internal 8 _) fun _ =>
        flow_triggerException cause
  | copUnusable copId =>
      exact .bind (fun _ _ _ => .trans) (flow_modify fun _ => ⟨rfl, rfl⟩) fun _ =>
        flow_triggerException .kCop
  | «break» =>
      refine .bind (fun _ _ _ => .trans) (flow_triggerException .kBkpt) fun _ => ?_
      split
      · exact .of_pure .refl ()
      · exact flow_stopCommand

omit [MipsTlbBase T] in
lemma flow_look {α : Type} {x : CpuM T δ α} (hx : Look m α x) : Prog.Moves FlowKept x := by
  cases hx with
  | gpr32 idx => exact .of_read .refl _
  | gpr64 idx => exact .of_read .refl _
  | copEnabled copId =>
      rw [isCopEnabled]
      split
      · exact .bind (fun _ _ _ => .trans) (flow_copRead32Internal 12) fun _ => .of_pure .refl _
      · exact .of_pure .refl true

/-- An operation of an instruction without a delay slot that is not a return. -/
lemma flow_elem {opcode : BitVec 32} {func : MipsInstId} (hslot : func.hasDelaySlot = false)
    (heret : isEret m func opcode = false) (α : Type) (x : CpuM T δ α)
    (hx : Elem m opcode func α x) : Prog.Moves FlowKept x := by
  cases hx with
  | readStatus => exact flow_copRead32Internal 12
  | writeGpr idx value =>
      intro s a s' h
      obtain ⟨gpr, rfl⟩ := writeGpr64_ok h
      exact .of_same rfl rfl
  | emit e haccess =>
      intro s a s' h
      rw [← Prog.state_eq h]
      exact ⟨[e], rfl, Or.inr rfl⟩
  | access f => exact flow_access f
  | fault cause hcause address => exact flow_translationFault cause address
  | random =>
      intro s a s' h
      obtain ⟨state, rfl⟩ := readRandom_ok h
      exact .of_same rfl rfl
  | fpu f => exact flow_setFpu f
  | eret hcop hcommand hfunct =>
      have hyes : isEret m func opcode = true := by
        simp only [isEret, hcommand, hcop, hfunct]
        rfl
      exact absurd (heret.symm.trans hyes) (by simp)
  | jump hyes dst => exact absurd (hslot.symm.trans hyes) (by simp)
  | nullify hyes => exact absurd (hslot.symm.trans hyes) (by simp)
  | panic α reason => exact .of_throw _
  | _ =>
      intro s a s' h
      rw [← Prog.state_eq h]
      exact .of_same rfl rfl

/-- A handler of an instruction without a delay slot that is not a return leaves control alone,
unless it raises an exception. -/
lemma flow_plain {opcode : BitVec 32} {func : MipsInstId} (hslot : func.hasDelaySlot = false)
    (heret : isEret m func opcode = false) :
    Prog.Moves FlowKept (callInst (T := T) m opcode func) :=
  (callInst_body m opcode func).moves (fun _ _ _ => .trans) (fun _ _ => flow_look)
    (fun _ => flow_raise) fun _ hx _ _ _ h =>
      act_moves .refl (fun _ _ _ => .trans) (flow_elem hslot heret) hx h

/-! ## Branches -/

section Branches

variable {opcode : BitVec 32} {func : MipsInstId} {u t : MipsBase T δ}

variable (m) in
omit [MipsTlbBase T] in
/-- What a register reads as. -/
def regValue (s : MipsBase T δ) (idx : BitVec 5) : BitVec 64 :=
  if m.kIs64Bit then s.gpr idx else ((s.gpr idx).setWidth 32).signExtend 64

variable (m) in
omit [MipsTlbBase T] in
/-- The coprocessor can be used. -/
def copEnabled (copId : BitVec 2) (s : MipsBase T δ) : Bool :=
  let sr := match m.slot 0#2 with
    | .cop0 => s.cop0.sr
    | .device => m.cop.read32Internal s.device 12
    | _ => 0
  !m.kHasCop0 || copId == 0 || sr.getLsbD (copId.toNat + 28)

omit [MipsTlbBase T] in
lemma isCopEnabled_value (copId : BitVec 2) (s : MipsBase T δ) :
    isCopEnabled m copId s = .ok (copEnabled m copId s, s) := by
  rw [isCopEnabled, copEnabled]
  cases hcop0 : m.kHasCop0 with
  | false => rfl
  | true =>
      rw [if_pos rfl, copRead32Internal]
      cases m.slot 0#2 <;> rfl

variable (m) in
omit [MipsTlbBase T] in
/-- The instruction is a likely branch that is not taken: it skips its delay slot. -/
def nullifies (func : MipsInstId) (opcode : BitVec 32) (s : MipsBase T δ) : Bool :=
  let rs := regValue m s (rsField opcode)
  let rt := regValue m s (rtField opcode)
  match func with
  | .kBeql => !(rs == rt)
  | .kBnel => !(rs != rt)
  | .kBgtzl => !(0#64).slt rs
  | .kBlezl => !rs.sle 0
  | .kBgezl | .kBgezall => !(0#64).sle rs
  | .kBltzl | .kBltzall => !rs.slt 0
  | .kBcfl => copEnabled m (copId opcode) s && !(flagOf m (copId opcode) s == false)
  | .kBctl => copEnabled m (copId opcode) s && !(flagOf m (copId opcode) s == true)
  | _ => false

/-- The next program counter is kept, unless an exception is raised. -/
abbrev NextKept : MipsBase T δ → MipsBase T δ → Prop := KeptUnlessRaised MipsBase.nextPc

omit [MipsTlbBase T] in
lemma NextKept.of_flow (h : FlowKept u t) : NextKept u t := h.map fun flow => flow.2.1

omit [MipsTlbBase T] in
lemma next_branchEnd {likely taken : Bool} (h : likely = false ∨ taken = true) :
    NextKept u (branchEnd opcode likely taken u) := by
  cases taken with
  | true => exact .of_same rfl rfl
  | false =>
      rw [h.resolve_right (by simp)]
      exact .of_same rfl rfl

omit [MipsTlbBase T] in
lemma next_linked (dstReg : BitVec 5) (u : MipsBase T δ) : NextKept u (linked dstReg u) := by
  rw [linked]
  split <;> exact .of_same rfl rfl

omit [MipsTlbBase T] in
lemma next_branchR {likely : Bool} {cond : BitVec 64 → BitVec 64 → Bool}
    (hcond : likely = false ∨
      cond (regValue m u (rsField opcode)) (regValue m u (rtField opcode)) = true)
    (h : branchR m opcode likely cond u = .ok ((), t)) : NextKept u t := by
  change branchIf opcode likely _ u = _ at h
  rw [branchIf_run] at h
  rw [← Prog.state_eq h]
  exact next_branchEnd hcond

omit [MipsTlbBase T] in
lemma next_branchZ {link likely : Bool} {cond : BitVec 64 → Bool}
    (hcond : likely = false ∨ cond (regValue m u (rsField opcode)) = true)
    (h : branchZ m opcode link likely cond u = .ok ((), t)) : NextKept u t := by
  cases link with
  | false =>
      change branchIf opcode likely _ u = _ at h
      rw [branchIf_run] at h
      rw [← Prog.state_eq h]
      exact next_branchEnd hcond
  | true =>
      change branchIf opcode likely _ (linked 31 u) = _ at h
      rw [branchIf_run] at h
      rw [← Prog.state_eq h]
      exact (next_linked 31 u).trans (next_branchEnd hcond)

lemma next_branchCop {likely onFlag : Bool}
    (hcond : likely = false ∨ copEnabled m (copId opcode) u = false ∨
      (flagOf m (copId opcode) u == onFlag) = true)
    (h : branchCop m opcode likely onFlag u = .ok ((), t)) : NextKept u t := by
  rw [branchCop, whenCopEnabled, Prog.bind_of_ok (isCopEnabled_value _ _)] at h
  cases henabled : copEnabled m (copId opcode) u with
  | true =>
      rw [henabled, if_pos rfl, Prog.bind_of_ok (copGetFlag_run _ _), branchIf_run] at h
      rw [← Prog.state_eq h]
      exact next_branchEnd (hcond.imp_right fun hc => hc.resolve_left (by simp [henabled]))
  | false =>
      rw [henabled, if_neg (by simp)] at h
      exact .of_flow (flow_raise (.copUnusable (copId opcode)) u () t h)

lemma flow_detectIdleLoop : Prog.Moves FlowKept (detectIdleLoop (T := T) m) := by
  refine .bind (fun _ _ _ => .trans) (.of_read .refl _) fun pc =>
    .bind (fun _ _ _ => .trans) (flow_fetch _) fun delayOp => ?_
  split
  · exact flow_modify fun _ => ⟨rfl, rfl⟩
  · exact .of_pure .refl ()

lemma next_instBeq (h : instBeq m opcode u = .ok ((), t)) : NextKept u t := by
  rw [instBeq] at h
  split at h
  · obtain ⟨⟨⟩, v, hidle, hbranch⟩ := Prog.bind_ok.mp h
    exact (NextKept.of_flow (flow_detectIdleLoop u () v hidle)).trans
      (next_branchR (Or.inl rfl) hbranch)
  · exact next_branchR (Or.inl rfl) h

lemma next_instJ (h : instJ m opcode u = .ok ((), t)) : NextKept u t := by
  have hjump : jump32 (jumpTarget opcode u.pc) u =
      .ok ((), branched ((jumpTarget opcode u.pc).setWidth 64) u) := rfl
  have hpending : NextKept u (branched ((jumpTarget opcode u.pc).setWidth 64) u) :=
    .of_same rfl rfl
  rw [instJ, Prog.bind_of_ok (read_run _ _), Prog.bind_of_ok hjump] at h
  split at h
  · exact hpending.trans (NextKept.of_flow (flow_detectIdleLoop _ () t h))
  · rw [← Prog.state_eq h]
    exact hpending

omit [MipsTlbBase T] in
lemma next_instJal (h : instJal opcode u = .ok ((), t)) : NextKept u t := by
  rw [instJal_run] at h
  rw [← Prog.state_eq h]
  exact (next_linked 31 u).trans (.of_same rfl rfl)

omit [MipsTlbBase T] in
lemma next_instJr (h : instJr m opcode u = .ok ((), t)) : NextKept u t := by
  change (if regValue m u (rsField opcode) &&& 3 ≠ 0 then throw (.panic .unalignedJump)
    else jump64 _ : CpuM T δ Unit) u = _ at h
  split at h
  · exact absurd h (by simp)
  · rw [← Prog.state_eq h]
    exact .of_same rfl rfl

omit [MipsTlbBase T] in
lemma next_instJalr (h : instJalr m opcode u = .ok ((), t)) : NextKept u t := by
  change (if regValue m u (rsField opcode) &&& 3 ≠ 0 then throw (.panic .unalignedJump)
    else do
      linkForJump (rdField opcode)
      jump64 _ : CpuM T δ Unit) u = _ at h
  split at h
  · exact absurd h (by simp)
  · rw [Prog.bind_of_ok (linkForJump_run _ _)] at h
    rw [← Prog.state_eq h]
    exact (next_linked (rdField opcode) u).trans (.of_same rfl rfl)

/-- An instruction that raises no exception, does not return from one and does not skip its delay
slot leaves the next program counter alone. -/
theorem callInst_nextPc (heret : isEret m func opcode = false)
    (hskip : nullifies m func opcode u = false) (h : callInst m opcode func u = .ok ((), t)) :
    NextKept u t := by
  cases func with
  | kBeq => exact next_instBeq h
  | kBne => exact next_branchR (Or.inl rfl) h
  | kBeql | kBnel => exact next_branchR (Or.inr (by simpa [nullifies] using hskip)) h
  | kBgtz | kBlez | kBgez | kBltz | kBgezal | kBltzal => exact next_branchZ (Or.inl rfl) h
  | kBgtzl | kBlezl | kBgezl | kBltzl | kBgezall | kBltzall =>
      exact next_branchZ (Or.inr (by simpa [nullifies] using hskip)) h
  | kBcf | kBct => exact next_branchCop (Or.inl rfl) h
  | kBcfl | kBctl =>
      refine next_branchCop (Or.inr ?_) h
      cases henabled : copEnabled m (copId opcode) u with
      | false => exact Or.inl rfl
      | true => exact Or.inr (by simpa [nullifies, henabled] using hskip)
  | kJ => exact next_instJ h
  | kJal => exact next_instJal h
  | kJr => exact next_instJr h
  | kJalr => exact next_instJalr h
  | _ => exact .of_flow (flow_plain rfl heret u () t h)

end Branches

/-! ## One instruction -/

/-- The instruction at `p` was executed, and the next one is at `q`. -/
structure Executed (p q : BitVec 64) (s s' : MipsBase T δ) : Prop where
  first : ∃ opcode before after, s'.trace = after ++ .preExecute p opcode :: (before ++ s.trace) ∧
    (∀ e ∈ before, e.isExecute = false) ∧ ∀ e ∈ after, e.isExecute = false
  second : s'.pc = q

/-- The instruction at the program counter goes on to the one after it: it raises no exception, it
does not return from one, and it does not skip its delay slot. -/
structure FallsThrough (m : MipsSetup δ) (s s' : MipsBase T δ) : Prop where
  quiet : ¬ Raises s s'
  stays : ∀ opcode s₀, fetch m s.pc s = .ok (opcode, s₀) →
    isEret m (getInstFuncPtr m.kIs64Bit opcode) opcode = false ∧
      nullifies m (getInstFuncPtr m.kIs64Bit opcode) opcode s₀ = false

/-- `RunInst` executes the instruction at the program counter, and goes on to the one after it
unless a branch is pending. -/
lemma runInst_executed {s s' : MipsBase T δ} (h : runInst m s = .ok ((), s'))
    (hfalls : FallsThrough m s s') :
    Executed s.pc (if s.hasBranchDelay then s.branchDelayDst else s.pc + 4) s s' := by
  obtain ⟨opcode, s₀, t, hfetch, hcall, rfl⟩ := runInst_ok.mp h
  obtain ⟨heret, hskip⟩ := hfalls.stays opcode s₀ hfetch
  obtain ⟨before, hbefore, hflow⟩ := flow_fetch s.pc s opcode s₀ hfetch
  obtain ⟨after, hafter, hnext⟩ := callInst_nextPc heret (u := started opcode s₀) hskip hcall
  have htold : (started opcode s₀).trace = .preExecute s₀.pc opcode :: s₀.trace := rfl
  have htrace : t.trace = (after ++ .preExecute s₀.pc opcode :: before) ++ s.trace := by
    rw [hafter, htold, hbefore]
    simp
  have hquiet : ∀ cause, Event.exception cause ∉ after ++ .preExecute s₀.pc opcode :: before :=
    fun cause hmem => hfalls.quiet ⟨_, htrace, cause, hmem⟩
  have hflow' : s₀.flow = s.flow := by
    refine hflow.resolve_left ?_
    rintro ⟨cause, hmem⟩
    exact hquiet cause (by simp [hmem])
  have hnext' : t.nextPc = (started opcode s₀).nextPc := by
    refine hnext.resolve_left ?_
    rintro ⟨cause, hmem⟩
    exact hquiet cause (by simp [hmem])
  simp only [flow, Prod.mk.injEq] at hflow'
  obtain ⟨hpc, -, hflag, hdst⟩ := hflow'
  refine ⟨⟨opcode, before, after, ?_, ?_, ?_⟩, ?_⟩
  · show t.trace = _
    rw [hafter, htold, hbefore, hpc]
  · obtain ⟨new, hnew, hother⟩ := (background_internals (internal_fetch s.pc) s opcode s₀ hfetch).trace
    rwa [List.append_cancel_right (hbefore.symm.trans hnew)]
  · obtain ⟨new, hnew, hother⟩ := (callInst_grown hcall).trace
    rwa [List.append_cancel_right (hafter.symm.trans hnew)]
  · have hend : (counted m 1 (stepped (BitVec.allOnes 64) t)).pc = t.nextPc := BitVec.and_allOnes
    rw [hend, hnext', ← hpc, ← hflag, ← hdst]
    rfl

/-- **Setting the program counter is a clean transfer of control** exactly when no branch is
pending, or the pending branch goes to the instruction after the new one.  The first instruction
has to go on to the one after it. -/
theorem setPc_clean_iff {p : BitVec 64} {s s' : MipsBase T δ}
    (h : (do setPc p; runInst m : CpuM T δ Unit) s = .ok ((), s'))
    (hfalls : FallsThrough m { s with pc := p, nextPc := p + 4 } s') :
    Executed p (p + 4) s s' ↔ s.hasBranchDelay = false ∨ s.branchDelayDst = p + 4 := by
  have hset : setPc p s = .ok ((), { s with pc := p, nextPc := p + 4 }) := rfl
  rw [Prog.bind_of_ok hset] at h
  obtain ⟨hfirst, hsecond⟩ := runInst_executed h hfalls
  constructor
  · intro hclean
    have hnext := hsecond.symm.trans hclean.second
    cases hbd : s.hasBranchDelay with
    | false => exact Or.inl rfl
    | true =>
        right
        simpa [hbd] using hnext
  · intro hcond
    refine ⟨hfirst, hsecond.trans ?_⟩
    cases hbd : s.hasBranchDelay with
    | false => rfl
    | true => exact hcond.resolve_left (by simp [hbd])

/-! ## Between a branch and its delay slot -/

omit [MipsTlbBase T] in
lemma not_raises_of_trace {s s' : MipsBase T δ} {new : List Event}
    (htrace : s'.trace = new ++ s.trace) (hnew : ∀ cause, Event.exception cause ∉ new) :
    ¬ Raises s s' := by
  rintro ⟨new', htrace', cause, hmem⟩
  rw [List.append_cancel_right (htrace'.symm.trans htrace)] at hmem
  exact hnew cause hmem

/-- `Run` returned after a jump to `0x80003000`, before its delay slot. -/
def sliceEnd : MipsBase MipsTlbNormal WordMemory :=
  lastState (performAll (n64Setup {}) [.setPc 0x80001000, .run 10 1])
    (built [(0x1000, 0x08000C00)])

lemma sliceEnd_reachable : Reachable (n64Setup {}) sliceEnd :=
  ⟨[(0x1000, 0x08000C00)], [.setPc 0x80001000, .run 10 1], [none, some 1],
    run_of_returned (by decide +kernel)⟩

/-- The processor after `SetPc(p)` and one instruction. -/
def sliceEndMoved (p : BitVec 64) : MipsBase MipsTlbNormal WordMemory :=
  lastState (do setPc p; runInst (n64Setup {})) sliceEnd

/-- A `NOP` goes on to the instruction after it. -/
lemma nop_fallsThrough {s s' : MipsBase MipsTlbNormal WordMemory}
    (hfetch : returnedValue (fetch (n64Setup {}) s.pc) s = some 0)
    (htrace : s'.trace = [.preExecute s.pc 0] ++ s.trace) : FallsThrough (n64Setup {}) s s' where
  quiet := not_raises_of_trace htrace (by simp)
  stays opcode s₀ h := by
    have hfunc : getInstFuncPtr (n64Setup {}).kIs64Bit 0 = .kNop := by decide
    obtain rfl : opcode = 0 := (Prog.ok_inj (h.symm.trans (run_of_returned hfetch))).1
    rw [hfunc]
    exact ⟨rfl, rfl⟩

/-- After the jump, `SetPc` is not a clean transfer of control: the instruction after the one at
`0x80002000` is at `0x80003000`. -/
theorem sliceEnd_not_clean :
    Reachable (n64Setup {}) sliceEnd ∧ (sliceEndMoved 0x80002000).pc = 0x80003000 ∧
      (do setPc 0x80002000; runInst (n64Setup {}) : CpuM MipsTlbNormal WordMemory Unit) sliceEnd =
        .ok ((), sliceEndMoved 0x80002000) ∧
      FallsThrough (n64Setup {}) { sliceEnd with pc := 0x80002000, nextPc := 0x80002000 + 4 }
        (sliceEndMoved 0x80002000) ∧
      ¬ Executed 0x80002000 (0x80002000 + 4) sliceEnd (sliceEndMoved 0x80002000) :=
  ⟨sliceEnd_reachable, by decide +kernel, run_of_returned (by decide +kernel),
    nop_fallsThrough (by decide +kernel) (by decide +kernel),
    fun h => absurd h.second (by decide +kernel)⟩

/-- To the instruction before the target of the jump, it is one. -/
theorem sliceEnd_before_target :
    Executed 0x80002FFC (0x80002FFC + 4) sliceEnd (sliceEndMoved 0x80002FFC) :=
  (setPc_clean_iff (run_of_returned (by decide +kernel))
    (nop_fallsThrough (by decide +kernel) (by decide +kernel))).mpr
    (Or.inr (by decide +kernel))

end MipsBase

end NgMips
