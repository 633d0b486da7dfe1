import NgMips.Proofs.Cop0Regs

/-!
# What handlers do to the coprocessors

A handler changes coprocessor 0, the translation unit and the floating-point unit through the ports
of the coprocessors only; the rest of it leaves them alone, but for what a translation fault leaves
behind (`Quiet`).  `CopStep` lists the ports with what is done there, and `act_cops` is the rule to
show that handlers respect a relation: it has to be respected at each port.
-/

namespace NgMips

namespace MipsBase

variable {T δ : Type} [MipsTlbBase T] {m : MipsSetup δ} {opcode : BitVec 32} {func : MipsInstId}

/-- At most the address of a translation fault is new. -/
structure Quiet (s t : MipsBase T δ) : Prop where
  cop0 : t.cop0 = { s.cop0 with badvaddr := t.cop0.badvaddr }
  tlb : t.tlb = s.tlb ∨ ∃ address, t.tlb = informTlbException s.tlb address
  fpu : t.fpu = s.fpu

lemma Quiet.of_same {s t : MipsBase T δ} (hcop0 : t.cop0 = s.cop0) (htlb : t.tlb = s.tlb)
    (hfpu : t.fpu = s.fpu) : Quiet s t := ⟨by rw [hcop0], .inl htlb, hfpu⟩

lemma Quiet.refl (s : MipsBase T δ) : Quiet s s := .of_same rfl rfl rfl

variable (m opcode func) in
/-- What an operation of an instruction does to the coprocessors. -/
inductive CopStep (s t : MipsBase T δ) : Prop
  | quiet (h : Quiet s t)
  /-- The ports of coprocessor 0. -/
  | command (hcop : copId opcode = 0#2) (hcommand : isCopCommand m opcode func = true)
      (hrun : cop0Command opcode s = .ok ((), t))
  | read {idx : ℕ} {value : BitVec 64} (hrun : cop0Read64 idx s = .ok (value, t))
  | write (hcop : copId opcode = 0#2) (hcommand : isCopCommand m opcode func = false) {idx : ℕ}
      (hidx : func.copWriteIdx opcode = some idx) {context value : BitVec 64}
      (hrun : cop0Write context idx value s = .ok ((), t))
  /-- The ports of the floating-point unit. -/
  | fpuCommand (hcop : copId opcode = 1#2) (hcommand : isCopCommand m opcode func = true)
      {fpu : MipsFpu} (hrun : s.fpu.command m.float (s.cop0.sr.getLsbD 26) opcode = .ok fpu)
      (hstate : t = { s with fpu := fpu })
  | fpuWrite32 (hcop : copId opcode = 1#2) (hcommand : isCopCommand m opcode func = false) {idx : ℕ}
      (hidx : func.copWriteIdx opcode = some idx) {value : BitVec 32}
      (hstate : t = { s with fpu := s.fpu.write32 (s.cop0.sr.getLsbD 26) idx value })
  | fpuWrite64 (hcop : copId opcode = 1#2) (hcommand : isCopCommand m opcode func = false) {idx : ℕ}
      (hidx : func.copWriteIdx opcode = some idx) {value : BitVec 64}
      (hstate : t = { s with fpu := s.fpu.write64 (s.cop0.sr.getLsbD 26) idx value })

/-! ## Quiet operations -/

section Quiet

lemma quiet_read {α : Type} (f : MipsBase T δ → α) : Prog.Moves Quiet (read f) := .of_read .refl f

lemma quiet_pure {α : Type} (a : α) : Prog.Moves Quiet (pure a : CpuM T δ α) := .of_pure .refl a

lemma quiet_modify {f : MipsBase T δ → MipsBase T δ}
    (h : ∀ s, (f s).cop0 = s.cop0 ∧ (f s).tlb = s.tlb ∧ (f s).fpu = s.fpu) :
    Prog.Moves Quiet (modify f : CpuM T δ PUnit) :=
  .of_modify fun s => .of_same (h s).1 (h s).2.1 (h s).2.2

lemma quiet_access {α : Type} (f : δ → Served δ α) :
    Prog.Moves Quiet (access f : CpuM T δ α) := by
  intro s a t h
  obtain ⟨device, halt, cache, rfl⟩ := access_ok h
  exact .of_same rfl rfl rfl

lemma quiet_writeGpr64 (idx : BitVec 5) (value : BitVec 64) :
    Prog.Moves Quiet (writeGpr64 idx value : CpuM T δ Unit) := by
  intro s a t h
  obtain ⟨gpr, rfl⟩ := writeGpr64_ok h
  exact .of_same rfl rfl rfl

lemma quiet_readStatus (hm : m.IsN64) :
    Prog.Moves Quiet (copRead32Internal m 12 : CpuM T δ (BitVec 32)) := by
  intro s a t h
  rw [copRead32Internal_status hm] at h
  rw [← Prog.state_eq h]
  exact .refl s

lemma quiet_fault (hm : m.IsN64) {cause : ExceptionCause} (hcause : cause.isTlb = true)
    (address : BitVec 64) :
    Prog.Moves Quiet (translationFault (T := T) m (triggerException m) cause address) := by
  intro s a t h
  rw [(translationFault_ok hm hcause h).2]
  exact ⟨rfl, .inr ⟨address, rfl⟩, rfl⟩

end Quiet

/-! ## The ports -/

section Rule

variable {R : MipsBase T δ → MipsBase T δ → Prop}
  (hR : ∀ s t, CopStep m opcode func s t → R s t) (htrans : ∀ s t u, R s t → R t u → R s u)

include hR

lemma cops_quiet {α : Type} {x : CpuM T δ α} (h : Prog.Moves Quiet x) : Prog.Moves R x :=
  h.mono fun s t hquiet => hR s t (.quiet hquiet)

/-- An operation at the port of the coprocessor an instruction names. -/
lemma cops_port (hm : m.IsN64) {α : Type} {x : CpuM T δ α} {onCop0 : CpuM T δ α}
    {onFpu : Bool → CpuM T δ α} {onDevice : δ → Served δ α} {onDummy : α}
    (hx : x = match m.slot (copId opcode) with
      | .cop0 => onCop0
      | .fpu => getFr m >>= onFpu
      | .device => access onDevice
      | .dummy => pure onDummy)
    (hcop0 : copId opcode = 0#2 → Prog.Moves R onCop0)
    (hfpu : copId opcode = 1#2 → ∀ s a t, onFpu (s.cop0.sr.getLsbD 26) s = .ok (a, t) → R s t) :
    Prog.Moves R x := by
  rw [hx]
  split
  · next hslot => exact hcop0 (slot_cop0 hslot)
  · next hslot =>
      intro s a t h
      have hfr : getFr m s = .ok (s.cop0.sr.getLsbD 26, s) := by
        rw [getFr, Prog.bind_of_ok (copRead32Internal_status hm s)]
        rfl
      rw [Prog.bind_of_ok hfr] at h
      exact hfpu (slot_fpu hslot).1 s a t h
  · exact cops_quiet hR (quiet_access _)
  · exact cops_quiet hR (quiet_pure _)

include htrans

lemma cops_load (hm : m.IsN64) {w : ℕ} (load : δ → BitVec 64 → Served δ (Option (BitVec w)))
    (address : BitVec 64) : Prog.Moves R (loadWith (T := T) m load address) := by
  refine .bind htrans (cops_quiet hR (quiet_read _)) fun result => ?_
  split
  · refine .bind htrans (cops_quiet hR (quiet_modify fun _ => ⟨rfl, rfl, rfl⟩)) fun _ =>
      .bind htrans (cops_quiet hR (quiet_access _)) fun value => ?_
    split
    · exact cops_quiet hR (quiet_pure value)
    · exact .of_throw _
  · exact .bind htrans (cops_quiet hR (quiet_fault hm rfl address)) fun _ =>
      cops_quiet hR (quiet_pure none)

lemma cops_store (hm : m.IsN64) {w : ℕ} (store : δ → BitVec 64 → BitVec w → Served δ Unit)
    (address : BitVec 64) (value : BitVec w) :
    Prog.Moves R (storeWith (T := T) m store address value) := by
  have hisolated : Prog.Moves R (isIsolated (T := T) m) := by
    rw [isIsolated]
    split
    · exact .bind htrans (cops_quiet hR (quiet_readStatus hm)) fun _ =>
        cops_quiet hR (quiet_pure _)
    · exact cops_quiet hR (quiet_pure _)
  refine .bind htrans hisolated fun isolated => ?_
  split
  · exact cops_quiet hR (quiet_pure ())
  · refine .bind htrans (cops_quiet hR (quiet_read _)) fun result => ?_
    split
    · split
      · exact cops_quiet hR (quiet_fault hm rfl address)
      · exact .bind htrans (cops_quiet hR (quiet_modify fun _ => ⟨rfl, rfl, rfl⟩)) fun _ =>
          cops_quiet hR (quiet_access _)
    · exact cops_quiet hR (quiet_fault hm rfl address)

lemma cops_detectIdleLoop (hm : m.IsN64) : Prog.Moves R (detectIdleLoop (T := T) m) := by
  refine .bind htrans (cops_quiet hR (quiet_read _)) fun pc =>
    .bind htrans (.bind htrans (cops_quiet hR (quiet_read _)) fun result => ?_) fun delayOp => ?_
  · split
    · refine cops_quiet hR fun s a t h => ?_
      rw [← Prog.state_eq h]
      exact .of_same rfl rfl rfl
    · exact .bind htrans (cops_quiet hR (quiet_fault hm rfl _)) fun _ =>
        cops_quiet hR (quiet_pure 0)
  · split
    · exact cops_quiet hR (quiet_modify fun _ => ⟨rfl, rfl, rfl⟩)
    · exact cops_quiet hR (quiet_pure ())

/-- No operation does anything else. -/
lemma cops_actOp (hm : m.IsN64) (α : Type) (x : CpuM T δ α) (hx : ActOp m opcode func α x) :
    Prog.Moves R x := by
  have hmodify : ∀ {f : MipsBase T δ → MipsBase T δ},
      (∀ s, (f s).cop0 = s.cop0 ∧ (f s).tlb = s.tlb ∧ (f s).fpu = s.fpu) →
        Prog.Moves R (modify f : CpuM T δ PUnit) := fun h => cops_quiet hR (quiet_modify h)
  have hread : ∀ {β : Type} (f : MipsBase T δ → β), Prog.Moves R (read f) :=
    fun f => cops_quiet hR (quiet_read f)
  have hlink : ∀ dstReg, Prog.Moves R (linkForJump dstReg : CpuM T δ Unit) := fun dstReg =>
    .bind htrans (hread _) fun _ => cops_quiet hR (quiet_writeGpr64 _ _)
  cases hx with
  | gpr32 idx => exact hread _
  | gpr64 idx => exact hread _
  | hi => exact hread _
  | lo => exact hread _
  | writeGpr idx value => exact cops_quiet hR (quiet_writeGpr64 idx value)
  | writeHi value => exact hmodify fun _ => ⟨rfl, rfl, rfl⟩
  | writeLo value => exact hmodify fun _ => ⟨rfl, rfl, rfl⟩
  | load load address => exact cops_load hR htrans hm load address
  | store store address value => exact cops_store hR htrans hm store address value
  | command hcommand =>
      refine cops_port hR hm (copCommand.eq_def m _ _)
        (fun hcop s _ t h => hR s t (.command hcop hcommand h)) fun hcop s _ t h => ?_
      rw [setFpu] at h
      cases hrun : s.fpu.command m.float (s.cop0.sr.getLsbD 26) opcode with
      | error e =>
          rw [hrun] at h
          exact absurd h (by simp [Except.map])
      | ok fpu =>
          rw [hrun] at h
          exact hR s t (.fpuCommand hcop hcommand hrun (Prog.state_eq h).symm)
  | copRead32 idx _ =>
      refine cops_port hR hm (copRead32.eq_def m _ _) (fun _ => ?_) fun _ => hread _
      exact .bind htrans (fun s _ t h => hR s t (.read h)) fun _ => cops_quiet hR (quiet_pure _)
  | copRead64 idx _ _ =>
      exact cops_port hR hm (copRead64.eq_def m _ _) (fun _ s _ t h => hR s t (.read h))
        fun _ => hread _
  | copWrite32 idx value hidx hcommand =>
      exact cops_port hR hm (copWrite32.eq_def m _ _ _)
        (fun hcop s _ t h => hR s t (.write hcop hcommand hidx h))
        fun hcop s _ t h => hR s t (.fpuWrite32 hcop hcommand hidx (Prog.state_eq h).symm)
  | copWrite64 idx value hidx hcommand =>
      exact cops_port hR hm (copWrite64.eq_def m _ _ _)
        (fun hcop s _ t h => hR s t (.write hcop hcommand hidx h))
        fun hcop s _ t h => hR s t (.fpuWrite64 hcop hcommand hidx (Prog.state_eq h).symm)
  | getFlag =>
      rw [copGetFlag]
      split
      · exact hread _
      · exact hread _
      · exact cops_quiet hR (quiet_pure _)
  | jumpRel _ offset => exact hmodify fun _ => ⟨rfl, rfl, rfl⟩
  | jump64 _ dst => exact hmodify fun _ => ⟨rfl, rfl, rfl⟩
  | link _ dstReg => exact hlink dstReg
  | nullify _ => exact hmodify fun _ => ⟨rfl, rfl, rfl⟩
  | j _ =>
      refine .bind htrans (hread _) fun pc =>
        .bind htrans (hmodify fun _ => ⟨rfl, rfl, rfl⟩) fun _ => ?_
      split
      · exact cops_detectIdleLoop hR htrans hm
      · exact cops_quiet hR (quiet_pure ())
  | jal _ =>
      exact .bind htrans (hread _) fun pc => .bind htrans (hlink _) fun _ =>
        hmodify fun _ => ⟨rfl, rfl, rfl⟩
  | idle _ => exact cops_detectIdleLoop hR htrans hm
  | cache _ =>
      refine .bind htrans (hread _) fun base => ?_
      split
      · exact cops_quiet hR (quiet_pure ())
      · split
        · exact hmodify fun _ => ⟨rfl, rfl, rfl⟩
        · exact cops_quiet hR (quiet_pure ())
  | panic reason => exact .of_throw _

/-- **A relation that is respected at the ports is respected by every handler that acts.** -/
theorem act_cops (hm : m.IsN64) {x : CpuM T δ Unit} (hx : Acts m opcode func x)
    {s t : MipsBase T δ} (h : x s = .ok ((), t)) : R s t :=
  hx.moves (fun s => hR s s (.quiet (.refl s))) htrans (cops_actOp hR htrans hm) s () t h

end Rule

end MipsBase

end NgMips
