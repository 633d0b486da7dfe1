import NgMips.Lib.Latch
import NgMips.Proofs.Kept
import NgMips.Proofs.Nested
import NgMips.Source.Machine

/-!
# Interrupts do not nest by themselves

An exception sets `EXL`, and while the bit is set no interrupt is taken.  Nothing a run does clears
it but the instructions that write `SR`, `ERET` and `RFE`.  So between an exception and the next
interrupt one of these was executed, however the run is cut into calls and whatever is called in
between, except for `Reset` (`interrupt_after_return`).
-/

namespace NgMips

namespace MipsBase

variable {T δ : Type} [MipsTlbBase T] {m : MipsSetup δ}

variable (m) in
/-- The instructions that may clear `EXL`: those that write `SR`, `RFE` and `ERET`. -/
def mayLowerExl (opcode : BitVec 32) : Bool :=
  writesReg m 12 opcode || isCop0Command m opcode 0x10 || isCop0Command m opcode 0x18

/-! ## The mode bit -/

/-- An operation of any other instruction leaves `SR` alone. -/
lemma sameMode_step (hm : m.IsN64) {opcode : BitVec 32} (hkeeps : mayLowerExl m opcode = false)
    (s s' : MipsBase T δ) (h : RegStep m opcode (getInstFuncPtr true opcode) s s') :
    s'.cop0.sr = s.cop0.sr := by
  simp only [mayLowerExl, Bool.or_eq_false_iff] at hkeeps
  obtain ⟨⟨hsr, hrfe⟩, heret⟩ := hkeeps
  cases h with
  | keeps hkept => rw [hkept.cop0]
  | reads _ hcop0 _ _ =>
      rw [hcop0, MipsCop0.getCount]
      split <;> rfl
  | @writes hcop hcommand idx hidx context value hwrite =>
      have hne : idx ≠ 12 := fun h =>
        copWriteIdx_ne hsr hcop hcommand (hidx.trans (by rw [h]; rfl))
      rw [cop0Write.eq_def] at hwrite
      split at hwrite
      case h_8 =>
        rw [← Prog.state_eq hwrite]
        change (s.cop0.writeCount s.timestamp (value.setWidth 32)).sr = s.cop0.sr
        rw [MipsCop0.writeCount]
        split <;> rfl
      case h_10 =>
        rw [← Prog.state_eq hwrite]
        rfl
      case h_11 => exact absurd rfl hne
      all_goals rw [← Prog.state_eq hwrite]
  | returns hcop hcommand hfunct _ _ _ =>
      have hcommands : ∀ funct, functField opcode = funct →
          isCop0Command m opcode funct = true := by
        intro funct hf
        simp [isCop0Command, hcop, hf, hm.is64Bit, hcommand]
      rcases hfunct with hf | hf
      · exact absurd (hrfe.symm.trans (hcommands _ hf)) (by simp)
      · exact absurd (heret.symm.trans (hcommands _ hf)) (by simp)

/-- An exception is reported, and sets the bit. -/
lemma exception_latches (hm : m.IsN64) (hexc : m.config.hasException = true)
    {cause : ExceptionCause} {s s' : MipsBase T δ} (h : triggerException m cause s = .ok ((), s')) :
    s'.trace = .exception cause :: s.trace ∧ s'.cop0.exl = true := by
  have hexl : s'.cop0.exl = true := by
    cases hbit : s.cop0.exl with
    | true =>
        have hsr := (exception_nested hm hexc hbit h).2.1
        rw [MipsCop0.exl, hsr]
        exact hbit
    | false =>
        have hsr := (exception_cop0 hm hexc h).2.1
        rw [hbit, if_neg (by simp)] at hsr
        exact exl_of_or_two hsr
  refine ⟨?_, hexl⟩
  cases triggerException_outcome hm h with
  | off hoff => exact absurd (hoff.symm.trans hexc) (by simp)
  | plain _ _ _ => rfl
  | delayed _ _ _ _ _ => rfl

end MipsBase

/-! ## Histories -/

/-- An exception was reported. -/
def Event.IsException (e : Event) : Prop := ∃ cause, e = .exception cause

section Histories

variable {δ : Type} (m : MipsSetup δ)

/-- An instruction was executed that may clear `EXL`. -/
def Event.Lowers (e : Event) : Prop :=
  ∃ pc opcode, e = .preExecute pc opcode ∧ MipsBase.mayLowerExl m opcode = true

/-- The bit is set when an exception was taken and nothing may have cleared it since; interrupts
were only taken when this was not so. -/
structure Gaps (new : List Event) (exl : Bool) : Prop where
  closed : Latched Event.IsException (Event.Lowers m) new → exl = true
  opened : ∀ post pre, new = post ++ .exception .kInt :: pre →
    ¬ Latched Event.IsException (Event.Lowers m) pre

variable {m} {new : List Event} {exl : Bool}

namespace Gaps

lemma nil : Gaps m [] exl := ⟨fun h => absurd h (by simp [Latched]), fun post pre h => by simp at h⟩

/-- Another event, which is an interrupt only while the bit is clear. -/
lemma cons (h : Gaps m new exl) {e : Event} {exl' : Bool}
    (hclosed : Latched Event.IsException (Event.Lowers m) (e :: new) → exl' = true)
    (hopened : e = .exception .kInt → exl = false) : Gaps m (e :: new) exl' := by
  refine ⟨hclosed, fun post pre hsplit => ?_⟩
  cases post with
  | nil =>
      obtain ⟨rfl, rfl⟩ := List.cons.inj hsplit
      exact fun hlatched => absurd (h.closed hlatched) (by simp [hopened rfl])
  | cons e' post =>
      obtain ⟨-, hnew⟩ := List.cons.inj hsplit
      exact h.opened post pre hnew

/-- An exception. -/
lemma exception (h : Gaps m new exl) {cause : ExceptionCause}
    (hopened : cause = .kInt → exl = false) : Gaps m (.exception cause :: new) true :=
  h.cons (fun _ => rfl) fun he => hopened (Event.exception.inj he)

/-- An instruction, and its accesses. -/
lemma executed (h : Gaps m new exl) {pc : BitVec 64} {opcode : BitVec 32} {exl' : Bool}
    {accesses : List Event} (haccesses : ∀ e ∈ accesses, e.isAccess = true)
    (hkeeps : MipsBase.mayLowerExl m opcode = false → exl = true → exl' = true) :
    Gaps m (accesses ++ .preExecute pc opcode :: new) exl' := by
  induction accesses with
  | nil =>
      refine h.cons (fun hlatched => ?_) fun he => absurd he (by simp)
      have hrest := hlatched.resolve_left (by simp [Event.IsException])
      refine hkeeps ?_ (h.closed hrest.2)
      by_contra hlower
      exact hrest.1 ⟨pc, opcode, rfl, by simpa using hlower⟩
  | cons e accesses ih =>
      have he := haccesses e List.mem_cons_self
      have hbefore := ih fun e' he' => haccesses e' (List.mem_cons_of_mem _ he')
      have hno : ∀ cause, e ≠ .exception cause := by
        rintro cause rfl
        exact absurd he (by simp [Event.isAccess])
      have hnone : ¬ e.IsException := by
        rintro ⟨cause, hcause⟩
        exact hno cause hcause
      refine ⟨fun hlatched => ?_, ?_⟩
      · exact hbefore.closed (hlatched.resolve_left hnone).2
      · intro post pre hsplit
        cases post with
        | nil => exact absurd (List.cons.inj hsplit).1 (hno _)
        | cons e' post => exact hbefore.opened post pre (List.cons.inj hsplit).2

end Gaps

end Histories

namespace MipsBase

variable {T δ : Type} [MipsTlbBase T] {m : MipsSetup δ}

variable (m) in
/-- The history since some older reports. -/
def GapsSince (old : List Event) (s : MipsBase T δ) : Prop :=
  ∃ new, s.trace = new ++ old ∧ Gaps m new s.cop0.exl

section Since

variable {old : List Event} {s t : MipsBase T δ}

omit [MipsTlbBase T] in
lemma GapsSince.of_same (h : GapsSince m old s) (htrace : t.trace = s.trace)
    (hsr : t.cop0.sr = s.cop0.sr) : GapsSince m old t := by
  obtain ⟨new, hnew, hgaps⟩ := h
  have hexl : t.cop0.exl = s.cop0.exl := by rw [MipsCop0.exl, hsr]; rfl
  exact ⟨new, htrace.trans hnew, hexl ▸ hgaps⟩

lemma GapsSince.exception (h : GapsSince m old s) (hm : m.IsN64)
    (hexc : m.config.hasException = true) {cause : ExceptionCause}
    (hopened : cause = .kInt → s.cop0.exl = false)
    (htrigger : triggerException m cause s = .ok ((), t)) : GapsSince m old t := by
  obtain ⟨new, hnew, hgaps⟩ := h
  obtain ⟨htrace, hexl⟩ := exception_latches hm hexc htrigger
  refine ⟨.exception cause :: new, by rw [htrace, hnew]; rfl, ?_⟩
  rw [hexl]
  exact hgaps.exception hopened

lemma GapsSince.checkInterrupt (h : GapsSince m old s) (hm : m.IsN64)
    (hcheck : checkInterrupt m s = .ok ((), t)) : GapsSince m old t := by
  cases checkInterrupt_cases hm hcheck with
  | idle _ hstate => exact hstate ▸ h
  | taken hexc hready htrigger =>
      exact h.exception hm hexc (fun _ => hready.open.1) htrigger

lemma GapsSince.checkCompare (h : GapsSince m old s) (hm : m.IsN64)
    (hcheck : checkCompare m s = .ok ((), t)) : GapsSince m old t := by
  have hchecked : GapsSince m old (checked m s) :=
    h.of_same rfl (MipsCop0.checkCompareInterrupt_sr _ _)
  have hline : GapsSince m old { checked m s with compareInterrupt := true } :=
    hchecked.of_same rfl rfl
  cases checkCompare_cases hm hcheck with
  | isolated _ hstate => exact hstate ▸ h
  | before _ _ hstate => exact hstate ▸ hchecked
  | idle _ _ _ hstate => exact hstate ▸ hline
  | taken _ _ hexc hready htrigger =>
      have hopen : (checked m s).cop0.exl = false := by
        rw [MipsCop0.exl, show (checked m s).cop0.sr = s.cop0.sr from
          MipsCop0.checkCompareInterrupt_sr _ _]
        exact hready.open.1
      exact hline.exception hm hexc (fun _ => hopen) htrigger

/-- A handler, with the report of its instruction. -/
lemma GapsSince.callInst (h : GapsSince m old s) (hm : m.IsN64)
    (hexc : m.config.hasException = true) {opcode : BitVec 32}
    (hcall : callInst m opcode (getInstFuncPtr m.kIs64Bit opcode) (started opcode s) = .ok ((), t)) :
    GapsSince m old t := by
  obtain ⟨new, hnew, hgaps⟩ := h
  rcases callInst_cases hm hcall with ⟨cause, t₀, hsync, hreport, htrigger⟩ | ⟨x, hx, hact⟩
  · have hstart : GapsSince m old t₀ := by
      have hno : ∀ e ∈ ([] : List Event), e.isAccess = true := by simp
      have hexecuted : Gaps m (.preExecute s.pc opcode :: new) s.cop0.exl :=
        hgaps.executed hno fun _ hexl => hexl
      have htold : t₀.trace = .preExecute s.pc opcode :: new ++ old := by
        cases hreport <;> exact congrArg (Event.preExecute s.pc opcode :: ·) hnew
      exact ⟨_, htold, by cases hreport <;> exact hexecuted⟩
    refine hstart.exception hm hexc (fun hint => ?_) htrigger
    exact absurd hsync (by rw [hint]; decide)
  · obtain ⟨accesses, htrace, haccesses⟩ := (act_effect hm hx hact).trace
    refine ⟨accesses ++ .preExecute s.pc opcode :: new, ?_, ?_⟩
    · rw [htrace, List.append_assoc]
      exact congrArg (fun l => accesses ++ Event.preExecute s.pc opcode :: l) hnew
    · refine hgaps.executed haccesses fun hkeeps hexl => ?_
      rw [hm.is64Bit] at hx
      have hsr : t.cop0.sr = (started opcode s).cop0.sr :=
        act_regs (R := fun s s' => s'.cop0.sr = s.cop0.sr) (sameMode_step hm hkeeps) hm
          (fun _ => rfl) (fun _ _ _ h h' => h'.trans h) hx hact
      rw [MipsCop0.exl, hsr]
      exact hexl

end Since

/-! ## Runs -/

/-- Every part of a run keeps the history. -/
lemma keptBy_gapsSince (hm : m.IsN64) (hexc : m.config.hasException = true) (old : List Event) :
    KeptBy (T := T) m (fun _ _ => True) (GapsSince m old) where
  fetch hfetch h := by
    obtain ⟨-, -, rfl⟩ := fetch_ok hm hexc hfetch
    exact h.of_same rfl rfl
  poll hpoll h := by
    cases poll_cases hm hpoll with
    | counts _ hstate => exact hstate ▸ h.of_same rfl rfl
    | looks _ t hcheck hcompare =>
        have hpolling : GapsSince m old (polling _) := h.of_same rfl rfl
        exact (hpolling.checkInterrupt hm hcheck).checkCompare hm hcompare
  begin {s t} hbegin h := by
    rw [beginRun] at hbegin
    split at hbegin
    · rw [← Prog.state_eq hbegin]
      exact h.of_same rfl rfl
    · obtain ⟨⟨⟩, u, hcheck, hcompare⟩ := Prog.bind_ok.mp hbegin
      have hstart : GapsSince m old { s with cycleSpent := 0 } := h.of_same rfl rfl
      exact (hstart.checkInterrupt hm hcheck).checkCompare hm hcompare
  handler _ hcall h := h.callInst hm hexc hcall
  cache _ h := h.of_same rfl rfl
  stepped _ h := h.of_same rfl rfl
  counted _ h := h.of_same rfl rfl
  passed _ h := h.of_same rfl rfl

/-- A call that is not `Reset` keeps predecoded blocks predecoded, and the history. -/
lemma gapsSince_perform (hm : m.IsN64) (hexc : m.config.hasException = true) {old : List Event}
    {call : MipsCall δ} (hcall : call ≠ .reset) {spent : Option ℤ} {s t : MipsBase T δ}
    (hd : DecodedBlocks m s.cache) (h : GapsSince m old s)
    (hrun : perform m call s = .ok (spent, t)) :
    DecodedBlocks m t.cache ∧ GapsSince m old t := by
  cases call with
  | reset => exact absurd rfl hcall
  | run fuel cycle =>
      obtain ⟨r, u, hrun', hpure⟩ := Prog.bind_ok.mp hrun
      obtain ⟨-, rfl⟩ := Prog.ok_inj hpure
      obtain ⟨hd', new, htrace, hkept⟩ := (keptBy_gapsSince hm hexc old).run hrun' hd
      exact ⟨hd', hkept (fun _ _ => trivial) h⟩
  | setGpr idx value =>
      obtain ⟨-, gpr, -, rfl⟩ := perform_setGpr hrun
      exact ⟨hd, h.of_same rfl rfl⟩
  | _ =>
      rw [← Prog.state_eq hrun]
      exact ⟨hd, h.of_same rfl rfl⟩

/-- **Interrupts do not nest by themselves.**  Whatever is called from outside, except for `Reset`:
between an exception and the next interrupt an instruction is executed that writes `SR`, or that is
`ERET` or `RFE`. -/
theorem interrupt_after_return (hm : m.IsN64) (hexc : m.config.hasException = true)
    {calls : List (MipsCall δ)} (hcalls : ∀ call ∈ calls, call ≠ .reset) {spent : List (Option ℤ)}
    {s u : MipsBase T δ} (hd : DecodedBlocks m s.cache)
    (hrun : performAll m calls s = .ok (spent, u)) {before between after : List Event}
    {cause : ExceptionCause}
    (htrace : u.trace =
      after ++ .exception .kInt :: (between ++ .exception cause :: before) ++ s.trace) :
    ∃ pc opcode, Event.preExecute pc opcode ∈ between ∧ mayLowerExl m opcode = true := by
  have hstart : GapsSince m s.trace s := ⟨[], rfl, .nil⟩
  have hkept : DecodedBlocks m u.cache ∧ GapsSince m s.trace u :=
    performAll_keeps (fun call hmem _ _ _ hs hcall =>
      gapsSince_perform hm hexc (hcalls call hmem) hs.1 hs.2 hcall) ⟨hd, hstart⟩ hrun
  obtain ⟨new, hnew, hgaps⟩ := hkept.2
  obtain rfl := List.append_cancel_right (hnew.symm.trans htrace)
  have hopen := hgaps.opened after (between ++ .exception cause :: before) rfl
  obtain ⟨e, he, pc, opcode, rfl, hlower⟩ := exists_clear ⟨cause, rfl⟩ hopen
  exact ⟨pc, opcode, he, hlower⟩

/-- A bus whose interrupt line is up. -/
def interruptingSetup : MipsSetup WordMemory :=
  { exceptionSetup with bus := { wordBus with getInterrupt := fun _ => true } }

/-- The line is enabled, and the handler is `ERET`. -/
def returningState : MipsBase MipsTlbNormal WordMemory :=
  { programState 0xFFFFFFFF80000000 0x180 [0x42000018] with cop0.sr := 0x34000401 }

/-- Two calls of `Run`, each of which takes the interrupt and executes one instruction. -/
def twiceInterrupted : MipsBase MipsTlbNormal WordMemory :=
  lastState (performAll interruptingSetup [.run 4 1, .run 4 1]) returningState

/-- `interrupt_after_return` on these calls: the handler returned in between. -/
theorem twiceInterrupted_returned : ∃ pc opcode,
    Event.preExecute pc opcode ∈ [Event.preExecute 0x80000180 0x42000018] ∧
      mayLowerExl interruptingSetup opcode = true := by
  have hd : DecodedBlocks interruptingSetup returningState.cache := by
    intro e he
    exact absurd he (by simp [returningState, programState])
  have hrun : performAll interruptingSetup [.run 4 1, .run 4 1] returningState =
      .ok ([some 1, some 2], twiceInterrupted) := run_of_returned (by decide +kernel)
  have htrace : twiceInterrupted.trace = [.preExecute 0x80000180 0x42000018] ++
      .exception .kInt :: ([.preExecute 0x80000180 0x42000018] ++ .exception .kInt :: []) ++
        returningState.trace := by decide +kernel
  have hm : interruptingSetup.IsN64 := ⟨rfl, rfl, rfl⟩
  have hcalls : ∀ call ∈ [MipsCall.run (δ := WordMemory) 4 1, .run 4 1], call ≠ .reset := by simp
  exact interrupt_after_return hm rfl hcalls hd hrun htrace

end MipsBase

end NgMips
