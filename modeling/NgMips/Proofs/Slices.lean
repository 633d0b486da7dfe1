import NgMips.Proofs.Hide
import NgMips.Proofs.Lockstep
import NgMips.Proofs.Timekeeping

/-!
# Runs cut into slices

A program that uses the processor calls `Run` again and again, each time for some cycles.  With the
cached interpreter, and on a processor without coprocessor 0, the calls can be made one: the cycles
spent in earlier calls are the only thing `Run` forgets at its start, and nothing but the test of
its loop looks at them (`later`).  The one call is asked for a number of cycles that must be one the
source can be asked for (`run_of_sliced`).  The plain interpreter of the main processor looks for
interrupts at the start of each call, so there the cuts can be seen.
-/

namespace NgMips

namespace MipsBase

variable {T δ : Type} {m : MipsSetup δ} {k : ℕ}

/-- The state when some cycles were spent before. -/
def later (k : ℕ) (s : MipsBase T δ) : MipsBase T δ := { s with cycleSpent := s.cycleSpent + k }

/-- The program does not look at the cycles spent. -/
abbrev Timeless {α : Type} (k : ℕ) (x : CpuM T δ α) : Prop := Prog.Commutes (later k) x

/-! ## Internal registers and exceptions -/

section Exceptions

lemma timeless_copRead32Internal (idx : ℕ) :
    Timeless (T := T) k (copRead32Internal m idx) := by
  rw [copRead32Internal]
  split
  · exact fun _ => rfl
  · exact fun _ => rfl
  · exact .of_pure _

/-- A write to coprocessor 0 that may fail. -/
lemma timeless_cop0 (f : MipsCop0 → Except Stop MipsCop0) :
    Timeless (T := T) (δ := δ) k fun s =>
      (f s.cop0).map fun cop0 => ((), { s with cop0 := cop0 }) := by
  intro s
  dsimp only [later]
  cases f s.cop0 <;> rfl

lemma timeless_copWrite64Internal (idx : ℕ) (value : BitVec 64) :
    Timeless (T := T) k (copWrite64Internal m idx value) := by
  rw [copWrite64Internal]
  split
  · exact timeless_cop0 fun cop0 => cop0.write64Internal idx value
  · exact fun _ => rfl
  · exact .of_pure _

lemma timeless_copWrite32Internal (idx : ℕ) (value : BitVec 32) :
    Timeless (T := T) k (copWrite32Internal m idx value) := by
  rw [copWrite32Internal]
  split
  · exact timeless_cop0 fun cop0 => cop0.write32Internal idx value
  · exact fun _ => rfl
  · exact .of_pure _

lemma timeless_isCopEnabled (copId : BitVec 2) : Timeless (T := T) k (isCopEnabled m copId) := by
  rw [isCopEnabled]
  split
  · exact .bind (timeless_copRead32Internal 12) fun _ => .of_pure _
  · exact .of_pure _

lemma timeless_takeException (cause : ExceptionCause) (epc : BitVec 64) (bd : Bool) :
    Timeless (T := T) k (takeException m cause epc bd) := by
  refine .bind (timeless_copRead32Internal 13) fun _ => .bind (fun _ => rfl) fun _ =>
    .bind (timeless_copWrite32Internal 13 _) fun _ =>
    .bind (timeless_copRead32Internal 12) fun sr => ?_
  have hvector : Timeless (T := T) (δ := δ) k
      (if cause.isTlb then throw (.panic .tlbException) else setPcDuringInst vecAddressGeneral) := by
    split
    · exact .of_throw _
    · exact fun _ => rfl
  dsimp only
  split
  · split
    · exact .bind (timeless_copWrite32Internal 12 sr) fun _ => hvector
    · exact .bind (timeless_copWrite64Internal 14 epc) fun _ =>
        .bind (timeless_copWrite32Internal 12 _) fun _ => hvector
  · exact .bind (timeless_copWrite32Internal 12 _) fun _ => hvector

lemma timeless_triggerNoDelay (cause : ExceptionCause) :
    Timeless (T := T) k (triggerNoDelay m cause) := by
  rw [triggerNoDelay]
  split
  · exact .bind (fun _ => rfl) fun _ => .bind (fun _ => rfl) fun _ => timeless_takeException _ _ _
  · exact .of_pure ()

variable [MipsTlbBase T]

lemma timeless_translationFault {trigger : ExceptionCause → CpuM T δ Unit}
    (htrigger : ∀ cause, Timeless k (trigger cause)) (cause : ExceptionCause)
    (address : BitVec 64) : Timeless k (translationFault m trigger cause address) :=
  .bind (timeless_copWrite64Internal 8 address) fun _ => .bind (fun _ => rfl) fun _ =>
    htrigger cause

lemma timeless_fetchWith {trigger : ExceptionCause → CpuM T δ Unit}
    (htrigger : ∀ cause, Timeless k (trigger cause)) (address : BitVec 64) :
    Timeless k (fetchWith m trigger address) := by
  refine .bind (fun _ => rfl) fun result => ?_
  split
  · exact fun _ => rfl
  · exact .bind (timeless_translationFault htrigger _ _) fun _ => .of_pure 0

lemma timeless_triggerException (cause : ExceptionCause) :
    Timeless (T := T) k (triggerException m cause) := by
  rw [triggerException]
  split
  · refine .bind (fun _ => rfl) fun _ => .bind (fun _ => rfl) fun pc =>
      .bind (fun _ => rfl) fun hasBranchDelay => ?_
    split
    · refine .bind (fun _ => rfl) fun _ =>
        .bind (timeless_fetchWith timeless_triggerNoDelay _) fun opcode => ?_
      split
      · exact timeless_takeException _ _ _
      · exact .of_throw _
    · exact timeless_takeException _ _ _
  · exact .of_pure ()

lemma timeless_fetch (address : BitVec 64) : Timeless (T := T) k (fetch m address) :=
  timeless_fetchWith timeless_triggerException address

lemma timeless_addressError (cause : ExceptionCause) (address : BitVec 64) :
    Timeless (T := T) k (addressError m cause address) :=
  .bind (timeless_copWrite64Internal 8 address) fun _ => timeless_triggerException cause

lemma timeless_copUnusable (copId : BitVec 2) : Timeless (T := T) k (copUnusable m copId) :=
  .bind (fun _ => rfl) fun _ => timeless_triggerException .kCop

end Exceptions

/-! ## Memory and coprocessors -/

section Accesses

/-- The calls a device makes are answered alike. -/
lemma timeless_access {α : Type} (f : δ → Served δ α) : Timeless (T := T) k (access f) := by
  have hserve : ∀ (calls : List CpuCall) (s : MipsBase T δ),
      calls.foldl serve (later k s) = later k (calls.foldl serve s) := by
    intro calls
    induction calls with
    | nil => exact fun _ => rfl
    | cons call calls ih =>
        intro s
        rw [List.foldl_cons, List.foldl_cons, ← ih]
        cases call <;> rfl
  intro s
  have hcalls := hserve (f s.device).calls { s with device := (f s.device).device }
  exact congrArg (fun t => Except.ok ((f s.device).value, t)) hcalls

lemma timeless_writeGpr64 (idx : BitVec 5) (value : BitVec 64) :
    Timeless (T := T) (δ := δ) k (writeGpr64 idx value) := by
  rw [writeGpr64]
  split
  · exact .of_pure ()
  · exact fun _ => rfl

lemma timeless_setFpu (f : MipsFpu → Except Stop MipsFpu) :
    Timeless (T := T) (δ := δ) k (setFpu f) := by
  intro s
  dsimp only [setFpu, later]
  cases f s.fpu <;> rfl

lemma timeless_getFr : Timeless (T := T) k (getFr m) :=
  .bind (timeless_copRead32Internal 12) fun _ => .of_pure _

lemma timeless_readRandom : Timeless (T := T) (δ := δ) k readRandom := by
  intro s
  dsimp only [readRandom, later]
  cases randomLoop s.cop0.wired (2 ^ 32) s.xorshiftState <;> rfl

variable [MipsTlbBase T]

lemma timeless_loadWith {w : ℕ} (load : δ → BitVec 64 → Served δ (Option (BitVec w)))
    (address : BitVec 64) : Timeless (T := T) k (loadWith m load address) := by
  refine .bind (fun _ => rfl) fun result => ?_
  split
  · refine .bind (fun _ => rfl) fun _ => .bind (timeless_access _) fun value => ?_
    split
    · exact .of_pure _
    · exact .of_throw _
  · exact .bind (timeless_translationFault timeless_triggerException _ _) fun _ => .of_pure _

lemma timeless_storeWith {w : ℕ} (store : δ → BitVec 64 → BitVec w → Served δ Unit)
    (address : BitVec 64) (value : BitVec w) :
    Timeless (T := T) k (storeWith m store address value) := by
  have hfault : ∀ cause, Timeless (T := T) k
      (translationFault m (triggerException m) cause address) :=
    fun cause => timeless_translationFault timeless_triggerException cause address
  have hisolated : Timeless (T := T) k (isIsolated m) := by
    rw [isIsolated]
    split
    · exact .bind (timeless_copRead32Internal 12) fun _ => .of_pure _
    · exact .of_pure _
  refine .bind hisolated fun isolated => ?_
  split
  · exact .of_pure ()
  · refine .bind (fun _ => rfl) fun result => ?_
    split
    · split
      · exact hfault _
      · exact .bind (fun _ => rfl) fun _ => timeless_access _
    · exact hfault _

lemma timeless_cop0Command (command : BitVec 32) :
    Timeless (T := T) (δ := δ) k (cop0Command command) := by
  rw [cop0Command.eq_def]
  split
  case h_3 => exact .bind timeless_readRandom fun _ _ => rfl
  case h_6 =>
    intro s
    rw [eret_run, eret_run]
    rfl
  all_goals exact fun _ => rfl

lemma timeless_cop0Read64 (idx : ℕ) : Timeless (T := T) (δ := δ) k (cop0Read64 idx) := by
  rw [cop0Read64.eq_def]
  split
  case h_2 => exact .bind timeless_readRandom fun _ _ => rfl
  all_goals exact fun _ => rfl

lemma timeless_cop0Write (context : BitVec 64) (idx : ℕ) (value : BitVec 64) :
    Timeless (T := T) (δ := δ) k (cop0Write context idx value) := by
  rw [cop0Write.eq_def]
  split
  all_goals exact fun _ => rfl

lemma timeless_copCommand (copId : BitVec 2) (command : BitVec 32) :
    Timeless (T := T) k (copCommand m copId command) := by
  rw [copCommand]
  split
  · exact timeless_cop0Command command
  · exact .bind timeless_getFr fun _ => timeless_setFpu _
  · exact timeless_access _
  · exact .of_pure ()

lemma timeless_copRead32 (copId : BitVec 2) (idx : ℕ) :
    Timeless (T := T) k (copRead32 m copId idx) := by
  rw [copRead32]
  split
  · exact .bind (timeless_cop0Read64 idx) fun _ => .of_pure _
  · exact .bind timeless_getFr fun _ _ => rfl
  · exact timeless_access _
  · exact .of_pure _

lemma timeless_copRead64 (copId : BitVec 2) (idx : ℕ) :
    Timeless (T := T) k (copRead64 m copId idx) := by
  rw [copRead64]
  split
  · exact timeless_cop0Read64 idx
  · exact .bind timeless_getFr fun _ _ => rfl
  · exact timeless_access _
  · exact .of_pure _

lemma timeless_copWrite32 (copId : BitVec 2) (idx : ℕ) (value : BitVec 32) :
    Timeless (T := T) k (copWrite32 m copId idx value) := by
  rw [copWrite32]
  split
  · exact timeless_cop0Write _ idx _
  · exact .bind timeless_getFr fun _ => timeless_setFpu _
  · exact timeless_access _
  · exact .of_pure ()

lemma timeless_copWrite64 (copId : BitVec 2) (idx : ℕ) (value : BitVec 64) :
    Timeless (T := T) k (copWrite64 m copId idx value) := by
  rw [copWrite64]
  split
  · exact timeless_cop0Write _ idx _
  · exact .bind timeless_getFr fun _ => timeless_setFpu _
  · exact timeless_access _
  · exact .of_pure ()

omit [MipsTlbBase T] in
lemma timeless_copGetFlag (copId : BitVec 2) : Timeless (T := T) k (copGetFlag m copId) := by
  rw [copGetFlag]
  split
  · exact fun _ => rfl
  · exact fun _ => rfl
  · exact .of_pure _

end Accesses

/-! ## Handlers -/

section Handlers

variable [MipsTlbBase T] {opcode : BitVec 32} {func : MipsInstId}

/-- An idle loop is skipped however many cycles were spent. -/
lemma timeless_detectIdleLoop : Timeless (T := T) k (detectIdleLoop m) := by
  refine .bind (fun _ => rfl) fun pc => .bind (timeless_fetch _) fun delayOp => ?_
  split
  · refine .of_modify fun s => ?_
    dsimp only [later]
    rw [Nat.add_right_comm]
  · exact .of_pure ()

omit [MipsTlbBase T] in
lemma timeless_linkForJump (dstReg : BitVec 5) :
    Timeless (T := T) (δ := δ) k (linkForJump dstReg) :=
  .bind (fun _ => rfl) fun _ => timeless_writeGpr64 _ _

omit [MipsTlbBase T] in
lemma timeless_look (α : Type) (x : CpuM T δ α) (hx : Look m α x) : Timeless k x := by
  cases hx with
  | gpr32 idx => exact fun _ => rfl
  | gpr64 idx => exact fun _ => rfl
  | copEnabled copId => exact timeless_isCopEnabled copId

lemma timeless_raise (x : CpuM T δ Unit) (hx : Raise m x) : Timeless k x := by
  cases hx with
  | trigger cause _ => exact timeless_triggerException cause
  | address cause _ address => exact timeless_addressError cause address
  | copUnusable copId => exact timeless_copUnusable copId
  | «break» =>
      refine .bind (timeless_triggerException .kBkpt) fun _ => ?_
      split
      · exact .of_pure ()
      · exact timeless_copCommand 0 0

lemma timeless_actOp (α : Type) (x : CpuM T δ α) (hx : ActOp m opcode func α x) :
    Timeless k x := by
  cases hx with
  | writeGpr idx value => exact timeless_writeGpr64 idx value
  | load load address => exact timeless_loadWith load address
  | store store address value => exact timeless_storeWith store address value
  | command _ => exact timeless_copCommand _ opcode
  | copRead32 idx _ => exact timeless_copRead32 _ idx
  | copRead64 idx _ _ => exact timeless_copRead64 _ idx
  | copWrite32 idx value _ _ => exact timeless_copWrite32 _ idx value
  | copWrite64 idx value _ _ => exact timeless_copWrite64 _ idx value
  | getFlag => exact timeless_copGetFlag _
  | link _ dstReg => exact timeless_linkForJump dstReg
  | j _ =>
      refine .bind (fun _ => rfl) fun pc => .bind (fun _ => rfl) fun _ => ?_
      split
      · exact timeless_detectIdleLoop
      · exact .of_pure ()
  | jal _ =>
      exact .bind (fun _ => rfl) fun pc => .bind (timeless_linkForJump 31) fun _ _ => rfl
  | idle _ => exact timeless_detectIdleLoop
  | cache _ =>
      refine .bind (fun _ => rfl) fun base => ?_
      split
      · exact .of_pure ()
      · split
        · exact fun _ => rfl
        · exact .of_pure ()
  | panic reason _ => exact .of_throw _
  | _ => exact fun _ => rfl

lemma timeless_callInst : Timeless (T := T) k (callInst m opcode func) := by
  have hbody := callInst_body (T := T) m opcode func
  generalize callInst (T := T) m opcode func = x at hbody
  induction hbody with
  | look hop _ ih => exact .bind (timeless_look _ _ hop) ih
  | raise hraise => exact timeless_raise _ hraise
  | act hacts => exact hacts.commutes timeless_actOp

end Handlers

/-! ## Between the handlers -/

section Rounds

variable [MipsTlbBase T]

lemma timeless_checkInterrupt : Timeless (T := T) k (checkInterrupt m) := by
  rw [checkInterrupt]
  split
  · refine .bind (timeless_copRead32Internal 12) fun sr =>
      .bind (timeless_copRead32Internal 13) fun cause => .bind (fun _ => rfl) fun ip => ?_
    split
    · exact timeless_triggerException .kInt
    · exact .of_pure ()
  · exact .of_pure ()

lemma timeless_checkCompare : Timeless (T := T) k (checkCompare m) := by
  rw [checkCompare]
  split
  · refine .bind (timeless_copRead32Internal 13) fun cause => .bind (fun _ => rfl) fun ip =>
      .bind (timeless_copWrite32Internal 13 _) fun _ =>
      .bind (timeless_copRead32Internal 128) fun crossed => ?_
    split
    · exact .bind (fun _ => rfl) fun _ => timeless_checkInterrupt
    · exact .of_pure ()
  · exact .of_pure ()

lemma timeless_poll : Timeless (T := T) k (poll m) := by
  rw [poll]
  split
  · refine .bind (fun _ => rfl) fun _ => .bind (fun _ => rfl) fun counter => ?_
    split
    · exact .bind (fun _ => rfl) fun _ => .bind timeless_checkInterrupt fun _ =>
        timeless_checkCompare
    · exact .of_pure ()
  · exact .of_pure ()

lemma timeless_collectEntries (n : ℕ) (address : BitVec 64) :
    Timeless (T := T) k (collectEntries m n address) := by
  have hentry : ∀ address, Timeless (T := T) k (fetchEntry m address) :=
    fun address => .bind (timeless_fetch address) fun _ => .of_pure _
  induction n generalizing address with
  | zero => exact .of_pure _
  | succ n ih =>
      refine .bind (hentry address) fun entry => ?_
      split
      · split
        · exact .bind (hentry _) fun _ => .of_pure _
        · exact .of_pure _
      · exact .bind (ih _) fun _ => .of_pure _

lemma timeless_enterBlock : Timeless (T := T) k (enterBlock m) := by
  have hderef : ∀ i, Timeless (T := T) (δ := δ) k (derefBlock i) := by
    intro i s
    simp only [derefBlock, later]
    cases s.cache.deref i <;> rfl
  have hclear : Timeless (T := T) k (executeCacheClear m) := by
    refine .of_modify fun s => ?_
    dsimp only [later]
    split <;> rfl
  have hnew : ∀ address, Timeless (T := T) k (onNewBlock m address) := fun address =>
    .bind (.bind (timeless_collectEntries _ _) fun _ => .of_pure _) fun _ _ => rfl
  have hbuild : Timeless (T := T) k (getOrBuildBlock m) := by
    refine .bind (fun _ => rfl) fun block => ?_
    cases block with
    | some i => exact .of_pure i
    | none =>
        refine .bind (fun _ => rfl) fun pc => .bind (hnew pc) fun _ =>
          .bind (fun _ => rfl) fun block => ?_
        cases block with
        | some i => exact .of_pure i
        | none => exact .of_throw _
  exact .bind hclear fun _ => .bind hbuild hderef

/-- A processor that has spent some cycles runs in lockstep with one that has not. -/
lemma lockstep_later : Lockstep (T := T) m m (later k) k where
  mode := rfl
  width := rfl
  pc _ := rfl
  halt _ := rfl
  cycleSpent _ := rfl
  cycleSpentTotal _ _ := rfl
  started _ _ := rfl
  stepped _ _ := rfl
  counted executed s := by
    dsimp only [MipsBase.counted, later]
    rw [Nat.add_right_comm]
  poll _ s := .of_commutes timeless_poll
  enterBlock s := .of_commutes timeless_enterBlock
  fetch address s := .of_commutes (timeless_fetch address)

end Rounds

/-! ## Slices -/

section Slices

omit m in
/-- A loop that ends at its test goes on from there when it is given more cycles. -/
lemma runLoop_append {before step : CpuM T δ Unit} {cycle r : ℤ} {n : ℕ} {s s' : MipsBase T δ}
    (hrun : runLoop before step cycle n s = .ok (r, s')) (hhalt : s'.halt = false) :
    r = s'.cycleSpent ∧ cycle ≤ r ∧ ∃ k ≤ n, ∀ more fuel, cycle ≤ more →
      runLoop before step more (k + fuel) s = runLoop before step more fuel s' := by
  induction n generalizing s with
  | zero => exact absurd hrun.symm Prog.ok_ne_error
  | succ n ih =>
      rw [runLoop, Prog.bind_of_ok (read_run _ _)] at hrun
      split at hrun
      · next hcycle =>
          obtain ⟨⟨⟩, t, hbefore, hmore⟩ := Prog.bind_ok.mp hrun
          rw [Prog.bind_of_ok (read_run _ _)] at hmore
          cases hhalted : t.halt with
          | true =>
              -- A halted processor stays halted to the end of the call.
              rw [hhalted, if_pos rfl, passCycles, Prog.bind_of_ok (read_run _ _)] at hmore
              split at hmore
              · rw [← Prog.state_eq hmore] at hhalt
                exact absurd (hhalted.symm.trans hhalt) (by simp)
              · rw [← Prog.state_eq hmore] at hhalt
                exact absurd (hhalted.symm.trans hhalt) (by simp)
          | false =>
              rw [hhalted, if_neg (by simp)] at hmore
              obtain ⟨⟨⟩, u, hstep, hloop⟩ := Prog.bind_ok.mp hmore
              obtain ⟨hr, hle, k, hk, hrest⟩ := ih hloop
              refine ⟨hr, hle, k + 1, by omega, fun more fuel hcycles => ?_⟩
              have hbudget : k + 1 + fuel = k + fuel + 1 := by omega
              rw [← hrest more fuel hcycles, hbudget, runLoop, Prog.bind_of_ok (read_run _ _),
                if_pos (by omega), Prog.bind_of_ok hbefore, Prog.bind_of_ok (read_run _ _), hhalted,
                if_neg (by simp), Prog.bind_of_ok hstep]
      · next hcycle =>
          obtain ⟨rfl, rfl⟩ := Prog.ok_inj hrun
          exact ⟨rfl, by omega, 0, by omega, fun more fuel _ => by rw [Nat.zero_add]⟩

variable [MipsTlbBase T]

/-- `Run` looks for interrupts in its loop only, if at all. -/
def StartsBlind (m : MipsSetup δ) : Prop :=
  m.config.useCachedInterpreter = true ∨ m.kHasCop0 = false

lemma beginRun_blind (hm : StartsBlind m) (s : MipsBase T δ) :
    beginRun m s = .ok ((), { s with cycleSpent := 0 }) := by
  rw [beginRun]
  split
  · rfl
  · next hmode =>
      have hcop : m.kHasCop0 = false := hm.resolve_left hmode
      have hinterrupt : checkInterrupt (T := T) m = pure () := by
        rw [checkInterrupt, hcop, Bool.and_false, if_neg (by simp)]
      have hcompare : checkCompare (T := T) m = pure () := by
        rw [checkCompare, hcop, Bool.false_and, if_neg (by simp)]
      rw [hinterrupt, hcompare]
      rfl

/-- A call of `Run` is a loop that does not look at the cycles spent, apart from its test. -/
lemma run_sliceLoop (hm : StartsBlind m) : ∃ before step : CpuM T δ Unit,
    (∀ fuel cycle s, run m fuel cycle s = runLoop before step cycle fuel { s with cycleSpent := 0 }) ∧
      ∀ (k n : ℕ) (cycle : ℤ) s, runLoop before step (cycle + k) n (later k s) =
        (runLoop before step cycle n s).map fun r => (r.1 + (k : ℤ), later k r.2) := by
  have hcarried : ∀ (k : ℕ) (d : HandlerCall T δ), d.Carried m m (later k) :=
    fun k d => .of_commutes timeless_callInst
  cases hmode : m.config.useCachedInterpreter with
  | true =>
      refine ⟨poll m, runCachedBlock m, fun fuel cycle s => ?_, fun k n cycle s => ?_⟩
      · rw [run_begin (beginRun_blind hm s), if_pos hmode]
      · exact lockstep_later.runLoop (fun _ => .of_commutes timeless_poll)
          (fun _ => lockstep_later.runCachedBlock) fun d _ => hcarried k d
  | false =>
      refine ⟨pure (), runInst m, fun fuel cycle s => ?_, fun k n cycle s => ?_⟩
      · rw [run_begin (beginRun_blind hm s), if_neg (by simp [hmode])]
      · exact lockstep_later.runLoop (fun _ => .of_pure ()) (fun _ => lockstep_later.runInst)
          fun d _ => hcarried k d

/-- Two calls, the first of which does not end halted, are one. -/
lemma run_append (hm : StartsBlind m) {fuel₁ : ℕ} {cycle₁ cycle₂ r₁ : ℤ}
    {s s₁ : MipsBase T δ} (hrun : run m fuel₁ cycle₁ s = .ok (r₁, s₁)) (hhalt : s₁.halt = false)
    (hcycle : 0 ≤ cycle₂) (fuel₂ : ℕ) : ∃ k ≤ fuel₁, run m (k + fuel₂) (r₁ + cycle₂) s =
      (run m fuel₂ cycle₂ s₁).map fun r => (r₁ + r.1, later r₁.toNat r.2) := by
  obtain ⟨before, step, hloop, hlater⟩ := run_sliceLoop (T := T) hm
  rw [hloop] at hrun
  obtain ⟨hr, hle, k, hk, hrest⟩ := runLoop_append hrun hhalt
  refine ⟨k, hk, ?_⟩
  -- The second call starts where the first one ends, but for the cycles of the first.
  have hstart : later s₁.cycleSpent { s₁ with cycleSpent := 0 } = s₁ := by
    rw [later, Nat.zero_add]
  have hsecond := hlater s₁.cycleSpent fuel₂ cycle₂ { s₁ with cycleSpent := 0 }
  rw [hstart, add_comm cycle₂, ← hr, ← hloop] at hsecond
  rw [hloop, hrest _ _ (by omega), hsecond, hr, Int.toNat_natCast]
  simp only [add_comm]

variable (m) in
/-- Calls of `Run`, one after the other, none of which but the last ends halted.  Those before the
last return `before` cycles together; the last is asked for `cycle` and returns `r`. -/
inductive Sliced : MipsBase T δ → ℤ → ℤ → ℤ → MipsBase T δ → Prop
  | last {fuel : ℕ} {cycle r : ℤ} {s t : MipsBase T δ} (hrun : run m fuel cycle s = .ok (r, t)) :
      Sliced s 0 cycle r t
  | slice {fuel : ℕ} {cycle₁ r₁ before cycle r : ℤ} {s u t : MipsBase T δ}
      (hrun : run m fuel cycle₁ s = .ok (r₁, u)) (hhalt : u.halt = false)
      (hrest : Sliced u before cycle r t) : Sliced s (r₁ + before) cycle r t

/-- One call in the place of all of them. -/
lemma Sliced.joined (hm : StartsBlind m) {before cycle r : ℤ} {s t : MipsBase T δ}
    (hcycle : 0 ≤ cycle) (h : Sliced m s before cycle r t) :
    0 ≤ before ∧ ∃ fuel, run m fuel (before + cycle) s =
      .ok (before + r, { t with cycleSpent := t.cycleSpent + before.toNat }) := by
  induction h with
  | @last fuel cycle r s t hrun =>
      refine ⟨le_refl 0, fuel, ?_⟩
      rw [zero_add, zero_add, hrun]
      rfl
  | @slice fuel cycle₁ r₁ before cycle r s u t hrun hhalt _ ih =>
      obtain ⟨hbefore, fuel', hrest⟩ := ih hcycle
      obtain ⟨before', step, hloop, -⟩ := run_sliceLoop (T := T) hm
      obtain ⟨hr, -⟩ := runLoop_append ((hloop _ _ _).symm.trans hrun) hhalt
      obtain ⟨n, -, hone⟩ := run_append hm hrun hhalt (Int.add_nonneg hbefore hcycle) fuel'
      have hcycles : r₁.toNat + before.toNat = (r₁ + before).toNat :=
        (Int.toNat_add (by omega) hbefore).symm
      refine ⟨by omega, n + fuel', ?_⟩
      rw [add_assoc, hone, hrest, add_assoc, ← hcycles, Nat.add_comm r₁.toNat, ← Nat.add_assoc]
      rfl

/-- **Slices are invisible.**  However the processor was used since it was built, calls of `Run` with
the cached interpreter, or without coprocessor 0, can be made one: it is asked for what the calls
before the last returned together and the budget of the last, returns the cycles they return
together and ends in the same state, except that it counts the cycles of all of them. -/
theorem run_of_sliced (hm : StartsBlind m) {tlb : T} {d : δ} {earlier : List (MipsCall δ)}
    {spent₀ : List (Option ℤ)} {before cycle r : ℤ} {s t : MipsBase T δ}
    (hstart : performAll m earlier { tlb := tlb, device := d } = .ok (spent₀, s))
    (hcycle : 0 ≤ cycle) (hbudget : before + cycle ≤ 2 ^ 30) (h : Sliced m s before cycle r t) :
    before + r < 2 ^ 31 ∧ ∃ fuel, run m fuel (before + cycle) s =
      .ok (before + r, { t with cycleSpent := t.cycleSpent + before.toNat }) := by
  obtain ⟨-, fuel, hone⟩ := h.joined hm hcycle
  have hreturned := (run_inBudget (paced_of_calls hstart) hbudget hone).1
  exact ⟨hreturned.1, fuel, hone⟩

end Slices

/-- A jump to itself that counts in its delay slot: `J 0x80001000`, `ADDIU $3, $3, 1`. -/
def countingLoop : MipsBase MipsTlbNormal WordMemory :=
  lastState (performAll cachedSetup [.setPc 0x80001000])
    { tlb := {}, device := [(0x1000, 0x08000400), (0x1004, 0x24630001)] }

/-- The loop was executed once. -/
def countedOnce : MipsBase MipsTlbNormal WordMemory := lastState (run cachedSetup 10 1) countingLoop

/-- `run_of_sliced` on two slices of one cycle, each of which executes the loop once. -/
theorem countingLoop_sliced : ∃ t, Sliced cachedSetup countingLoop 3 1 3 t ∧ t.gpr 3 = 2 ∧
    ∃ fuel, run cachedSetup fuel (3 + 1) countingLoop =
      .ok (3 + 3, { t with cycleSpent := t.cycleSpent + (3 : ℤ).toNat }) := by
  have hstart : performAll cachedSetup [.setPc 0x80001000]
      { tlb := {}, device := [(0x1000, 0x08000400), (0x1004, 0x24630001)] } =
      .ok ([none], countingLoop) := run_of_returned (by decide +kernel)
  have hfirst : run cachedSetup 10 1 countingLoop = .ok (3, countedOnce) :=
    run_of_returned (by decide +kernel)
  have hsecond : run cachedSetup 10 1 countedOnce =
      .ok (3, lastState (run cachedSetup 10 1) countedOnce) := run_of_returned (by decide +kernel)
  have hopen : countedOnce.halt = false := by decide +kernel
  have hsliced := Sliced.slice hfirst hopen (.last hsecond)
  rw [add_zero] at hsliced
  have hjoined := run_of_sliced (.inl rfl) hstart (by decide) (by decide) hsliced
  exact ⟨_, hsliced, by decide +kernel, hjoined.2⟩

end MipsBase

end NgMips
