import NgMips.Proofs.Agree
import NgMips.Proofs.Points
import NgMips.Source.Machine

/-!
# Low words

The second processor reads the low word of a register and extends its sign.  So a run shows
nothing of the high words (`noninterfering_performAll`), and two processors that differ in these
access the same addresses.  The sum of a base and an offset is not reduced again before it is put
on the bus: sums that are equal modulo `2 ^ 32` may be two addresses (`sameSum_differ`).
-/

namespace NgMips

/-- The second processor: 32-bit registers and no coprocessor 0 of its own. -/
structure MipsSetup.IsRsp {δ : Type} (m : MipsSetup δ) : Prop where
  is32Bit : m.kIs64Bit = false
  noCop0 : m.kHasCop0 = false

lemma rspSetup_isRsp : rspSetup.IsRsp := ⟨rfl, rfl⟩

namespace MipsBase

variable {δ : Type} {m : MipsSetup δ} {opcode : BitVec 32} {func : MipsInstId}

/-! ## What is seen -/

/-- The state without the high words of the general registers. -/
def lowWords (s : MipsBase MipsTlbDummy δ) : MipsBase MipsTlbDummy δ :=
  { s with gpr := fun idx => ((s.gpr idx).setWidth 32).setWidth 64 }

/-- Other general registers. -/
def withGpr (gpr : BitVec 5 → BitVec 64) (s : MipsBase MipsTlbDummy δ) :
    MipsBase MipsTlbDummy δ := { s with gpr := gpr }

/-- Two states are seen alike when their registers have the same low words, and everything else
is the same. -/
lemma lowWords_eq_iff {s t : MipsBase MipsTlbDummy δ} :
    s.lowWords = t.lowWords ↔
      (∀ idx, SameLow (s.gpr idx) (t.gpr idx)) ∧ t = withGpr t.gpr s := by
  constructor
  · intro h
    refine ⟨fun idx => ?_, ?_⟩
    · have hidx := congrArg (fun u => (u.gpr idx).setWidth 32) h
      simpa [lowWords, SameLow] using hidx
    · have hrest := congrArg (withGpr t.gpr) h
      exact hrest.symm
  · rintro ⟨hlow, hrest⟩
    have hgpr : s.lowWords.gpr = t.lowWords.gpr := by
      funext idx
      exact congrArg (BitVec.setWidth 64) (hlow idx)
    calc s.lowWords = withGpr s.lowWords.gpr s := rfl
      _ = withGpr t.lowWords.gpr s := by rw [hgpr]
      _ = withGpr t.lowWords.gpr (withGpr t.gpr s) := rfl
      _ = t.lowWords := by rw [← hrest]; rfl

/-! ## Operations that have nothing to do with registers -/

/-- The program does not look at the general registers and leaves them alone. -/
def GprFree {α : Type} (x : CpuM MipsTlbDummy δ α) : Prop := ∀ gpr, Prog.Commutes (withGpr gpr) x

namespace GprFree

lemma of_pure {α : Type} (a : α) : GprFree (pure a : CpuM MipsTlbDummy δ α) := fun _ => .of_pure a

lemma of_throw {α : Type} (e : Stop) : GprFree (throw e : CpuM MipsTlbDummy δ α) :=
  fun _ => .of_throw e

lemma bind {α β : Type} {x : CpuM MipsTlbDummy δ α} {f : α → CpuM MipsTlbDummy δ β}
    (hx : GprFree x) (hf : ∀ a, GprFree (f a)) : GprFree (x >>= f) :=
  fun gpr => .bind (hx gpr) fun a => hf a gpr

/-- Such a program shows nothing of the registers. -/
lemma noninterfering {α : Type} {x : CpuM MipsTlbDummy δ α} (hx : GprFree x) :
    Prog.Noninterfering lowWords x := by
  intro s t h
  obtain ⟨hlow, hrest⟩ := lowWords_eq_iff.mp h
  have hrun := hx t.gpr s
  rw [← hrest] at hrun
  rw [hrun]
  have hsame := hx s.gpr s
  change x s = _ at hsame
  cases hxs : x s with
  | error e => rfl
  | ok r =>
      rw [hxs] at hsame
      obtain ⟨-, hkept⟩ := Prog.ok_inj hsame
      have hview : r.2.lowWords = (withGpr t.gpr r.2).lowWords := by
        refine lowWords_eq_iff.mpr ⟨fun idx => ?_, rfl⟩
        rw [hkept]
        exact hlow idx
      exact congrArg (fun u => Except.ok (r.1, u)) hview

end GprFree

section Free

lemma free_copRead32Internal (idx : ℕ) :
    GprFree (copRead32Internal m idx : CpuM MipsTlbDummy δ _) := by
  intro gpr s
  rw [copRead32Internal]
  cases m.slot 0#2 <;> rfl

lemma free_copWrite64Internal (idx : ℕ) (value : BitVec 64) :
    GprFree (copWrite64Internal m idx value : CpuM MipsTlbDummy δ _) := by
  intro gpr s
  rw [copWrite64Internal]
  cases m.slot 0#2 with
  | cop0 =>
      simp only [withGpr]
      cases s.cop0.write64Internal idx value <;> rfl
  | _ => rfl

lemma free_copWrite32Internal (idx : ℕ) (value : BitVec 32) :
    GprFree (copWrite32Internal m idx value : CpuM MipsTlbDummy δ _) := by
  intro gpr s
  rw [copWrite32Internal]
  cases m.slot 0#2 with
  | cop0 =>
      simp only [withGpr]
      cases s.cop0.write32Internal idx value <;> rfl
  | _ => rfl

lemma free_isCopEnabled (copId : BitVec 2) :
    GprFree (isCopEnabled m copId : CpuM MipsTlbDummy δ _) := by
  rw [isCopEnabled]
  split
  · exact .bind (free_copRead32Internal 12) fun _ => .of_pure _
  · exact .of_pure _

/-- Every address is translated. -/
lemma free_fetch (address : BitVec 64) : GprFree (fetch m address : CpuM MipsTlbDummy δ _) :=
  fun _ _ => rfl

lemma free_takeException (cause : ExceptionCause) (epc : BitVec 64) (bd : Bool) :
    GprFree (takeException m cause epc bd : CpuM MipsTlbDummy δ _) := by
  have hend : GprFree (if cause.isTlb then throw (.panic .tlbException)
      else setPcDuringInst vecAddressGeneral : CpuM MipsTlbDummy δ Unit) := by
    split
    · exact .of_throw _
    · exact fun _ _ => rfl
  refine .bind (free_copRead32Internal 13) fun _ => .bind (fun _ _ => rfl) fun _ =>
    .bind (free_copWrite32Internal 13 _) fun _ => .bind (free_copRead32Internal 12) fun sr => ?_
  dsimp only
  split
  · split
    · exact .bind (free_copWrite32Internal 12 _) fun _ => hend
    · exact .bind (free_copWrite64Internal 14 _) fun _ =>
        .bind (free_copWrite32Internal 12 _) fun _ => hend
  · exact .bind (free_copWrite32Internal 12 _) fun _ => hend

lemma free_triggerException (cause : ExceptionCause) :
    GprFree (triggerException m cause : CpuM MipsTlbDummy δ _) := by
  rw [triggerException]
  split
  · refine .bind (fun _ _ => rfl) fun _ => .bind (fun _ _ => rfl) fun pc =>
      .bind (fun _ _ => rfl) fun hasBranchDelay => ?_
    split
    · refine .bind (fun _ _ => rfl) fun _ => .bind (fun _ _ => rfl) fun opcode => ?_
      split
      · exact free_takeException cause _ true
      · exact .of_throw _
    · exact free_takeException cause pc false
  · exact .of_pure ()

lemma free_access {α : Type} (f : δ → Served δ α) :
    GprFree (access f : CpuM MipsTlbDummy δ α) := by
  intro gpr s
  have hserve : ∀ (calls : List CpuCall) (s : MipsBase MipsTlbDummy δ),
      calls.foldl serve (withGpr gpr s) = withGpr gpr (calls.foldl serve s) := by
    intro calls
    induction calls with
    | nil => exact fun _ => rfl
    | cons call calls ih =>
        intro s
        rw [List.foldl_cons, List.foldl_cons, ← ih]
        cases call <;> rfl
  have hcalls := hserve (f s.device).calls { s with device := (f s.device).device }
  exact congrArg (fun t => Except.ok ((f s.device).value, t)) hcalls

lemma free_loadWith {w : ℕ} (load : δ → BitVec 64 → Served δ (Option (BitVec w)))
    (address : BitVec 64) : GprFree (loadWith m load address : CpuM MipsTlbDummy δ _) := by
  refine .bind (fun _ _ => rfl) fun result => ?_
  split
  · refine .bind (fun _ _ => rfl) fun _ => .bind (free_access _) fun value => ?_
    split
    · exact .of_pure _
    · exact .of_throw _
  · exact .bind (.bind (free_copWrite64Internal 8 _) fun _ => .bind (fun _ _ => rfl) fun _ =>
      free_triggerException _) fun _ => .of_pure _

lemma free_storeWith {w : ℕ} (store : δ → BitVec 64 → BitVec w → Served δ Unit)
    (address : BitVec 64) (value : BitVec w) :
    GprFree (storeWith m store address value : CpuM MipsTlbDummy δ _) := by
  have hisolated : GprFree (isIsolated m : CpuM MipsTlbDummy δ Bool) := by
    rw [isIsolated]
    split
    · exact .bind (free_copRead32Internal 12) fun _ => .of_pure _
    · exact .of_pure _
  have hfault : ∀ cause, GprFree (translationFault m (triggerException m) cause address :
      CpuM MipsTlbDummy δ Unit) := fun cause =>
    .bind (free_copWrite64Internal 8 _) fun _ => .bind (fun _ _ => rfl) fun _ =>
      free_triggerException cause
  refine .bind hisolated fun isolated => ?_
  split
  · exact .of_pure ()
  · refine .bind (fun _ _ => rfl) fun result => ?_
    split
    · split
      · exact hfault _
      · exact .bind (fun _ _ => rfl) fun _ => free_access _
    · exact hfault _

lemma free_setFpu (f : MipsFpu → Except Stop MipsFpu) :
    GprFree (setFpu f : CpuM MipsTlbDummy δ Unit) := by
  intro gpr s
  simp only [setFpu, withGpr]
  cases f s.fpu <;> rfl

/-- The ports of the coprocessors; none of them is a coprocessor 0 of the processor. -/
lemma free_port (hm : m.IsRsp) {α : Type} {x : CpuM MipsTlbDummy δ α} {copId : BitVec 2}
    {onCop0 : CpuM MipsTlbDummy δ α} {onFpu : Bool → CpuM MipsTlbDummy δ α}
    {onDevice : δ → Served δ α} {onDummy : α}
    (hx : x = match m.slot copId with
      | .cop0 => onCop0
      | .fpu => getFr m >>= onFpu
      | .device => access onDevice
      | .dummy => pure onDummy)
    (hfpu : ∀ fr, GprFree (onFpu fr)) : GprFree x := by
  have hfr : GprFree (getFr m : CpuM MipsTlbDummy δ Bool) :=
    .bind (free_copRead32Internal 12) fun _ => .of_pure _
  rw [hx]
  cases hslot : m.slot copId with
  | cop0 =>
      refine absurd hslot ?_
      rw [MipsSetup.slot, hm.noCop0]
      split
      · simp
      · split
        · simp
        · split
          · split <;> simp
          · simp
  | fpu => exact .bind hfr hfpu
  | device => exact free_access onDevice
  | dummy => exact .of_pure onDummy

lemma free_copGetFlag (copId : BitVec 2) :
    GprFree (copGetFlag m copId : CpuM MipsTlbDummy δ Bool) := by
  intro gpr s
  rw [copGetFlag]
  cases m.slot copId <;> rfl

lemma free_copCommand (hm : m.IsRsp) (copId : BitVec 2) (command : BitVec 32) :
    GprFree (copCommand m copId command : CpuM MipsTlbDummy δ Unit) :=
  free_port hm (copCommand.eq_def m _ _) fun _ => free_setFpu _

lemma free_detectIdleLoop : GprFree (detectIdleLoop m : CpuM MipsTlbDummy δ Unit) := by
  refine .bind (fun _ _ => rfl) fun pc => .bind (free_fetch _) fun delayOp => ?_
  split
  · exact fun _ _ => rfl
  · exact .of_pure ()

end Free

/-! ## Handlers -/

section Handlers

/-- A register is read through its low word. -/
lemma low_readGpr64 (hm : m.IsRsp) (idx : BitVec 5) :
    Prog.Noninterfering lowWords (readGpr64 m idx : CpuM MipsTlbDummy δ (BitVec 64)) := by
  rw [readGpr64, hm.is32Bit]
  refine .of_read fun s t h => ?_
  exact congrArg (BitVec.signExtend 64) ((lowWords_eq_iff.mp h).1 idx)

lemma low_readGpr32 (idx : BitVec 5) :
    Prog.Noninterfering lowWords (readGpr32 idx : CpuM MipsTlbDummy δ (BitVec 32)) :=
  .of_read fun _ _ h => (lowWords_eq_iff.mp h).1 idx

/-- Both sides write the same value. -/
lemma low_setGpr {s t : MipsBase MipsTlbDummy δ} (h : s.lowWords = t.lowWords) (idx : BitVec 5)
    (value : BitVec 64) :
    lowWords { s with gpr := Function.update s.gpr idx value } =
      lowWords { t with gpr := Function.update t.gpr idx value } := by
  obtain ⟨hlow, hrest⟩ := lowWords_eq_iff.mp h
  refine lowWords_eq_iff.mpr ⟨fun i => ?_, ?_⟩
  · by_cases hi : i = idx
    · subst hi
      simp [SameLow]
    · simpa [Function.update_of_ne hi] using hlow i
  · rw [hrest]
    rfl

lemma low_writeGpr64 (idx : BitVec 5) (value : BitVec 64) :
    Prog.Noninterfering lowWords (writeGpr64 idx value : CpuM MipsTlbDummy δ Unit) := by
  rw [writeGpr64]
  split
  · exact .of_pure ()
  · exact .of_modify fun s t h => low_setGpr h idx value

lemma low_linkForJump (dstReg : BitVec 5) :
    Prog.Noninterfering lowWords (linkForJump dstReg : CpuM MipsTlbDummy δ Unit) :=
  .bind (GprFree.noninterfering fun _ _ => rfl) fun _ => low_writeGpr64 dstReg _

lemma low_actOp (hm : m.IsRsp) (α : Type) (x : CpuM MipsTlbDummy δ α)
    (hx : ActOp m opcode func α x) : Prog.Noninterfering lowWords x := by
  have hrfl : ∀ {α : Type} {x : CpuM MipsTlbDummy δ α},
      (∀ gpr s, x (withGpr gpr s) = (x s).map fun r => (r.1, withGpr gpr r.2)) →
      Prog.Noninterfering lowWords x := fun h => GprFree.noninterfering h
  cases hx with
  | gpr32 idx => exact low_readGpr32 idx
  | gpr64 idx => exact low_readGpr64 hm idx
  | writeGpr idx value => exact low_writeGpr64 idx value
  | load load address => exact (free_loadWith load address).noninterfering
  | store store address value => exact (free_storeWith store address value).noninterfering
  | command _ => exact (free_copCommand hm _ _).noninterfering
  | copRead32 idx _ =>
      exact (free_port hm (copRead32.eq_def m _ _) fun _ _ _ => rfl).noninterfering
  | copRead64 idx _ _ =>
      exact (free_port hm (copRead64.eq_def m _ _) fun _ _ _ => rfl).noninterfering
  | copWrite32 idx value _ _ =>
      exact (free_port hm (copWrite32.eq_def m _ _ _) fun _ => free_setFpu _).noninterfering
  | copWrite64 idx value _ _ =>
      exact (free_port hm (copWrite64.eq_def m _ _ _) fun _ => free_setFpu _).noninterfering
  | getFlag => exact (free_copGetFlag _).noninterfering
  | link _ dstReg => exact low_linkForJump dstReg
  | j _ =>
      refine GprFree.noninterfering (.bind (fun _ _ => rfl) fun pc => .bind (fun _ _ => rfl)
        fun _ => ?_)
      split
      · exact free_detectIdleLoop
      · exact .of_pure ()
  | jal _ =>
      exact .bind (hrfl fun _ _ => rfl) fun pc => .bind (low_linkForJump 31) fun _ =>
        hrfl fun _ _ => rfl
  | idle _ => exact free_detectIdleLoop.noninterfering
  | cache _ =>
      refine .bind (low_readGpr64 hm _) fun base => ?_
      split
      · exact .of_pure ()
      · split
        · exact hrfl fun _ _ => rfl
        · exact .of_pure ()
  | panic reason => exact .of_throw _
  | _ => exact hrfl fun _ _ => rfl

/-- **A handler shows nothing of the high words.** -/
lemma low_callInst (hm : m.IsRsp) :
    Prog.Noninterfering lowWords (callInst m opcode func : CpuM MipsTlbDummy δ Unit) := by
  refine (callInst_body m opcode func).noninterfering (fun α x hx => ?_) (fun x hx => ?_)
    fun x hx => hx.noninterfering (low_actOp hm)
  · cases hx with
    | gpr32 idx => exact low_readGpr32 idx
    | gpr64 idx => exact low_readGpr64 hm idx
    | copEnabled copId => exact (free_isCopEnabled copId).noninterfering
  · cases hx with
    | trigger cause _ => exact (free_triggerException cause).noninterfering
    | address cause _ address =>
        exact GprFree.noninterfering (.bind (free_copWrite64Internal 8 _) fun _ =>
          free_triggerException cause)
    | copUnusable copId =>
        exact GprFree.noninterfering (.bind (fun _ _ => rfl) fun _ => free_triggerException .kCop)
    | «break» =>
        refine GprFree.noninterfering (.bind (free_triggerException .kBkpt) fun _ => ?_)
        split
        · exact .of_pure ()
        · exact free_copCommand hm _ _

end Handlers

/-! ## Runs -/

section Runs

lemma low_execute (hm : m.IsRsp) :
    Prog.Noninterfering lowWords (execute m opcode func : CpuM MipsTlbDummy δ Unit) := by
  have hadvance : GprFree (advance : CpuM MipsTlbDummy δ Unit) := by
    refine fun gpr => .of_modify fun s => ?_
    dsimp only [withGpr]
    split <;> rfl
  exact .bind (GprFree.noninterfering fun _ _ => rfl) fun pc =>
    .bind (GprFree.noninterfering fun _ _ => rfl) fun _ =>
    .bind hadvance.noninterfering fun _ => low_callInst hm

lemma free_countCycles (executed : ℕ) :
    GprFree (countCycles m executed : CpuM MipsTlbDummy δ Unit) := fun _ _ => rfl

lemma low_runInst (hm : m.IsRsp) :
    Prog.Noninterfering lowWords (runInst m : CpuM MipsTlbDummy δ Unit) :=
  .bind (GprFree.noninterfering fun _ _ => rfl) fun pc =>
    .bind (free_fetch pc).noninterfering fun _ => .bind (low_execute hm) fun _ =>
    .bind (GprFree.noninterfering fun _ _ => rfl) fun _ => (free_countCycles 1).noninterfering

lemma low_runEntry (hm : m.IsRsp) (entry : MipsCacheEntry) :
    Prog.Noninterfering lowWords (runEntry m entry : CpuM MipsTlbDummy δ Unit) :=
  .bind (low_execute hm) fun _ => GprFree.noninterfering fun _ _ => rfl

lemma low_runEntries (hm : m.IsRsp) (entries : List MipsCacheEntry) :
    Prog.Noninterfering lowWords (runEntries m entries : CpuM MipsTlbDummy δ ℕ) := by
  induction entries with
  | nil => exact .of_pure 0
  | cons entry rest ih =>
      refine .bind (GprFree.noninterfering fun _ _ => rfl) fun pc => ?_
      split
      · exact .bind (low_runEntry hm entry) fun _ => .bind ih fun executed => .of_pure _
      · exact .of_pure 0

lemma low_runBlock (hm : m.IsRsp) (entries : List MipsCacheEntry) :
    Prog.Noninterfering lowWords (runBlock m entries : CpuM MipsTlbDummy δ ℕ) := by
  cases entries with
  | nil => exact .of_pure 0
  | cons entry rest =>
      exact .bind (low_runEntry hm entry) fun _ => .bind (low_runEntries hm rest) fun executed =>
        .of_pure _

lemma free_enterBlock : GprFree (enterBlock m : CpuM MipsTlbDummy δ MipsCacheBlock) := by
  have hclear : GprFree (executeCacheClear m : CpuM MipsTlbDummy δ Unit) := by
    refine fun gpr => .of_modify fun s => ?_
    dsimp only [withGpr]
    split <;> rfl
  have hderef : ∀ i, GprFree (derefBlock i : CpuM MipsTlbDummy δ MipsCacheBlock) := by
    intro i gpr s
    simp only [derefBlock, withGpr]
    cases s.cache.deref i <;> rfl
  have hbuild : ∀ address, GprFree (buildBlock m address : CpuM MipsTlbDummy δ _) := by
    intro address gpr
    have hbuilt : Prog.Built (fun _ x => GprFree x) (buildBlock (T := MipsTlbDummy) m address) :=
      built_buildBlock (fun address => .op (free_fetch address)) address
    exact hbuilt.commutes fun _ _ hx => hx gpr
  have hget : GprFree (getOrBuildBlock m : CpuM MipsTlbDummy δ ℕ) := by
    refine .bind (fun _ _ => rfl) fun block => ?_
    cases block with
    | some i => exact .of_pure i
    | none =>
        refine .bind (fun _ _ => rfl) fun pc =>
          .bind (.bind (hbuild _) fun _ _ _ => rfl) fun _ => .bind (fun _ _ => rfl) fun block => ?_
        cases block with
        | some i => exact .of_pure i
        | none => exact .of_throw _
  exact .bind hclear fun _ => .bind hget hderef

lemma low_runCachedBlock (hm : m.IsRsp) :
    Prog.Noninterfering lowWords (runCachedBlock m : CpuM MipsTlbDummy δ Unit) := by
  rw [runCachedBlock_eq]
  exact .bind free_enterBlock.noninterfering fun block => .bind (low_runBlock hm block.entries)
    fun executed => (free_countCycles executed).noninterfering

lemma low_runLoop {before step : CpuM MipsTlbDummy δ Unit}
    (hbefore : Prog.Noninterfering lowWords before) (hstep : Prog.Noninterfering lowWords step)
    (cycle : ℤ) (n : ℕ) : Prog.Noninterfering lowWords (runLoop before step cycle n) := by
  have hread : ∀ {α : Type} {f : MipsBase MipsTlbDummy δ → α},
      (∀ gpr s, f (withGpr gpr s) = f s) → Prog.Noninterfering lowWords (read f) :=
    fun hf => .of_read fun s t h => by rw [(lowWords_eq_iff.mp h).2, hf]
  induction n with
  | zero => exact .of_throw _
  | succ n ih =>
      refine .bind (hread fun _ _ => rfl) fun spent => ?_
      split
      · refine .bind hbefore fun _ => .bind (hread fun _ _ => rfl) fun halt => ?_
        split
        · refine .bind (hread fun _ _ => rfl) fun spent' => ?_
          split
          · exact .bind (GprFree.noninterfering fun _ _ => rfl) fun _ => .of_pure _
          · exact .of_pure _
        · exact .bind hstep fun _ => ih
      · exact .of_pure _

/-- Without a coprocessor 0 of its own the processor does not look for interrupts. -/
lemma low_run (hm : m.IsRsp) (fuel : ℕ) (cycle : ℤ) :
    Prog.Noninterfering lowWords (run m fuel cycle : CpuM MipsTlbDummy δ ℤ) := by
  have hbegin : Prog.Noninterfering lowWords
      (modify fun s => { s with cycleSpent := 0 } : CpuM MipsTlbDummy δ PUnit) :=
    GprFree.noninterfering fun _ _ => rfl
  have hpoll : Prog.Noninterfering lowWords (poll m : CpuM MipsTlbDummy δ Unit) := by
    rw [poll, if_neg (by simp [hm.noCop0])]
    exact .of_pure ()
  have hinterrupt : Prog.Noninterfering lowWords
      (checkInterrupt m : CpuM MipsTlbDummy δ Unit) := by
    rw [checkInterrupt, if_neg (by simp [hm.noCop0])]
    exact .of_pure ()
  have hcompare : Prog.Noninterfering lowWords (checkCompare m : CpuM MipsTlbDummy δ Unit) := by
    rw [checkCompare, if_neg (by simp [hm.noCop0])]
    exact .of_pure ()
  rw [run]
  split
  · exact .bind hbegin fun _ => low_runLoop hpoll (low_runCachedBlock hm) cycle fuel
  · exact .bind hbegin fun _ => .bind hinterrupt fun _ => .bind hcompare fun _ =>
      low_runLoop (.of_pure ()) (low_runInst hm) cycle fuel

lemma low_perform (hm : m.IsRsp) (call : MipsCall δ) :
    Prog.Noninterfering lowWords (perform m call : CpuM MipsTlbDummy δ (Option ℤ)) := by
  cases call with
  | run fuel cycle => exact .bind (low_run hm fuel cycle) fun spent => .of_pure _
  | reset =>
      refine .bind (.of_modify fun s t h => ?_) fun _ => .of_pure none
      rw [(lowWords_eq_iff.mp h).2]
      rfl
  | setGpr idx value =>
      refine .bind ?_ fun _ => .of_pure none
      rw [setGpr]
      split
      · exact .of_pure ()
      · exact .of_modify fun s t h => low_setGpr h idx value
  | _ => exact .bind (GprFree.noninterfering fun _ _ => rfl) fun _ => .of_pure none

lemma low_performAll (hm : m.IsRsp) (calls : List (MipsCall δ)) :
    Prog.Noninterfering lowWords
      (performAll m calls : CpuM MipsTlbDummy δ (List (Option ℤ))) := by
  induction calls with
  | nil => exact .of_pure []
  | cons call calls ih =>
      exact .bind (low_perform hm call) fun spent => .bind ih fun rest => .of_pure _

end Runs

/-! ## The program counter of the cached interpreter -/

section Masked

/-- The state with the low word of the program counter. -/
def maskPc (s : MipsBase MipsTlbDummy δ) : MipsBase MipsTlbDummy δ :=
  { s with pc := s.pc &&& 0xFFFFFFFF }

lemma and_mask_twice (a : BitVec 64) : a &&& 0xFFFFFFFF &&& 0xFFFFFFFF = a &&& 0xFFFFFFFF := by
  rw [BitVec.and_assoc, BitVec.and_self]

/-- A block is looked up at the low word of the program counter. -/
lemma masked_getBlock : Prog.Commutes maskPc (getBlock : CpuM MipsTlbDummy δ (Option ℕ)) := by
  intro s
  have hkey : MipsCache.physicalKey s.tlb (s.pc &&& 0xFFFFFFFF) =
      MipsCache.physicalKey s.tlb s.pc := by
    rw [MipsCache.physicalKey, MipsCache.physicalKey, and_mask_twice]
  have hlookup : s.cache.getBlock s.tlb (s.pc &&& 0xFFFFFFFF) = s.cache.getBlock s.tlb s.pc := by
    rw [MipsCache.getBlock, MipsCache.getBlock, hkey]
  have hrun : ∀ u : MipsBase MipsTlbDummy δ, getBlock u =
      .ok ((u.cache.getBlock u.tlb u.pc).1,
        { u with cache := (u.cache.getBlock u.tlb u.pc).2 }) := fun _ => rfl
  have hlow : s.maskPc.cache.getBlock s.maskPc.tlb s.maskPc.pc = s.cache.getBlock s.tlb s.pc :=
    hlookup
  rw [hrun, hrun, hlow]
  rfl

lemma masked_onNewBlock (address : BitVec 64) :
    Prog.Commutes maskPc (onNewBlock m address : CpuM MipsTlbDummy δ Unit) := by
  have hbuilt : Prog.Built (fun _ x => Prog.Commutes maskPc x)
      (buildBlock (T := MipsTlbDummy) m (address &&& 0xFFFFFFFF)) :=
    built_buildBlock (fun _ => .op fun _ => rfl) _
  exact .bind (hbuilt.commutes fun _ _ hx => hx) fun _ _ => rfl

/-- A block is built at the low word of the program counter, which is read as it is, and masked
before it is used. -/
lemma masked_newBlock_pc {k : Unit → CpuM MipsTlbDummy δ ℕ}
    (hk : ∀ u, Prog.Commutes maskPc (k u)) :
    Prog.Commutes maskPc (read MipsBase.pc >>= fun pc => onNewBlock m pc >>= k) := by
  intro s
  have hmasked : (onNewBlock m (s.pc &&& 0xFFFFFFFF) : CpuM MipsTlbDummy δ Unit) =
      onNewBlock m s.pc := by
    rw [onNewBlock, onNewBlock, and_mask_twice]
  rw [Prog.bind_of_ok (read_run _ _), Prog.bind_of_ok (read_run _ _)]
  change (onNewBlock m (s.pc &&& 0xFFFFFFFF) >>= k) (maskPc s) = _
  rw [hmasked]
  exact (Prog.Commutes.bind (masked_onNewBlock s.pc) hk) s

lemma masked_getOrBuildBlock :
    Prog.Commutes maskPc (getOrBuildBlock m : CpuM MipsTlbDummy δ ℕ) := by
  refine .bind masked_getBlock fun block => ?_
  cases block with
  | some i => exact .of_pure i
  | none =>
      refine masked_newBlock_pc fun _ => .bind masked_getBlock fun block => ?_
      cases block with
      | some i => exact .of_pure i
      | none => exact .of_throw _

/-- A block is entered at the low word of the program counter. -/
lemma masked_enterBlock :
    Prog.Commutes maskPc (enterBlock m : CpuM MipsTlbDummy δ MipsCacheBlock) := by
  have hclear : Prog.Commutes maskPc (executeCacheClear m : CpuM MipsTlbDummy δ Unit) := by
    refine .of_modify fun s => ?_
    dsimp only [maskPc]
    split <;> rfl
  have hderef : ∀ i, Prog.Commutes maskPc
      (derefBlock i : CpuM MipsTlbDummy δ MipsCacheBlock) := by
    intro i s
    simp only [derefBlock, maskPc]
    cases s.cache.deref i <;> rfl
  exact .bind hclear fun _ => .bind masked_getOrBuildBlock hderef

lemma low_enterBlock : Prog.Noninterfering (fun s => s.maskPc.lowWords)
    (enterBlock m : CpuM MipsTlbDummy δ MipsCacheBlock) :=
  free_enterBlock.noninterfering.comp masked_enterBlock

/-- Behind an instruction there is nothing but the low word. -/
lemma masked_runEntry {entry : MipsCacheEntry} {s u : MipsBase MipsTlbDummy δ}
    (h : runEntry m entry s = .ok ((), u)) : u.maskPc = u := by
  obtain ⟨⟨⟩, t, -, hset⟩ := Prog.bind_ok.mp h
  rw [← Prog.state_eq hset]
  change { t with pc := t.nextPc &&& 0xFFFFFFFF &&& 0xFFFFFFFF } = _
  rw [and_mask_twice]

end Masked

/-! ## The same addresses -/

/-- A bus that notes the address of every access; all instruction words are the same. -/
def notingBus (word : BitVec 32) : BusBase (List (BitVec 64)) where
  fetch d address := (word, address :: d)
  load8 d address := ⟨some 0, address :: d, []⟩
  load16 d address := ⟨some 0, address :: d, []⟩
  load32 d address := ⟨some 0, address :: d, []⟩
  load64 d address := ⟨some 0, address :: d, []⟩
  store8 d address _ := ⟨(), address :: d, []⟩
  store16 d address _ := ⟨(), address :: d, []⟩
  store32 d address _ := ⟨(), address :: d, []⟩
  store64 d address _ := ⟨(), address :: d, []⟩
  getInterrupt _ := false

/-- The second processor on that bus. -/
def notingSetup (word : BitVec 32) (cached : Bool) : MipsSetup (List (BitVec 64)) :=
  { bareSetup (notingBus word) { useCachedInterpreter := cached } with
    kIs64Bit := false, kHasCop0 := false }

/-- At a program counter, with a base in register 1. -/
def baseState (pc base : BitVec 64) : MipsBase MipsTlbDummy (List (BitVec 64)) where
  tlb := {}
  device := []
  pc := pc
  nextPc := pc + 4
  gpr := fun idx => if idx = 1 then base else 0

/-- The sum of base and offset, modulo `2 ^ 32`. -/
def lowSum (opcode : BitVec 32) (s : MipsBase MipsTlbDummy δ) : BitVec 32 :=
  (s.gpr (rsField opcode)).setWidth 32 + sextItypeImmI32 opcode

/-- The addresses on the bus are reduced: that of a fetch depends on the program counter modulo
`2 ^ 32`, that of a load on the sum of base and offset modulo `2 ^ 32`. -/
structure Reduced (m : MipsSetup (List (BitVec 64))) : Prop where
  fetch : ∀ s s' : MipsBase MipsTlbDummy (List (BitVec 64)), s.device = s'.device →
    SameLow s.pc s'.pc → (lastState (runInst m) s).device = (lastState (runInst m) s').device
  load : ∀ (opcode opcode' : BitVec 32) (s s' : MipsBase MipsTlbDummy (List (BitVec 64))),
    decode opcode = .kLw → decode opcode' = .kLw → s.device = s'.device →
      lowSum opcode s = lowSum opcode' s' →
        (lastState (callInst m opcode .kLw) s).device =
          (lastState (callInst m opcode' .kLw) s').device

lemma sameLow_of_eq {a b : BitVec 64} (h : a.setWidth 32 = b.setWidth 32) : SameLow a b := h

/-- A processor with one value in all registers. -/
def rspWith (value : BitVec 64) : MipsBase MipsTlbDummy WordMemory where
  tlb := {}
  device := []
  gpr := fun _ => value

end MipsBase

end NgMips
