import NgMips.Proofs.Kept
import NgMips.Proofs.Lockstep
import NgMips.Proofs.Nested
import NgMips.Proofs.Unaligned
import NgMips.Source.Machine

/-!
# An isolated cache

With `has_isolate_cache_bit_`, no store reaches the bus while `Status.IsC` is set.  Only a write to
`SR` clears the bit; exceptions and the returns from them keep it.  So a run that starts with the bit
set, and executes no write to `SR`, is the same on every bus that fetches and loads alike, whatever
the bus does when something is stored (`run_isolated`).
-/

namespace NgMips

variable {δ : Type}

/-- The processor on its own bus, but with the stores of another one. -/
def MipsSetup.withStores (m : MipsSetup δ) (b : BusBase δ) : MipsSetup δ :=
  { m with bus := { m.bus with
      store8 := b.store8, store16 := b.store16, store32 := b.store32, store64 := b.store64 } }

lemma MipsSetup.IsN64.withStores {m : MipsSetup δ} (hm : m.IsN64) (b : BusBase δ) :
    (m.withStores b).IsN64 := ⟨hm.is64Bit, hm.hasCop0, hm.cop0_free⟩

namespace MipsBase

variable {T : Type} {m : MipsSetup δ}

/-- `Status.IsC` is set. -/
def CacheIsolated (s : MipsBase T δ) : Prop := s.cop0.sr.getLsbD 16 = true

lemma CacheIsolated.of_sr {s t : MipsBase T δ} (h : CacheIsolated s)
    (hsr : t.cop0.sr = s.cop0.sr) : CacheIsolated t := by
  rw [CacheIsolated, hsr]
  exact h

variable [MipsTlbBase T]

/-! ## The bit is kept -/

section Bit

lemma CacheIsolated.exception (hm : m.IsN64) {cause : ExceptionCause} {s t : MipsBase T δ}
    (h : CacheIsolated s) (htrigger : triggerException m cause s = .ok ((), t)) :
    CacheIsolated t := by
  cases hexc : m.config.hasException with
  | false =>
      rw [triggerException, hexc, if_neg (by simp)] at htrigger
      exact Prog.state_eq htrigger ▸ h
  | true =>
      have hsr := (exception_cop0 hm hexc htrigger).2.1
      split at hsr
      · exact h.of_sr hsr
      · rw [CacheIsolated, hsr, BitVec.getLsbD_or, h, Bool.true_or]

/-- No command of coprocessor 0 changes the bit. -/
lemma cacheIsolated_command (opcode : BitVec 32) :
    Prog.Moves (fun s t => CacheIsolated s → CacheIsolated t)
      (cop0Command opcode : CpuM T δ Unit) := by
  have htlb : ∀ f : T → T, Prog.Moves (fun s t => CacheIsolated s → CacheIsolated t)
      (modifyTlb f : CpuM T δ Unit) := fun f => .of_modify fun _ h => h
  rw [cop0Command]
  split
  case h_3 =>
    refine .bind (fun _ _ _ h h' hs => h' (h hs)) (fun s a t hrandom h => ?_) fun _ => htlb _
    obtain ⟨state, rfl⟩ := readRandom_ok hrandom
    exact h
  case h_5 =>
    refine .of_modify fun s h => ?_
    change ((s.cop0.sr &&& ~~~0x0F#32) ||| (((s.cop0.sr &&& 0x3F) >>> 2) &&& 0xF)).getLsbD 16 = true
    rw [BitVec.getLsbD_or, BitVec.getLsbD_and, h]
    rfl
  case h_6 =>
    intro s a t heret h
    have hsr : t.cop0.sr = if s.cop0.erl then s.cop0.sr &&& ~~~4#32 else s.cop0.sr &&& ~~~2#32 := by
      rw [eret_run] at heret
      rw [← Prog.state_eq heret]
    rw [CacheIsolated, hsr]
    split <;> rw [BitVec.getLsbD_and, h] <;> rfl
  case h_7 => exact .of_pure (fun _ h => h) ()
  all_goals exact htlb _

variable (hm : m.IsN64) (hiso : m.config.hasIsolateCacheBit = true)

include hm

/-- Every instruction that does not write `SR` keeps the bit. -/
lemma CacheIsolated.callInst {opcode : BitVec 32} (hkeeps : writesReg m 12 opcode = false)
    {s t : MipsBase T δ} (h : CacheIsolated s)
    (hcall : callInst m opcode (getInstFuncPtr m.kIs64Bit opcode) s = .ok ((), t)) :
    CacheIsolated t := by
  by_cases hcommand : ∃ funct, isCop0Command m opcode funct = true
  · obtain ⟨funct, hc⟩ := hcommand
    exact cacheIsolated_command opcode s () t
      ((callInst_isCop0Command hm hc s).2.symm.trans hcall) h
  · rcases callInst_cases hm hcall with ⟨cause, t₀, -, hreport, htrigger⟩ | ⟨x, hx, hact⟩
    · have hstart : CacheIsolated t₀ := by cases hreport <;> exact h
      exact hstart.exception hm htrigger
    · refine act_regs (R := fun s s' => CacheIsolated s → CacheIsolated s') (fun s s' hstep h => ?_) hm
        (fun _ h => h) (fun _ _ _ h h' hs => h' (h hs)) hx hact h
      cases hstep with
      | keeps hkept => exact h.of_sr (by rw [hkept.cop0])
      | reads _ hcop0 _ _ =>
          refine h.of_sr ?_
          rw [hcop0, MipsCop0.getCount]
          split <;> rfl
      | @writes hcop hcommand idx hidx context value hwrite =>
          rw [hm.is64Bit] at hcommand hidx
          have hne : idx ≠ 12 := fun h =>
            copWriteIdx_ne hkeeps hcop hcommand (hidx.trans (by rw [h]; rfl))
          rw [cop0Write.eq_def] at hwrite
          split at hwrite
          case h_8 =>
            rw [← Prog.state_eq hwrite]
            refine h.of_sr ?_
            change (s.cop0.writeCount s.timestamp (value.setWidth 32)).sr = s.cop0.sr
            rw [MipsCop0.writeCount]
            split <;> rfl
          case h_10 =>
            rw [← Prog.state_eq hwrite]
            exact h
          case h_11 => exact absurd rfl hne
          all_goals
            rw [← Prog.state_eq hwrite]
            exact h
      | returns hcop hcom hfunct _ _ _ =>
          refine absurd ⟨functField opcode, ?_⟩ hcommand
          simp [isCop0Command, hcop, hcom]

include hiso in
lemma keptBy_cacheIsolated :
    KeptBy (T := T) m (fun opcode _ => writesReg m 12 opcode = false) CacheIsolated :=
  .of_registers hm (fun h hcop0 _ _ => h.of_sr (by rw [hcop0])) (fun h => h)
    (fun hno => absurd (hno.symm.trans hiso) (by simp)) (fun htrigger h => h.exception hm htrigger)
    fun {_ s _} hkeeps hcall h => (show CacheIsolated (started _ s) from h).callInst hm hkeeps hcall

end Bit

/-! ## The stores are not used -/

section Stores

variable (b : BusBase δ)

lemma collectEntries_withStores (n : ℕ) (address : BitVec 64) :
    collectEntries (T := T) (m.withStores b) n address = collectEntries m n address := by
  induction n generalizing address with
  | zero => rfl
  | succ n ih =>
      simp only [collectEntries, ih]
      rfl

lemma enterBlock_withStores : enterBlock (T := T) (m.withStores b) = enterBlock m := by
  have hbuild : ∀ address,
      buildBlock (T := T) (m.withStores b) address = buildBlock m address := by
    intro address
    rw [buildBlock, buildBlock, collectEntries_withStores]
  simp only [enterBlock, getOrBuildBlock, onNewBlock, hbuild]
  rfl

/-- Outside of its handlers the processor stores nothing. -/
lemma lockstep_withStores : Lockstep (T := T) m (m.withStores b) id 0 where
  mode := rfl
  width := rfl
  pc _ := rfl
  halt _ := rfl
  cycleSpent _ := rfl
  cycleSpentTotal _ _ := rfl
  started _ _ := rfl
  stepped _ _ := rfl
  counted _ _ := rfl
  poll _ _ := .of_eq rfl
  enterBlock s := .of_eq (congrFun (enterBlock_withStores b) s)
  fetch _ _ := .of_eq rfl

section Handlers

variable (hm : m.IsN64)

include hm

/-- What is done to read a register of a coprocessor keeps the bit. -/
lemma isolated_read {opcode : BitVec 32} {α : Type} {x : CpuM T δ α}
    (hx : ActOp m opcode .kSdc α x) : Prog.Keeps CacheIsolated (fun _ => True) x := by
  refine .of_moves (R := fun s t => CacheIsolated s → CacheIsolated t) (fun _ _ h => h)
    (regs_actOp (fun s s' hstep h => ?_) hm (fun _ _ _ h h' hs => h' (h hs)) α x hx)
  cases hstep with
  | keeps hkept => exact h.of_sr (by rw [hkept.cop0])
  | reads _ hcop0 _ _ =>
      refine h.of_sr ?_
      rw [hcop0, MipsCop0.getCount]
      split <;> rfl
  | writes _ _ hidx => exact absurd hidx (by simp [MipsInstId.copWriteIdx])
  | returns _ hcommand => exact absurd hcommand (by simp [isCopCommand])

variable (hiso : m.config.hasIsolateCacheBit = true)

include hiso

lemma isolated_storeWith {w : ℕ} (store store' : δ → BitVec 64 → BitVec w → Served δ Unit)
    (address : BitVec 64) (value : BitVec w) :
    Prog.EqOn CacheIsolated (fun _ => True) (storeWith (T := T) m store address value)
      (storeWith (m.withStores b) store' address value) := by
  intro s hs
  have hisolated : isIsolated m s = .ok (true, s) := by
    have hbit : s.cop0.sr.getLsbD 16 = true := hs
    rw [isIsolated_run hm, isolated, hiso, hbit]
    rfl
  have hdropped : storeWith m store address value s = .ok ((), s) := by
    rw [storeWith, Prog.bind_of_ok hisolated]
    rfl
  have hdropped' : storeWith (m.withStores b) store' address value s = .ok ((), s) := by
    rw [storeWith, Prog.bind_of_ok (show isIsolated (m.withStores b) s = _ from hisolated)]
    rfl
  refine ⟨hdropped'.trans hdropped.symm, fun _ t hrun => ⟨?_, trivial⟩⟩
  exact Prog.state_eq (hdropped.symm.trans hrun) ▸ hs

variable {s : MipsBase T δ} (hs : CacheIsolated s)

include hs

lemma instStore_withStores (opcode : BitVec 32) {w : ℕ} (mask : BitVec 64)
    (store store' : δ → BitVec 64 → BitVec w → Served δ Unit) :
    instStore (m.withStores b) opcode mask (storeWith (m.withStores b) store') s =
      instStore m opcode mask (storeWith m store) s := by
  have hread : ∀ idx, readGpr64 (m.withStores b) idx s = .ok (s.gpr idx, s) :=
    readGpr64_run (hm.withStores b) (s := s)
  rw [instStore, instStore, Prog.bind_of_ok (hread _), Prog.bind_of_ok (readGpr64_run hm _ s)]
  change (if isMisaligned m mask _ then _ else _ : CpuM T δ Unit) s = _
  split
  · rfl
  · rw [Prog.bind_of_ok (hread _), Prog.bind_of_ok (readGpr64_run hm _ s)]
    exact (isolated_storeWith b hm hiso store store' _ _ s hs).1

lemma storeBytes_withStores {w : ℕ} (address : ℕ → BitVec 64) (shamt : ℕ → ℕ) (count : ℕ)
    (value : BitVec w) :
    storeBytes (m.withStores b) address shamt count value s =
      storeBytes m address shamt count value s :=
  (Prog.EqOn.forM (fun _ => isolated_storeWith b hm hiso m.bus.store8 b.store8 _ _) _ s hs).1

lemma storeFromCop_withStores {opcode : BitVec 32} {w : ℕ} {x : CpuM T δ (BitVec w)}
    (hx : ActOp m opcode .kSdc (BitVec w) x)
    (store store' : δ → BitVec 64 → BitVec w → Served δ Unit) :
    storeFromCop (m.withStores b) opcode x (storeWith (m.withStores b) store') s =
      storeFromCop m opcode x (storeWith m store) s := by
  have hread : readGpr64 (m.withStores b) (rsField opcode) s = .ok (s.gpr (rsField opcode), s) :=
    readGpr64_run (hm.withStores b) _ s
  rw [storeFromCop, storeFromCop, Prog.bind_of_ok hread, Prog.bind_of_ok (readGpr64_run hm _ s)]
  have hsame : Prog.EqOn CacheIsolated (fun _ => True)
      (x >>= fun value => storeWith m store (s.gpr (rsField opcode) + sextItypeImmI64 opcode) value)
      (x >>= fun value => storeWith (m.withStores b) store'
        (s.gpr (rsField opcode) + sextItypeImmI64 opcode) value) :=
    (isolated_read hm hx).bind fun _ _ => isolated_storeWith b hm hiso store store' _ _
  exact (hsame s hs).1

omit hiso hs in
lemma whenCopEnabled_withStores {opcode : BitVec 32} {body body' : CpuM T δ Unit}
    (hbody : body' s = body s) :
    whenCopEnabled (m.withStores b) opcode body' s = whenCopEnabled m opcode body s := by
  have henabled := isCopEnabled_run hm (copId opcode) s
  rw [whenCopEnabled, whenCopEnabled, Prog.bind_of_ok henabled,
    Prog.bind_of_ok (show isCopEnabled (m.withStores b) _ s = _ from henabled)]
  split
  · exact hbody
  · rfl

/-- **With the bit set no handler asks the bus to store.** -/
lemma callInst_withStores (opcode : BitVec 32) (func : MipsInstId) :
    callInst (m.withStores b) opcode func s = callInst m opcode func s := by
  have hread : ∀ idx, readGpr64 (m.withStores b) idx s = .ok (s.gpr idx, s) := fun idx =>
    readGpr64_run (hm.withStores b) idx s
  cases func
  case kSb | kSh | kSw | kSd => exact instStore_withStores b hm hiso hs opcode _ _ _
  case kSwl =>
    change instSwl (m.withStores b) opcode s = instSwl m opcode s
    rw [instSwl, instSwl, Prog.bind_of_ok (hread _), Prog.bind_of_ok (readGpr64_run hm _ s),
      Prog.bind_of_ok (readGpr32_run _ s), Prog.bind_of_ok (readGpr32_run _ s)]
    exact storeBytes_withStores b hm hiso hs _ _ _ _
  case kSwr =>
    change instSwr (m.withStores b) opcode s = instSwr m opcode s
    rw [instSwr, instSwr, Prog.bind_of_ok (hread _), Prog.bind_of_ok (readGpr64_run hm _ s),
      Prog.bind_of_ok (readGpr32_run _ s), Prog.bind_of_ok (readGpr32_run _ s)]
    exact storeBytes_withStores b hm hiso hs _ _ _ _
  case kSdl =>
    change instSdl (m.withStores b) opcode s = instSdl m opcode s
    rw [instSdl, instSdl, Prog.bind_of_ok (hread _), Prog.bind_of_ok (readGpr64_run hm _ s),
      Prog.bind_of_ok (hread _), Prog.bind_of_ok (readGpr64_run hm _ s)]
    exact storeBytes_withStores b hm hiso hs _ _ _ _
  case kSdr =>
    change instSdr (m.withStores b) opcode s = instSdr m opcode s
    rw [instSdr, instSdr, Prog.bind_of_ok (hread _), Prog.bind_of_ok (readGpr64_run hm _ s),
      Prog.bind_of_ok (hread _), Prog.bind_of_ok (readGpr64_run hm _ s)]
    exact storeBytes_withStores b hm hiso hs _ _ _ _
  case kSwc =>
    have hread : ActOp m opcode .kSdc _ (copRead32 (T := T) m (copId opcode) (rtField opcode).toNat) :=
      .copRead32 _ rfl
    have hstored := storeFromCop_withStores b hm hiso hs hread m.bus.store32 b.store32
    change unlessOverridden (m.withStores b) opcode _ s = unlessOverridden m opcode _ s
    rw [unlessOverridden, unlessOverridden]
    change (if m.config.copDecodingOverride.getLsbD (copId opcode).toNat then _ else _ :
      CpuM T δ Unit) s = _
    split
    · rfl
    · exact whenCopEnabled_withStores b hm hstored
  case kSdc =>
    exact whenCopEnabled_withStores b hm
      (storeFromCop_withStores b hm hiso hs (.copRead64 _ rfl (.inr rfl)) m.bus.store64 b.store64)
  all_goals rfl

end Handlers

end Stores

/-- **An isolated cache hides the stores.**  A run from a state with the bit set, which executes no
write to `SR`, does not depend on what the bus does with a store; the bit is set whenever it calls a
handler, and at its end. -/
theorem run_isolated (hm : m.IsN64) (hiso : m.config.hasIsolateCacheBit = true) {fuel : ℕ}
    {cycle : ℤ} {s : MipsBase T δ} (hs : CacheIsolated s) (hd : DecodedBlocks m s.cache)
    (hwrites : ∀ d ∈ runCalls m fuel cycle s, writesReg m 12 d.opcode = false) :
    (∀ b, run (m.withStores b) fuel cycle s = run m fuel cycle s) ∧
      Throughout m fuel cycle s CacheIsolated := by
  have hset := (keptBy_cacheIsolated hm hiso).throughout (fun h => h) hd hs hwrites
  refine ⟨fun b => ?_, hset⟩
  have hrun := (lockstep_withStores b).run (.of_eq rfl)
    fun d hmem => .of_eq (callInst_withStores b hm hiso (hset.1 d hmem) d.opcode d.func)
  rw [Prog.Carries, id_eq] at hrun
  rw [hrun]
  cases run m fuel cycle s <;> rfl

/-! ## A store that is dropped -/

/-- The main processor with a cache that can be isolated. -/
def isolatingSetup : MipsSetup WordMemory :=
  n64Setup { hasException := true, hasIsolateCacheBit := true }

/-- `SW $1, 0($2)` and `SYSCALL`, with the cache isolated. -/
def storing : MipsBase MipsTlbNormal WordMemory :=
  { programState 0x80001000 0x1000 [0xAC410000, 0x0000000C] with
    gpr := Function.update (Function.update (fun _ => 0) 1 1) 2 0x80002000
    cop0 := { sr := 0x34010000 } }

/-- `run_isolated` on a program that stores a word and raises an exception: the word does not reach
memory. -/
theorem storing_isolated :
    (∀ b, run (isolatingSetup.withStores b) 10 4 storing = run isolatingSetup 10 4 storing) ∧
      returnedValue (run isolatingSetup 10 4) storing = some 4 ∧
      (lastState (run isolatingSetup 10 4) storing).device = storing.device := by
  have hd : DecodedBlocks isolatingSetup storing.cache := by
    intro e he
    exact absurd he (by simp [storing, programState])
  have hwrites : ∀ d ∈ runCalls isolatingSetup 10 4 storing,
      writesReg isolatingSetup 12 d.opcode = false := by decide +kernel
  have hiso : isolatingSetup.config.hasIsolateCacheBit = true := rfl
  have hisolated : CacheIsolated storing := show storing.cop0.sr.getLsbD 16 = true by decide
  have hsame := (run_isolated (n64Setup_isN64 _) hiso hisolated hd hwrites).1
  exact ⟨hsame, by decide +kernel, by decide +kernel⟩

end MipsBase

end NgMips
