import NgMips.Proofs.EachBlock
import NgMips.Proofs.Word32
import NgMips.Source.Machine

/-!
# Runs of 32-bit code

A run that executes no instruction of the doubleword group keeps every register in 32-bit form,
in both interpreters and at every instruction boundary.  The cached interpreter executes what
its blocks say, so that the blocks have to be predecoded by this processor (`DecodedBlocks`),
which every run keeps.
-/

namespace NgMips

/-- Not the execution of an instruction of the doubleword group. -/
def Event.isWord : Event → Bool
  | preExecute _ opcode => !(decode opcode).isDoubleword
  | _ => true

lemma isDoubleword_getInstFuncPtr {kIs64Bit : Bool} {opcode : BitVec 32}
    (h : (decode opcode).isDoubleword = false) :
    (getInstFuncPtr kIs64Bit opcode).isDoubleword = false := by
  rw [getInstFuncPtr]
  split
  · rfl
  · split
    · rfl
    · exact h

/-- The two processors have the same handler for an instruction that both implement. -/
lemma getInstFuncPtr_narrow {opcode : BitVec 32} (h : (decode opcode).is64Only = false) :
    getInstFuncPtr false opcode = getInstFuncPtr true opcode := by
  simp [getInstFuncPtr, h]

namespace MipsBase

variable {T δ : Type} [MipsTlbBase T] {m : MipsSetup δ}

/-! ## Runs -/

/-- Predecoded blocks stay predecoded, and registers in 32-bit form stay so when nothing of the
doubleword group was executed. -/
def Keeps32 (m : MipsSetup δ) (s s' : MipsBase T δ) : Prop :=
  DecodedBlocks m s.cache → DecodedBlocks m s'.cache ∧
    ∃ new, s'.trace = new ++ s.trace ∧ ((∀ e ∈ new, e.isWord = true) → Form32 s → Form32 s')

namespace Keeps32

omit [MipsTlbBase T]

lemma refl (s : MipsBase T δ) : Keeps32 m s s := fun hd => ⟨hd, [], rfl, fun _ h => h⟩

lemma trans {s t u : MipsBase T δ} (h : Keeps32 m s t) (h' : Keeps32 m t u) : Keeps32 m s u := by
  intro hd
  obtain ⟨hdt, new, htrace, hform⟩ := h hd
  obtain ⟨hdu, new', htrace', hform'⟩ := h' hdt
  refine ⟨hdu, new' ++ new, by rw [htrace', htrace, List.append_assoc], fun hword hs => ?_⟩
  exact hform' (fun e he => hword e (List.mem_append_left _ he))
    (hform (fun e he => hword e (List.mem_append_right _ he)) hs)

/-- Parts of the state that do not matter here were changed. -/
lemma of_same {s s' : MipsBase T δ} (htrace : s'.trace = s.trace) (hcache : s'.cache = s.cache)
    (hregs : SameRegs s s') : Keeps32 m s s' :=
  fun hd => ⟨hcache ▸ hd, [], htrace, fun _ => Form32.of_sameRegs s s' hregs⟩

end Keeps32

omit [MipsTlbBase T] in
/-- Parts of a run that execute nothing write no register. -/
lemma keeps32_internals {α : Type} {x : CpuM T δ α} (hx : Internals m x) :
    Prog.Moves (Keeps32 m) x := by
  intro s a s' h hd
  have hback := background_internals hx s a s' h
  obtain ⟨new, htrace, -⟩ := hback.trace
  exact ⟨hback.cache ▸ hd, new, htrace, fun _ =>
    Form32.of_sameRegs s s' (sameRegs_internals hx s a s' h)⟩

/-- One instruction, from the report to the observer to the end of its handler. -/
lemma keeps32_callInst (hm : m.IsN64) {opcode : BitVec 32} {s t : MipsBase T δ}
    (h : callInst m opcode (getInstFuncPtr m.kIs64Bit opcode) (started opcode s) = .ok ((), t)) :
    Keeps32 m s t := by
  intro hd
  have hgrown := callInst_grown h
  obtain ⟨new, htrace, -⟩ := hgrown.trace
  refine ⟨?_, new ++ [.preExecute s.pc opcode], ?_, fun hword hs => ?_⟩
  · have hsame : t.cache.cache = s.cache.cache := hgrown.cache.same.cache
    intro e he
    exact hd e (hsame ▸ he)
  · rw [htrace, List.append_assoc]
    rfl
  · have hdouble : (decode opcode).isDoubleword = false := by
      simpa [Event.isWord] using
        hword (.preExecute s.pc opcode) (List.mem_append_right _ List.mem_cons_self)
    have hstart : Form32 (started opcode s) := .of_sameRegs s _ rfl hs
    exact (callInst_alike hm opcode (isDoubleword_getInstFuncPtr hdouble) _ hstart).2 t h

lemma keeps32_runEntry (hm : m.IsN64) {entry : MipsCacheEntry} (hentry : entry.Decoded m.kIs64Bit) :
    Prog.Moves (Keeps32 m) (runEntry (T := T) m entry) := by
  intro s a s' h
  obtain ⟨t, hcall, rfl⟩ := runEntry_ok.mp h
  rw [hentry] at hcall
  exact (keeps32_callInst hm hcall).trans (.of_same rfl rfl rfl)

lemma keeps32_runInst (hm : m.IsN64) : Prog.Moves (Keeps32 m) (runInst (T := T) m) := by
  intro s a s' h
  obtain ⟨opcode, t₀, t, hfetch, hcall, rfl⟩ := runInst_ok.mp h
  exact ((keeps32_internals (internal_fetch _) s opcode t₀ hfetch).trans
    (keeps32_callInst hm hcall)).trans (.of_same rfl rfl rfl)

/-- Entering a block leaves the registers alone, and the block is predecoded. -/
lemma keeps32_enterBlock {s t : MipsBase T δ} {block : MipsCacheBlock}
    (h : enterBlock m s = .ok (block, t)) : Keeps32 m s t ∧
      (DecodedBlocks m s.cache → ∀ entry ∈ block.entries, entry.Decoded m.kIs64Bit) := by
  obtain ⟨new, htrace⟩ := extends_enterBlock s block t h
  refine ⟨fun hd => ?_, fun hd => ?_⟩
  · have hregs : SameRegs s t := moves_enterBlock .refl (fun _ _ _ => .trans) sameRegs_internals
      (fun _ _ => rfl) s block t h
    exact ⟨((decoded_enterBlock s hd).2 block t h).1, new, htrace,
      fun _ => Form32.of_sameRegs s t hregs⟩
  · exact ((decoded_enterBlock s hd).2 block t h).2

lemma keeps32_runCachedBlock (hm : m.IsN64) :
    Prog.Moves (Keeps32 m) (runCachedBlock (T := T) m) := by
  intro s a s' h hd
  rw [runCachedBlock_eq] at h
  obtain ⟨block, t, henter, hrest⟩ := Prog.bind_ok.mp h
  obtain ⟨executed, u, hblock, hcount⟩ := Prog.bind_ok.mp hrest
  obtain ⟨hkeeps, hentries⟩ := keeps32_enterBlock henter
  have hblock' : Keeps32 m t u :=
    moves_runBlock .refl (fun _ _ _ => .trans)
      (fun entry he => keeps32_runEntry hm (hentries hd entry he)) t executed u hblock
  have hcount' : Keeps32 m u s' := by
    rw [← Prog.state_eq hcount]
    exact .of_same rfl rfl rfl
  exact (hkeeps.trans hblock').trans hcount' hd

lemma keeps32_beginRun {s t : MipsBase T δ} (h : beginRun m s = .ok ((), t)) :
    Keeps32 m s t := by
  rw [beginRun] at h
  split at h
  · rw [← Prog.state_eq h]
    exact .of_same rfl rfl rfl
  · have hbegin := keeps32_internals internal_begin _ () t h
    exact Keeps32.trans (t := { s with cycleSpent := 0 }) (.of_same rfl rfl rfl) hbegin

lemma keeps32_poll : Prog.Moves (Keeps32 m) (poll (T := T) m) :=
  moves_poll .refl (fun _ _ _ => .trans) keeps32_internals fun _ _ => .of_same rfl rfl rfl

lemma keeps32_run (hm : m.IsN64) (fuel : ℕ) (cycle : ℤ) :
    Prog.Moves (Keeps32 m) (run (T := T) m fuel cycle) := by
  have hloop : ∀ {before step : CpuM T δ Unit}, Prog.Moves (Keeps32 m) before →
      Prog.Moves (Keeps32 m) step → Prog.Moves (Keeps32 m) (runLoop before step cycle fuel) :=
    fun hbefore hstep => moves_runLoop .refl (fun _ _ _ => .trans)
      (fun _ _ => .of_same rfl rfl rfl) hbefore hstep cycle fuel
  have hzero : Prog.Moves (Keeps32 m)
      (modify fun s => { s with cycleSpent := 0 } : CpuM T δ PUnit) :=
    .of_modify fun _ => .of_same rfl rfl rfl
  rw [run]
  split
  · exact .bind (fun _ _ _ => .trans) hzero fun _ => hloop keeps32_poll
      (keeps32_runCachedBlock hm)
  · refine .bind (fun _ _ _ => .trans) hzero fun _ => ?_
    rw [← bind_assoc]
    exact .bind (fun _ _ _ => .trans) (keeps32_internals internal_begin) fun _ =>
      hloop (.of_pure .refl ()) (keeps32_runInst hm)

/-- An instruction boundary of a run. -/
lemma keeps32_runPoint (hm : m.IsN64) {fuel n k : ℕ} {cycle : ℤ} {s u : MipsBase T δ}
    {rest : List MipsCacheEntry} (h : RunPoint m fuel cycle s rest k n u) : Keeps32 m s u := by
  cases h with
  | plain hmode hbegin hloop hcycle hhalt hrun =>
      have hstart := hloop.moves .refl (fun _ _ _ => .trans)
        (.of_pure .refl ()) (keeps32_runInst hm)
      exact ((keeps32_beginRun hbegin).trans hstart).trans (keeps32_runInst hm _ () u hrun)
  | cached hmode hbegin hloop hcycle hpoll hhalt hblock hpoint =>
      have hstart := hloop.moves .refl (fun _ _ _ => .trans) keeps32_poll
        (keeps32_runCachedBlock hm)
      obtain ⟨henter, hentries⟩ := keeps32_enterBlock hblock
      have hbefore := ((keeps32_beginRun hbegin).trans hstart).trans (keeps32_poll _ () _ hpoll)
      intro hd
      have hpoint' := (hpoint.moves (fun _ _ _ => .trans) fun entry he =>
        keeps32_runEntry hm (hentries (hbefore hd).1 entry he)).1
      exact (hbefore.trans henter).trans hpoint' hd

/-! ## 32-bit code -/

/-- Between the two states no instruction of the doubleword group was executed. -/
def WordOnly (s u : MipsBase T δ) : Prop :=
  ∃ new, u.trace = new ++ s.trace ∧ ∀ e ∈ new, e.isWord = true

omit [MipsTlbBase T] in
lemma Keeps32.form32 {s u : MipsBase T δ} (h : Keeps32 m s u) (hd : DecodedBlocks m s.cache)
    (hword : WordOnly s u) (hs : Form32 s) : Form32 u := by
  obtain ⟨-, new, htrace, hform⟩ := h hd
  obtain ⟨new', htrace', hword'⟩ := hword
  obtain rfl := List.append_cancel_right (htrace.symm.trans htrace')
  exact hform hword' hs

/-- **32-bit code stays 32-bit.**  From registers in 32-bit form, a run keeps this form at
every instruction boundary up to which nothing of the doubleword group was executed, and at its
end; the blocks of the cache stay predecoded, so that this goes on with the next run.  On such
registers every instruction outside the group that the processor with 32-bit registers also
implements leaves the same values there: both handlers stop for the same reason, or both
succeed with the same registers. -/
theorem word32_kept (hm : m.IsN64) {s : MipsBase T δ} (hd : DecodedBlocks m s.cache)
    (hs : Form32 s) (fuel : ℕ) (cycle : ℤ) :
    (∀ rest k n u, RunPoint m fuel cycle s rest k n u → WordOnly s u → Form32 u) ∧
      (∀ r s', run m fuel cycle s = .ok (r, s') →
        DecodedBlocks m s'.cache ∧ (WordOnly s s' → Form32 s')) ∧
      ∀ opcode, (decode opcode).isDoubleword = false → (decode opcode).is64Only = false →
        (callInst m.narrow opcode (getInstFuncPtr m.narrow.kIs64Bit opcode) s).map
            (fun r => r.2.regs) =
          (callInst m opcode (getInstFuncPtr m.kIs64Bit opcode) s).map (fun r => r.2.regs) := by
  refine ⟨fun rest k n u hpoint hword => ?_, fun r s' hrun => ?_, fun opcode hdouble h64 => ?_⟩
  · exact (keeps32_runPoint hm hpoint).form32 hd hword hs
  · have hkeeps := keeps32_run hm fuel cycle s r s' hrun
    exact ⟨(hkeeps hd).1, fun hword => hkeeps.form32 hd hword hs⟩
  · have hfunc : getInstFuncPtr m.narrow.kIs64Bit opcode = getInstFuncPtr m.kIs64Bit opcode := by
      rw [hm.is64Bit]
      exact getInstFuncPtr_narrow h64
    rw [hfunc]
    exact (callInst_alike hm opcode (isDoubleword_getInstFuncPtr hdouble) s hs).1

/-- `LUI` of a word with bit 31 set, and a copy of it: `LUI $1, 0x8000; OR $2, $1, $0`. -/
def luiProgram : MipsBase MipsTlbNormal WordMemory :=
  programState 0xFFFFFFFF80000000 0 [0x3C018000, 0x00201025]

/-- `word32_kept` on a run of the cached interpreter. -/
theorem luiProgram_kept :
    ∃ s', run cachedSetup 2 1 luiProgram = .ok (94, s') ∧ Form32 s' ∧
      s'.gpr 2 = 0xFFFFFFFF80000000 := by
  have hrun : run cachedSetup 2 1 luiProgram =
      .ok (94, lastState (run cachedSetup 2 1) luiProgram) := run_of_returned (by decide +kernel)
  have hd : DecodedBlocks cachedSetup luiProgram.cache := by
    intro e he
    exact absurd he (by simp [luiProgram, programState])
  have hzero : ∀ v : BitVec 64, v = 0 → IsSext 32 v := by
    rintro v rfl
    rw [IsSext]
    decide
  have hs : Form32 luiProgram := ⟨rfl, fun _ => hzero _ rfl, hzero _ rfl, hzero _ rfl⟩
  refine ⟨_, hrun, ?_, by decide +kernel⟩
  refine (((word32_kept (n64Setup_isN64 _) hd hs 2 1).2.1 94 _ hrun).2) ?_
  refine ⟨(lastState (run cachedSetup 2 1) luiProgram).trace, ?_, by decide +kernel⟩
  exact (List.append_nil _).symm

end MipsBase

end NgMips
