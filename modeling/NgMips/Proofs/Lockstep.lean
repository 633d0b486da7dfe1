import NgMips.Proofs.Cycles

/-!
# Processors in lockstep

Two processors run in lockstep when one of them, started in a changed state, does what the other
does from the state itself, and the change is carried along.  What a run is made of outside its
handlers is listed in `Lockstep`; the handlers are compared one by one, in the states in which the
run calls them (`Lockstep.run`).  One of the processors may have spent some cycles already; then it
is given as many more (`Lockstep.runLoop`).
-/

namespace NgMips

variable {T δ : Type} [MipsTlbBase T]

/-- The handler is carried along where it is called. -/
def HandlerCall.Carried (m m' : MipsSetup δ) (c : MipsBase T δ → MipsBase T δ)
    (d : HandlerCall T δ) : Prop :=
  Prog.Carries c (MipsBase.callInst m d.opcode d.func) (MipsBase.callInst m' d.opcode d.func)
    d.state

namespace MipsBase

/-- From a state changed by `c`, in which `k` more cycles are spent, the second processor does
outside of its handlers what the first one does from the state itself. -/
structure Lockstep (m m' : MipsSetup δ) (c : MipsBase T δ → MipsBase T δ) (k : ℕ) : Prop where
  mode : m'.config.useCachedInterpreter = m.config.useCachedInterpreter
  width : m'.kIs64Bit = m.kIs64Bit
  pc : ∀ s, (c s).pc = s.pc
  halt : ∀ s, (c s).halt = s.halt
  cycleSpent : ∀ s, (c s).cycleSpent = s.cycleSpent + k
  cycleSpentTotal : ∀ s t,
    { c s with cycleSpentTotal := (c s).cycleSpentTotal + t } =
      c { s with cycleSpentTotal := s.cycleSpentTotal + t }
  started : ∀ opcode s, started opcode (c s) = c (started opcode s)
  stepped : ∀ mask s, stepped mask (c s) = c (stepped mask s)
  counted : ∀ executed s, counted m' executed (c s) = c (counted m executed s)
  poll : m.config.useCachedInterpreter = true → ∀ s, Prog.Carries c (poll m) (poll m') s
  enterBlock : ∀ s, Prog.Carries c (enterBlock m) (enterBlock m') s
  fetch : ∀ address s, Prog.Carries c (fetch m address) (fetch m' address) s

namespace Lockstep

variable {m m' : MipsSetup δ} {c : MipsBase T δ → MipsBase T δ} {k : ℕ} (h : Lockstep m m' c k)

include h

/-! ## Instructions and blocks -/

lemma execute {opcode : BitVec 32} {func : MipsInstId} {s : MipsBase T δ}
    (hcall : HandlerCall.Carried m m' c ⟨opcode, func, MipsBase.started opcode s⟩) :
    Prog.Carries c (execute m opcode func) (execute m' opcode func) s := by
  rw [Prog.Carries, execute_run, execute_run, h.started]
  exact hcall

lemma setPc (mask : BitVec 64) (s : MipsBase T δ) :
    Prog.Carries c (modify (MipsBase.stepped mask) : CpuM T δ Unit)
      (modify (MipsBase.stepped mask)) s := .of_modify (h.stepped mask s)

lemma countCycles (executed : ℕ) (s : MipsBase T δ) :
    Prog.Carries c (countCycles m executed) (countCycles m' executed) s :=
  .of_modify (h.counted executed s)

lemma runInst {s : MipsBase T δ} (hcalls : ∀ d ∈ instCalls m s, d.Carried m m' c) :
    Prog.Carries c (runInst m) (runInst m') s := by
  have hones : (modify fun s => { s with pc := s.nextPc } : CpuM T δ Unit) =
      modify (MipsBase.stepped (BitVec.allOnes 64)) := by
    refine congrArg modify (funext fun u => ?_)
    rw [MipsBase.stepped, BitVec.and_allOnes]
  rw [Prog.Carries, MipsBase.runInst, MipsBase.runInst, Prog.bind_of_ok (read_run _ _),
    Prog.bind_of_ok (read_run _ _), h.pc, h.width, hones]
  refine Prog.Carries.bind (h.fetch s.pc s) fun opcode t hfetch => .bind (h.execute ?_)
    fun _ u _ => .bind (h.setPc _ u) fun _ v _ => h.countCycles 1 v
  rw [instCalls, callsAfter_ok hfetch] at hcalls
  exact hcalls _ List.mem_cons_self

lemma runEntry {entry : MipsCacheEntry} {s : MipsBase T δ}
    (hcall : (entryCall entry s).Carried m m' c) :
    Prog.Carries c (runEntry m entry) (runEntry m' entry) s :=
  .bind (h.execute hcall) fun _ t _ => h.setPc 0xFFFFFFFF t

lemma runEntries {entries : List MipsCacheEntry} {s : MipsBase T δ}
    (hcalls : ∀ d ∈ entriesCalls m entries s, d.Carried m m' c) :
    Prog.Carries c (runEntries m entries) (runEntries m' entries) s := by
  induction entries generalizing s with
  | nil => exact .of_pure 0
  | cons entry rest ih =>
      rw [Prog.Carries, MipsBase.runEntries, MipsBase.runEntries,
        Prog.bind_of_ok (read_run _ _), Prog.bind_of_ok (read_run _ _), h.pc]
      rw [entriesCalls] at hcalls
      split
      · next hpc =>
          rw [if_pos hpc] at hcalls
          have hentry := h.runEntry (hcalls _ List.mem_cons_self)
          refine Prog.Carries.bind hentry fun _ t hrun => .bind (ih fun d hd => ?_) fun _ _ _ => rfl
          rw [callsAfter_ok hrun] at hcalls
          exact hcalls d (List.mem_cons_of_mem _ hd)
      · rfl

lemma runBlock {entries : List MipsCacheEntry} {s : MipsBase T δ}
    (hcalls : ∀ d ∈ blockCalls m entries s, d.Carried m m' c) :
    Prog.Carries c (runBlock m entries) (runBlock m' entries) s := by
  cases entries with
  | nil => exact .of_pure 0
  | cons entry rest =>
      rw [blockCalls] at hcalls
      have hentry := h.runEntry (hcalls _ List.mem_cons_self)
      refine .bind hentry fun _ t hrun => .bind (h.runEntries fun d hd => ?_) fun _ _ _ => rfl
      rw [callsAfter_ok hrun] at hcalls
      exact hcalls d (List.mem_cons_of_mem _ hd)

lemma runCachedBlock {s : MipsBase T δ} (hcalls : ∀ d ∈ cachedCalls m s, d.Carried m m' c) :
    Prog.Carries c (runCachedBlock m) (runCachedBlock m') s := by
  rw [runCachedBlock_eq, runCachedBlock_eq]
  refine .bind (h.enterBlock s) fun block t henter => .bind (h.runBlock fun d hd => ?_)
    fun executed u _ => h.countCycles executed u
  rw [cachedCalls, callsAfter_ok henter] at hcalls
  exact hcalls d hd

/-! ## Runs -/

/-- The cycles a halted processor lets pass. -/
lemma passCycles (cycle : ℤ) (s : MipsBase T δ) :
    MipsBase.passCycles (cycle + k) (c s) =
      (MipsBase.passCycles cycle s).map fun r => (r.1 + (k : ℤ), c r.2) := by
  have hleft : cycle + (k : ℤ) - ((c s).cycleSpent : ℤ) = cycle - (s.cycleSpent : ℤ) := by
    rw [h.cycleSpent]
    omega
  rw [MipsBase.passCycles, MipsBase.passCycles, Prog.bind_of_ok (read_run _ _),
    Prog.bind_of_ok (read_run _ _), hleft]
  split
  · next hcycle =>
      rw [if_pos (by omega)]
      exact congrArg (fun t => Except.ok (cycle + (k : ℤ), t)) (h.cycleSpentTotal s _)
  · next hcycle =>
      rw [if_neg (by omega)]
      change Except.ok (((c s).cycleSpent : ℤ), c s) = .ok ((s.cycleSpent : ℤ) + k, c s)
      rw [h.cycleSpent, Nat.cast_add]

/-- The loop, when its rounds are carried along. -/
lemma runLoop {before before' step step' : CpuM T δ Unit}
    {calls : MipsBase T δ → List (HandlerCall T δ)}
    (hbefore : ∀ s, Prog.Carries c before before' s)
    (hstep : ∀ s, (∀ d ∈ calls s, d.Carried m m' c) → Prog.Carries c step step' s) {cycle : ℤ}
    {n : ℕ} {s : MipsBase T δ}
    (hcalls : ∀ d ∈ loopCalls before step calls cycle n s, d.Carried m m' c) :
    runLoop before' step' (cycle + k) n (c s) =
      (runLoop before step cycle n s).map fun r => (r.1 + (k : ℤ), c r.2) := by
  induction n generalizing s with
  | zero => rfl
  | succ n ih =>
      have hless : ∀ t, ((c t).cycleSpent : ℤ) < cycle + k ↔ (t.cycleSpent : ℤ) < cycle := by
        intro t
        rw [h.cycleSpent]
        omega
      rw [MipsBase.runLoop, MipsBase.runLoop, Prog.bind_of_ok (read_run _ _),
        Prog.bind_of_ok (read_run _ _)]
      rw [loopCalls] at hcalls
      split
      · next hcycle =>
          rw [if_pos ((hless s).mp hcycle)] at hcalls ⊢
          rw [Prog.bind_run, Prog.bind_run, hbefore s]
          cases hrun : before s with
          | error e => rfl
          | ok r =>
              obtain ⟨⟨⟩, t⟩ := r
              rw [callsAfter_ok hrun] at hcalls
              change (read MipsBase.halt >>= _ : CpuM T δ ℤ) (c t) =
                ((read MipsBase.halt >>= _ : CpuM T δ ℤ) t).map _
              rw [Prog.bind_of_ok (read_run _ _), Prog.bind_of_ok (read_run _ _), h.halt]
              cases hhalt : t.halt with
              | true => exact h.passCycles cycle t
              | false =>
                  rw [hhalt, if_neg (by simp)] at hcalls
                  rw [if_neg (by simp), if_neg (by simp), Prog.bind_run, Prog.bind_run,
                    hstep t fun d hd => hcalls d (List.mem_append_left _ hd)]
                  cases hround : step t with
                  | error e => rfl
                  | ok r =>
                      rw [callsAfter_ok hround] at hcalls
                      exact ih fun d hd => hcalls d (List.mem_append_right _ hd)
      · next hcycle =>
          rw [if_neg (fun hlt => hcycle ((hless s).mpr hlt))]
          change Except.ok (((c s).cycleSpent : ℤ), c s) = .ok ((s.cycleSpent : ℤ) + k, c s)
          rw [h.cycleSpent, Nat.cast_add]

omit h in
/-- **Lockstep of whole runs.**  When what comes before the loop and every handler a run calls is
carried along, the run is. -/
theorem run (h : Lockstep m m' c 0) {fuel : ℕ} {cycle : ℤ} {s : MipsBase T δ}
    (hbegin : Prog.Carries c (beginRun m) (beginRun m') s)
    (hcalls : ∀ d ∈ runCalls m fuel cycle s, d.Carried m m' c) :
    Prog.Carries c (run m fuel cycle) (run m' fuel cycle) s := by
  rw [Prog.Carries] at hbegin ⊢
  rw [runCalls] at hcalls
  cases hrun : beginRun m s with
  | error e =>
      rw [hrun] at hbegin
      rw [run_begin_error hrun, run_begin_error hbegin]
      rfl
  | ok r =>
      obtain ⟨⟨⟩, t⟩ := r
      rw [hrun] at hbegin hcalls
      rw [run_begin hrun, run_begin hbegin, h.mode]
      have hzero : ∀ {before step before' step' : CpuM T δ Unit},
          MipsBase.runLoop before' step' (cycle + ((0 : ℕ) : ℤ)) fuel (c t) =
            (MipsBase.runLoop before step cycle fuel t).map (fun r => (r.1 + ((0 : ℕ) : ℤ), c r.2)) →
          MipsBase.runLoop before' step' cycle fuel (c t) =
            (MipsBase.runLoop before step cycle fuel t).map fun r => (r.1, c r.2) := by
        intro before step before' step' hloop
        simpa only [Nat.cast_zero, add_zero] using hloop
      cases hmode : m.config.useCachedInterpreter with
      | true =>
          rw [hmode] at hcalls
          exact hzero (h.runLoop (h.poll hmode) (fun u hu => h.runCachedBlock hu) hcalls)
      | false =>
          rw [hmode] at hcalls
          exact hzero (h.runLoop (fun u => .of_pure ()) (fun u hu => h.runInst hu) hcalls)

end Lockstep

end MipsBase

end NgMips
