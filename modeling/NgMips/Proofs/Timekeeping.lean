import NgMips.Proofs.Kept
import NgMips.Proofs.RunCycles

/-!
# The time a host keeps

A host drives the processor by calls of `Run`, and counts the cycles these return.  With a budget of
at most `2 ^ 30` cycles, for which the counters of the source do not overflow, no call stops short
of it or overshoots it by a round: an instruction, or a block with the idle loops it skips
(`roundCycles`).  A call whose budget is not positive returns 0.  So the timestamp of the processor
advances by the sum of what the calls returned (`calls_keepTime`).
-/

namespace NgMips

/-- What every block has when it is built: predecoded entries, one at least and no more than fit
in, and no branch but the last one and one in its delay slot. -/
structure BlockBuilt (kIs64Bit : Bool) (entries : List MipsCacheEntry) : Prop where
  decoded : ∀ entry ∈ entries, entry.Decoded kIs64Bit
  sized : 0 < entries.length ∧ entries.length ≤ kCacheBlockMaxLength
  branches : entries.countP (fun entry => isInstBranch entry.opcode) ≤ 2

namespace MipsBase

variable {T δ : Type} [MipsTlbBase T] {m : MipsSetup δ}

/-! ## Blocks -/

lemma branches_collectEntries (n : ℕ) (address : BitVec 64) :
    Prog.Keeps (fun _ => True)
      (fun entries => entries.countP (fun entry => isInstBranch entry.opcode) ≤ 2)
      (collectEntries (T := T) m n address) := by
  induction n generalizing address with
  | zero => exact .of_pure (by simp)
  | succ n ih =>
      have hfetch : ∀ address, Prog.Keeps (fun _ => True) (fun _ => True)
          (fetchEntry (T := T) m address) := fun address =>
        (decoded_fetchEntry address).mono fun _ _ => trivial
      refine (hfetch address).bind fun entry _ => ?_
      split
      · split
        · exact (hfetch _).bind fun slot _ => .of_pure List.countP_le_length
        · exact .of_pure (List.countP_le_length.trans (by simp))
      · next hbranch =>
          refine (ih (address + 4)).bind fun rest hrest => .of_pure ?_
          simpa only [List.countP_cons, hbranch, Bool.false_eq_true, if_false, Nat.add_zero]
            using hrest

lemma built_collectEntries (address : BitVec 64) :
    Prog.Keeps (fun _ => True) (BlockBuilt m.kIs64Bit)
      (collectEntries (T := T) m (kCacheBlockMaxLength - 1) address) := by
  intro s _
  refine ⟨rfl, fun entries t hrun => ⟨trivial, ?_⟩⟩
  have hsized := ((sized_collectEntries _ address s trivial).2 entries t hrun).2
  exact {
    decoded := ((decoded_collectEntries _ address s trivial).2 entries t hrun).2
    sized := ⟨hsized.1, hsized.2⟩
    branches := ((branches_collectEntries _ address s trivial).2 entries t hrun).2 }

/-- The handlers a block calls are those of its first entries. -/
lemma entriesCalls_first (entries : List MipsCacheEntry) (s : MipsBase T δ) :
    (entriesCalls m entries s).map (fun c => (c.opcode, c.func)) <+:
      entries.map fun entry => (entry.opcode, entry.func) := by
  induction entries generalizing s with
  | nil => exact List.nil_prefix
  | cons entry rest ih =>
      rw [entriesCalls]
      split
      · rw [List.map_cons, List.map_cons, callsAfter]
        split
        · exact (List.prefix_cons_inj _).mpr (ih _)
        · exact (List.prefix_cons_inj _).mpr List.nil_prefix
      · exact List.nil_prefix

lemma blockCalls_first (entries : List MipsCacheEntry) (s : MipsBase T δ) :
    (blockCalls m entries s).map (fun c => (c.opcode, c.func)) <+:
      entries.map fun entry => (entry.opcode, entry.func) := by
  cases entries with
  | nil => exact List.nil_prefix
  | cons entry rest =>
      rw [blockCalls, List.map_cons, List.map_cons, callsAfter]
      split
      · exact (List.prefix_cons_inj _).mpr (entriesCalls_first rest _)
      · exact (List.prefix_cons_inj _).mpr List.nil_prefix

/-- Only a branch skips an idle loop. -/
lemma isInstBranch_of_skips {c : HandlerCall T δ} (hc : c.func = getInstFuncPtr m.kIs64Bit c.opcode)
    (h : c.skips m = true) : isInstBranch c.opcode = true := by
  have hfunc : c.func = .kBeq ∨ c.func = .kJ := by
    obtain ⟨⟨hbeq, -⟩ | ⟨hj, -⟩, -⟩ := of_decide_eq_true h
    · exact .inl hbeq
    · exact .inr hj
  have hdecode : c.func = .kUnknown ∨ c.func = decode c.opcode := by
    rw [hc, getInstFuncPtr]
    split
    · exact .inl rfl
    · split
      · exact .inl rfl
      · exact .inr rfl
  rw [isInstBranch]
  rcases hdecode with hunknown | hdecode
  · rcases hfunc with h | h <;> exact absurd (hunknown.symm.trans h) (by simp)
  · rcases hfunc with h | h <;> rw [← hdecode, h] <;> rfl

/-- A block skips two idle loops at most. -/
lemma countP_skips_blockCalls {entries : List MipsCacheEntry} (h : BlockBuilt m.kIs64Bit entries)
    (s : MipsBase T δ) : (blockCalls m entries s).countP (HandlerCall.skips m) ≤ 2 := by
  have hprefix := (blockCalls_first (m := m) entries s).sublist
  have hskips : ∀ c ∈ blockCalls m entries s, c.skips m = true → isInstBranch c.opcode = true := by
    intro c hc
    have hmem := hprefix.subset (List.mem_map_of_mem hc)
    obtain ⟨entry, hentry, heq⟩ := List.mem_map.mp hmem
    obtain ⟨hopcode, hfunc⟩ := Prod.mk.inj heq
    exact isInstBranch_of_skips (hfunc ▸ hopcode ▸ h.decoded entry hentry)
  calc (blockCalls m entries s).countP (HandlerCall.skips m)
      ≤ (blockCalls m entries s).countP (fun c => isInstBranch c.opcode) :=
        List.countP_mono_left hskips
    _ = ((blockCalls m entries s).map fun c => (c.opcode, c.func)).countP
          (fun word => isInstBranch word.1) := by rw [List.countP_map]; rfl
    _ ≤ (entries.map fun entry => (entry.opcode, entry.func)).countP
          (fun word => isInstBranch word.1) := hprefix.countP_le
    _ = entries.countP (fun entry => isInstBranch entry.opcode) := by rw [List.countP_map]; rfl
    _ ≤ 2 := h.branches

/-! ## Rounds -/

section Rounds

variable (m)

/-- The instructions of one round at most. -/
def roundLength : ℕ := if m.config.useCachedInterpreter then kCacheBlockMaxLength else 1

/-- The idle loops one round skips at most. -/
def roundSkips : ℕ := if m.config.useCachedInterpreter then 2 else 1

/-- The cycles one round takes at most, with the fraction of a cycle left before it. -/
def roundCycles : ℕ := (255 + roundLength m * m.config.cpi.toNat) / 256 + 100 * roundSkips m

/-- The processor has less than a cycle left over, and blocks it built. -/
structure Paced (s : MipsBase T δ) : Prop where
  counter : s.cpiCounter < 256
  blocks : EachBlock (BlockBuilt m.kIs64Bit) s.cache

variable {m}

lemma roundCycles_pos : 0 < roundCycles m := by
  rw [roundCycles, roundSkips]
  split <;> omega

/-- What comes before a round takes no time, and a round no more than `roundCycles`. -/
structure PacedRound (m : MipsSetup δ) (before step : CpuM T δ Unit) : Prop where
  before_ok : ∀ {s t}, Paced m s → before s = .ok ((), t) → Paced m t ∧ t.cycleSpent = s.cycleSpent
  step_ok : ∀ {s u}, Paced m s → step s = .ok ((), u) →
    Paced m u ∧ u.cycleSpent ≤ s.cycleSpent + roundCycles m

/-- A round with no more handlers than a round has. -/
lemma spent_le {calls : List (HandlerCall T δ)} {s u : MipsBase T δ} (h : Accounts m calls s u)
    (hcounter : s.cpiCounter < 256) (hlength : calls.length ≤ roundLength m)
    (hskips : calls.countP (HandlerCall.skips m) ≤ roundSkips m) :
    u.cycleSpent ≤ s.cycleSpent + roundCycles m := by
  have hunits := h.units
  have hcost : calls.length * m.config.cpi.toNat ≤ roundLength m * m.config.cpi.toNat :=
    Nat.mul_le_mul_right _ hlength
  rw [units, units] at hunits
  rw [roundCycles]
  omega

lemma Paced.called {s t : MipsBase T δ} (h : Paced m s) (hcalled : Called m [] s t)
    (hblocks : EachBlock (BlockBuilt m.kIs64Bit) t.cache) :
    Paced m t ∧ t.cycleSpent = s.cycleSpent := by
  refine ⟨⟨?_, hblocks⟩, by simpa using hcalled.skipped.cycleSpent⟩
  rw [hcalled.skipped.cpiCounter]
  exact h.counter

lemma Paced.internals {α : Type} {x : CpuM T δ α} (hx : Internals m x) {a : α} {s t : MipsBase T δ}
    (h : Paced m s) (hrun : x s = .ok (a, t)) : Paced m t ∧ t.cycleSpent = s.cycleSpent :=
  h.called (called_internals hx s a t hrun) ((background_internals hx s a t hrun).cache ▸ h.blocks)

lemma blockBuilt_cacheKept : CacheKept T m (EachBlock (BlockBuilt m.kIs64Bit)) :=
  EachBlock.cacheKept built_collectEntries

lemma pacedRound_plain (hmode : m.config.useCachedInterpreter = false) :
    PacedRound (T := T) m (pure ()) (runInst m) where
  before_ok h hbefore := Prog.state_eq hbefore ▸ ⟨h, rfl⟩
  step_ok {s u} h hstep := by
    obtain ⟨haccounts, hone⟩ := accounts_runInst hstep
    have hlength : (instCalls m s).length ≤ roundLength m := by simp [hone, roundLength, hmode]
    have hskips : (instCalls m s).countP (HandlerCall.skips m) ≤ roundSkips m := by
      have hle := List.countP_le_length (p := HandlerCall.skips m) (l := instCalls m s)
      simpa [hone, roundSkips, hmode] using hle
    exact ⟨⟨haccounts.counter h.counter, blockBuilt_cacheKept.runInst s () u hstep h.blocks⟩,
      spent_le haccounts h.counter hlength hskips⟩

lemma pacedRound_cached (hmode : m.config.useCachedInterpreter = true) :
    PacedRound (T := T) m (poll m) (runCachedBlock m) where
  before_ok {s t} h hbefore :=
    h.called (moves_poll .refl (fun _ _ _ => .trans) called_internals
      (fun _ _ => .of_same rfl rfl id) s () t hbefore)
      ((background_poll s () t hbefore).cache ▸ h.blocks)
  step_ok {s u} h hstep := by
    have haccounts := accounts_runCachedBlock hstep
    have hblocks := blockBuilt_cacheKept.runCachedBlock s () u hstep h.blocks
    rw [runCachedBlock_eq] at hstep
    obtain ⟨block, t, henter, hrest⟩ := Prog.bind_ok.mp hstep
    obtain ⟨executed, v, hblock, hcount⟩ := Prog.bind_ok.mp hrest
    have hbuilt := ((keeps_enterBlock built_collectEntries s h.blocks).2 block t henter).2
    have hcalls : cachedCalls m s = blockCalls m block.entries t := callsAfter_ok henter
    have hlength : (cachedCalls m s).length ≤ roundLength m := by
      rw [hcalls, roundLength, if_pos hmode]
      exact (length_blockCalls block.entries t).2.trans hbuilt.sized.2
    have hskips : (cachedCalls m s).countP (HandlerCall.skips m) ≤ roundSkips m := by
      rw [hcalls, roundSkips, if_pos hmode]
      exact countP_skips_blockCalls hbuilt t
    exact ⟨⟨haccounts.counter h.counter, hblocks⟩, spent_le haccounts h.counter hlength hskips⟩

/-! ## Runs -/

omit [MipsTlbBase T] in
/-- A loop that begins in time, or less than a round later, ends less than a round late. -/
lemma loop_bound {before step : CpuM T δ Unit} (hround : PacedRound m before step) {cycle r : ℤ}
    {n : ℕ} {s s' : MipsBase T δ} (hs : Paced m s)
    (h : runLoop before step cycle n s = .ok (r, s')) :
    Paced m s' ∧ ((s.cycleSpent : ℤ) < cycle + roundCycles m → r < cycle + roundCycles m) := by
  have hpos := roundCycles_pos (m := m)
  induction n generalizing s with
  | zero => exact absurd h Prog.ok_ne_error.symm
  | succ n ih =>
      rw [runLoop, Prog.bind_of_ok (read_run _ _)] at h
      split at h
      · next hcycle =>
          obtain ⟨⟨⟩, t, hbefore, hrest⟩ := Prog.bind_ok.mp h
          obtain ⟨ht, hsame⟩ := hround.before_ok hs hbefore
          rw [Prog.bind_of_ok (read_run _ _)] at hrest
          split at hrest
          · -- A halted processor lets the cycles pass up to the end.
            rw [passCycles, Prog.bind_of_ok (read_run _ _)] at hrest
            split at hrest
            · obtain ⟨rfl, rfl⟩ := Prog.ok_inj hrest
              exact ⟨⟨ht.counter, ht.blocks⟩, fun _ => by omega⟩
            · obtain ⟨rfl, rfl⟩ := Prog.ok_inj hrest
              exact ⟨ht, fun _ => by omega⟩
          · obtain ⟨⟨⟩, u, hstep, hloop⟩ := Prog.bind_ok.mp hrest
            obtain ⟨hu, hle⟩ := hround.step_ok ht hstep
            obtain ⟨hs', hbound⟩ := ih hu hloop
            exact ⟨hs', fun _ => hbound (by omega)⟩
      · obtain ⟨rfl, rfl⟩ := Prog.ok_inj h
        exact ⟨hs, id⟩

variable (m) in
/-- What a call returns: `Run` the cycles it was given and less than a round more. -/
def InBudget : MipsCall δ → Option ℤ → Prop
  | .run _ cycle, some r =>
      r < 2 ^ 31 ∧ (cycle ≤ 0 ∧ r = 0 ∨ 0 < cycle ∧ cycle ≤ r ∧ r < cycle + roundCycles m)
  | .run _ _, none => False
  | _, spent => spent = none

/-- What comes before the loop takes no time. -/
lemma beginRun_paced {s t : MipsBase T δ} (hs : Paced m s) (h : beginRun m s = .ok ((), t)) :
    Paced m t ∧ t.cycleSpent = 0 := by
  have hzero : Paced m { s with cycleSpent := 0 } := ⟨hs.counter, hs.blocks⟩
  rw [beginRun] at h
  split at h
  · exact Prog.state_eq h ▸ ⟨hzero, rfl⟩
  · exact hzero.internals internal_begin h

lemma run_bound {fuel : ℕ} {cycle r : ℤ} {s s' : MipsBase T δ} (hs : Paced m s)
    (h : run m fuel cycle s = .ok (r, s')) :
    Paced m s' ∧ (0 < cycle → r < cycle + roundCycles m) := by
  have hpos := roundCycles_pos (m := m)
  obtain ⟨t, hbegin⟩ := run_begun h
  obtain ⟨ht, hzero⟩ := beginRun_paced hs hbegin
  rw [run_begin hbegin] at h
  split at h
  · next hmode =>
      obtain ⟨hs', hbound⟩ := loop_bound (pacedRound_cached hmode) ht h
      exact ⟨hs', fun _ => hbound (by omega)⟩
  · next hmode =>
      obtain ⟨hs', hbound⟩ := loop_bound (pacedRound_plain (by simpa using hmode)) ht h
      exact ⟨hs', fun _ => hbound (by omega)⟩

/-- Without cycles to take nothing is executed. -/
lemma run_nothing {fuel : ℕ} {cycle r : ℤ} {s s' : MipsBase T δ} (hs : Paced m s)
    (hcycle : cycle ≤ 0) (h : run m fuel cycle s = .ok (r, s')) :
    r = 0 ∧ s'.cycleSpentTotal = s.cycleSpentTotal := by
  obtain ⟨t, hbegin⟩ := run_begun h
  obtain ⟨-, hzero⟩ := beginRun_paced hs hbegin
  obtain ⟨before, step, calls, -, hrun, -⟩ := run_loop hbegin fuel cycle
  rw [hrun] at h
  cases fuel with
  | zero => exact absurd h Prog.ok_ne_error.symm
  | succ n =>
      rw [runLoop, Prog.bind_of_ok (read_run _ _), hzero, if_neg (by simpa using hcycle)] at h
      obtain ⟨rfl, rfl⟩ := Prog.ok_inj h
      have htime := (accounts_beginRun hbegin).timestamp
      rw [hzero] at htime
      exact ⟨rfl, by simpa using htime⟩

/-- A call of `Run` keeps within its budget but for a round, and the timestamp advances by what it
returns. -/
lemma run_inBudget {fuel : ℕ} {cycle r : ℤ} {s s' : MipsBase T δ} (hs : Paced m s)
    (hbudget : cycle ≤ 2 ^ 30) (h : run m fuel cycle s = .ok (r, s')) :
    InBudget m (.run fuel cycle) (some r) ∧
      s'.cycleSpentTotal = s.cycleSpentTotal + BitVec.ofInt 64 r := by
  by_cases hpos : 0 < cycle
  · obtain ⟨t, hbegin⟩ := run_begun h
    obtain ⟨ht, hzero⟩ := beginRun_paced hs hbegin
    obtain ⟨before, step, calls, hround, hrun, -⟩ := run_loop hbegin fuel cycle
    have hunits : (t.units : ℤ) < 256 * cycle + 2 ^ 24 := by
      have hcounter := ht.counter
      rw [units, hzero]
      omega
    have hbound := (run_bound hs h).2 hpos
    obtain ⟨u, p, haccounts, rfl, hend⟩ := loop_accounts hround
      (fun _ e he => (ht.blocks e he).sized) ht.counter hunits (hrun ▸ h)
    have haccounted :=
      accounted_of_loop hs.counter hbudget ((accounts_beginRun hbegin).trans haccounts) hend
    exact ⟨⟨haccounted.fits, .inr ⟨hpos, hend.reached, hbound⟩⟩, haccounted.timestamp⟩
  · obtain ⟨rfl, htime⟩ := run_nothing hs (not_lt.mp hpos) h
    exact ⟨⟨by decide, .inl ⟨not_lt.mp hpos, rfl⟩⟩, by simpa using htime⟩

/-! ## Calls -/

omit [MipsTlbBase T] in
lemma paced_new (tlb : T) (d : δ) : Paced m ({ tlb := tlb, device := d } : MipsBase T δ) :=
  ⟨Nat.zero_lt_succ _, EachBlock.reset⟩

lemma reset_cpiCounter (s : MipsBase T δ) : (reset m s).cpiCounter = 0 := by
  simp only [reset, resetCop_eq]

/-- No call leaves more than a fraction of a cycle over. -/
lemma perform_paced {call : MipsCall δ} {spent : Option ℤ} {s t : MipsBase T δ} (hs : Paced m s)
    (h : perform m call s = .ok (spent, t)) : Paced m t := by
  refine ⟨?_, blockBuilt_cacheKept.perform call s spent t h hs.blocks⟩
  cases call with
  | run fuel cycle =>
      obtain ⟨r, u, hrun, hpure⟩ := Prog.bind_ok.mp h
      exact Prog.state_eq hpure ▸ (run_bound hs hrun).1.counter
  | reset =>
      rw [← Prog.state_eq h, reset_cpiCounter]
      decide
  | setGpr idx value =>
      obtain ⟨-, gpr, -, rfl⟩ := perform_setGpr h
      exact hs.counter
  | _ => exact Prog.state_eq h ▸ hs.counter

/-- But for `Reset`, the timestamp advances by what a call returns. -/
lemma perform_inBudget {call : MipsCall δ} {spent : Option ℤ} {s t : MipsBase T δ} (hs : Paced m s)
    (hbudget : ∀ fuel cycle, call = .run fuel cycle → cycle ≤ 2 ^ 30)
    (h : perform m call s = .ok (spent, t)) :
    InBudget m call spent ∧
      (call ≠ .reset → t.cycleSpentTotal = s.cycleSpentTotal + BitVec.ofInt 64 (spent.getD 0)) := by
  cases call with
  | run fuel cycle =>
      obtain ⟨r, u, hrun, hpure⟩ := Prog.bind_ok.mp h
      obtain ⟨rfl, rfl⟩ := Prog.ok_inj hpure
      obtain ⟨hreturned, htime⟩ := run_inBudget hs (hbudget fuel cycle rfl) hrun
      exact ⟨hreturned, fun _ => htime⟩
  | reset =>
      obtain ⟨rfl, -⟩ := Prog.ok_inj h
      exact ⟨rfl, fun hno => absurd rfl hno⟩
  | setGpr idx value =>
      obtain ⟨rfl, gpr, -, rfl⟩ := perform_setGpr h
      exact ⟨rfl, fun _ => by simp⟩
  | _ =>
      obtain ⟨rfl, rfl⟩ := Prog.ok_inj h
      exact ⟨rfl, fun _ => by simp⟩

variable {calls : List (MipsCall δ)} {spent : List (Option ℤ)} {s u : MipsBase T δ}

/-- What a sequence of calls returns. -/
lemma performAll_inBudget (hs : Paced m s)
    (hbudget : ∀ fuel cycle, .run fuel cycle ∈ calls → cycle ≤ 2 ^ 30)
    (h : performAll m calls s = .ok (spent, u)) :
    List.Forall₂ (InBudget m) calls spent ∧
      (.reset ∉ calls → u.cycleSpentTotal =
        s.cycleSpentTotal + BitVec.ofInt 64 (spent.map fun r => r.getD 0).sum) := by
  induction calls generalizing s spent with
  | nil =>
      obtain ⟨rfl, rfl⟩ := Prog.ok_inj h
      exact ⟨.nil, fun _ => by simp⟩
  | cons call calls ih =>
      obtain ⟨r, t, hcall, hmore⟩ := Prog.bind_ok.mp h
      obtain ⟨rest, u', hrest, hpure⟩ := Prog.bind_ok.mp hmore
      obtain ⟨rfl, rfl⟩ := Prog.ok_inj hpure
      obtain ⟨hreturned, htime⟩ := perform_inBudget hs
        (fun fuel cycle heq => hbudget fuel cycle (heq ▸ List.mem_cons_self)) hcall
      obtain ⟨hall, htimes⟩ := ih (perform_paced hs hcall)
        (fun fuel cycle hmem => hbudget fuel cycle (List.mem_cons_of_mem _ hmem)) hrest
      refine ⟨.cons hreturned hall, fun hno => ?_⟩
      have hfirst := htime fun heq => hno (heq ▸ List.mem_cons_self)
      have hlater := htimes fun hmem => hno (List.mem_cons_of_mem _ hmem)
      rw [hlater, hfirst, List.map_cons, List.sum_cons, BitVec.ofInt_add, BitVec.add_assoc]

/-- A processor that was used since it was built. -/
lemma paced_of_calls {tlb : T} {d : δ} {earlier : List (MipsCall δ)} {spent₀ : List (Option ℤ)}
    (h : performAll m earlier { tlb := tlb, device := d } = .ok (spent₀, s)) : Paced m s :=
  performAll_keeps (fun _ _ _ _ _ => perform_paced) (paced_new tlb d) h

/-- **A host can keep the time.**  However a processor is used from the moment it is built, a
call of `Run` for up to `2 ^ 30` cycles takes them and less than one round more, and one for no
cycles returns at once; and until the next `Reset` the timestamp advances by the sum of what the
calls return. -/
theorem calls_keepTime {tlb : T} {d : δ} {earlier : List (MipsCall δ)} {spent₀ : List (Option ℤ)}
    (hbudget : ∀ fuel cycle, .run fuel cycle ∈ calls → cycle ≤ 2 ^ 30)
    (hstart : performAll m earlier { tlb := tlb, device := d } = .ok (spent₀, s))
    (hrun : performAll m calls s = .ok (spent, u)) :
    List.Forall₂ (InBudget m) calls spent ∧
      (.reset ∉ calls → u.cycleSpentTotal =
        s.cycleSpentTotal + BitVec.ofInt 64 (spent.map fun r => r.getD 0).sum) :=
  performAll_inBudget (paced_of_calls hstart) hbudget hrun

/-- A new processor at the idle loop. -/
def idleStart : MipsBase MipsTlbNormal WordMemory :=
  lastState (performAll cachedSetup [.setPc 0xFFFFFFFF80000000])
    { tlb := {}, device := idleLoop.device }

/-- It idles, is halted for a while, and idles again. -/
def idleCalls : List (MipsCall WordMemory) :=
  [.run 257 1, .setHalt true, .run 257 200, .setHalt false, .run 300 150]

/-- `calls_keepTime` on these calls. -/
theorem idleCalls_keepTime :
    (lastState (performAll cachedSetup idleCalls) idleStart).cycleSpentTotal =
      idleStart.cycleSpentTotal + 509 := by
  have hstart : performAll cachedSetup [.setPc 0xFFFFFFFF80000000]
      { tlb := {}, device := idleLoop.device } = .ok ([none], idleStart) :=
    run_of_returned (by decide +kernel)
  have hrun : performAll cachedSetup idleCalls idleStart =
      .ok ([some 103, none, some 200, none, some 206],
        lastState (performAll cachedSetup idleCalls) idleStart) :=
    run_of_returned (by decide +kernel)
  have hbudget : ∀ fuel cycle, .run fuel cycle ∈ idleCalls → cycle ≤ 2 ^ 30 := by
    intro fuel cycle hmem
    simp only [idleCalls, List.mem_cons, List.not_mem_nil, reduceCtorEq, MipsCall.run.injEq,
      false_or, or_false] at hmem
    omega
  exact (calls_keepTime hbudget hstart hrun).2 (by simp [idleCalls])

end Rounds

end MipsBase

end NgMips
