import NgMips.Lib.Text
import NgMips.Source.Disassemble
import NgMips.Source.Machine
import Mathlib.Data.List.Nodup

/-!
# What the text of an instruction tells

Two instruction words with the same text do the same on every machine, with one exception: a text
of the R-type with a shift amount has no `rs`, and of the instructions with that text only the
shifts by a constant, `syscall`, `break`, `mfhi` and `mflo` leave `rs` alone.

The first word of a text is the name of the instruction, and names are not shared.  What follows is
taken apart at its separators.  For most instructions the parts give back every field of the word,
so the two words are one; for the others they give back the fields the handler reads.
-/

namespace NgMips

/-! ## The forms of a text -/

/-- What follows the name of an instruction in its text. -/
inductive TextForm where
  | rType | jType | immArithmetic | lui | condBranchWithRt | condBranchWithoutRt | memoryAccess
  | nameOnly | decodeError
deriving DecidableEq, Repr

def MipsInstId.textForm : MipsInstId → TextForm
  | .kSll | .kSrl | .kSra | .kSllv | .kSrav | .kJr | .kJalr | .kSyscall | .kBreak | .kMfhi | .kMthi
  | .kMflo | .kMtlo | .kMult | .kMultu | .kDiv | .kDivu | .kAdd | .kAddu | .kSub | .kSubu | .kAnd
  | .kOr | .kXor | .kNor | .kSlt | .kSltu => .rType
  | .kJ | .kJal => .jType
  | .kAddi | .kAddiu | .kAndi | .kOri | .kXori | .kSlti | .kSltiu => .immArithmetic
  | .kLui => .lui
  | .kBeq | .kBne | .kBeql | .kBnel => .condBranchWithRt
  | .kBgez | .kBgtz | .kBlez | .kBltz => .condBranchWithoutRt
  | .kLb | .kLbu | .kLh | .kLhu | .kLw | .kLwl | .kLwr | .kLl | .kLld | .kSb | .kSh | .kSw | .kSc
  | .kScd => .memoryAccess
  | .kSync | .kNop => .nameOnly
  | _ => .decodeError

def TextForm.text (opcode : BitVec 32) : TextForm → String
  | .rType => disassembleRType opcode
  | .jType => disassembleJType opcode
  | .immArithmetic => disassembleImmArithmetic opcode
  | .lui => disassembleLui opcode
  | .condBranchWithRt => disassembleCondBranchWithRt opcode
  | .condBranchWithoutRt => disassembleCondBranchWithoutRt opcode
  | .memoryAccess => disassembleMemoryAccess opcode
  | .nameOnly => getInstName opcode
  | .decodeError => "Decode error " ++ hex8 opcode ++ " (" ++ getInstName opcode ++ ")"

lemma disassemble_eq_text (opcode : BitVec 32) :
    disassemble opcode = (decode opcode).textForm.text opcode := by
  have hname : getInstName opcode = (decode opcode).instName := rfl
  unfold disassemble
  generalize decode opcode = id at hname ⊢
  cases id
  case kSync => exact hname.symm
  case kNop => exact hname.symm
  all_goals rfl

/-! ## Names -/

section Names

/-- Every decoded instruction. -/
def allInsts : List MipsInstId := (List.range 115).map MipsInstId.ofNat

lemma mem_allInsts (id : MipsInstId) : id ∈ allInsts := by
  have hlt : id.ctorIdx < 115 := by cases id <;> decide
  exact List.mem_map.mpr ⟨id.ctorIdx, List.mem_range.mpr hlt, id.ofNat_ctorIdx⟩

lemma instName_inj {id id' : MipsInstId} (h : id.instName = id'.instName) : id = id' := by
  have hnodup : (allInsts.map MipsInstId.instName).Nodup := by decide +kernel
  exact List.inj_on_of_nodup_map hnodup (mem_allInsts id) (mem_allInsts id') h

lemma space_notMem_instName (id : MipsInstId) : ' ' ∉ id.instName.toList := by
  cases id <;> decide

lemma instName_ne_decode (id : MipsInstId) : id.instName ≠ "Decode" := by
  cases id <;> decide

lemma getMipsRegName_inj {r r' : BitVec 5} (h : getMipsRegName r = getMipsRegName r') :
    r = r' := by
  have hleft : ∀ r, BitVec.ofNat 5 (kMipsGprName.idxOf (getMipsRegName r)) = r := by decide
  rw [← hleft r, h, hleft r']

lemma comma_notMem_getMipsRegName (r : BitVec 5) : ',' ∉ (getMipsRegName r).toList := by
  revert r
  decide

/-- The name of a register is no number. -/
lemma getMipsRegName_ne_decimal (r : BitVec 5) (n : ℕ) : getMipsRegName r ≠ toString n := by
  have hletter : ∀ r, (getMipsRegName r).toList.all Char.isDigit = false := by decide
  intro h
  have hdigits : (getMipsRegName r).toList.all Char.isDigit = true := by
    rw [h, List.all_eq_true]
    exact fun c hc => isDigit_of_mem_decimal hc
  exact absurd hdigits (by simp [hletter])

end Names

/-! ## Numbers -/

lemma hexDigit_inj {x y : BitVec 4} (h : hexDigit x = hexDigit y) : x = y := by
  revert x y
  decide

lemma hex8_inj {x y : BitVec 32} (h : hex8 x = hex8 y) : x = y := by
  have hdigits := String.ofList_injective h
  rw [List.map_inj_left] at hdigits
  refine eq_of_groups (k := 4) (n := 8) (by omega) fun i hi => hexDigit_inj (hdigits i ?_)
  exact List.mem_reverse.mpr (List.mem_range.mpr hi)

lemma space_notMem_hex8 (x : BitVec 32) : ' ' ∉ (hex8 x).toList := by
  have hdigit : ∀ d : BitVec 4, hexDigit d ≠ ' ' := by decide
  intro h
  rw [hex8, String.toList_ofList, List.mem_map] at h
  obtain ⟨i, _, hi⟩ := h
  exact hdigit _ hi

lemma notMem_decimal {c : Char} (hc : c.isDigit = false) (n : ℕ) : c ∉ (toString n).toList :=
  fun h => absurd (isDigit_of_mem_decimal h) (by simp [hc])

lemma immText_inj {a b : BitVec 32} (h : immText a = immText b) : immField a = immField b :=
  BitVec.eq_of_toNat_eq (decimal_inj h)

/-! ## Taking a text apart -/

section Parts

variable {a b : BitVec 32}

/-- The first word of a text. -/
def firstWord (opcode : BitVec 32) : String :=
  if (decode opcode).textForm = .decodeError then "Decode" else getInstName opcode

lemma takeWhile_name (id : MipsInstId) (rest : String) :
    (id.instName ++ (" " ++ rest)).toList.takeWhile (· != ' ') = id.instName.toList :=
  takeWhile_append_sep (by rfl) (space_notMem_instName id) rest

/-- The text of a word without one of its own, as separated parts. -/
lemma text_decodeError (opcode : BitVec 32) : TextForm.decodeError.text opcode =
    "Decode" ++ (" " ++ ("error " ++ (hex8 opcode ++ (" (" ++ (getInstName opcode ++ ")"))))) := by
  have hparts : "Decode" ++ (" " ++ "error ") = "Decode error " := rfl
  show "Decode error " ++ hex8 opcode ++ " (" ++ getInstName opcode ++ ")" = _
  simp only [← hparts, String.append_assoc]

lemma takeWhile_disassemble (opcode : BitVec 32) :
    (disassemble opcode).toList.takeWhile (· != ' ') = (firstWord opcode).toList := by
  rw [disassemble_eq_text, firstWord, getInstName]
  cases hform : (decode opcode).textForm with
  | rType =>
    show (disassembleRType opcode).toList.takeWhile _ = _
    simp only [disassembleRType, getInstName, String.append_assoc]
    split <;> exact takeWhile_name _ _
  | jType =>
    show (disassembleJType opcode).toList.takeWhile _ = _
    simp only [disassembleJType, getInstName, String.append_assoc]
    exact takeWhile_name _ _
  | immArithmetic =>
    show (disassembleImmArithmetic opcode).toList.takeWhile _ = _
    simp only [disassembleImmArithmetic, getInstName, String.append_assoc]
    exact takeWhile_name _ _
  | lui =>
    show (disassembleLui opcode).toList.takeWhile _ = _
    simp only [disassembleLui, getInstName, String.append_assoc]
    exact takeWhile_name _ _
  | condBranchWithRt =>
    show (disassembleCondBranchWithRt opcode).toList.takeWhile _ = _
    simp only [disassembleCondBranchWithRt, getInstName, String.append_assoc]
    exact takeWhile_name _ _
  | condBranchWithoutRt =>
    show (disassembleCondBranchWithoutRt opcode).toList.takeWhile _ = _
    simp only [disassembleCondBranchWithoutRt, getInstName, String.append_assoc]
    exact takeWhile_name _ _
  | memoryAccess =>
    show (disassembleMemoryAccess opcode).toList.takeWhile _ = _
    simp only [disassembleMemoryAccess, getInstName, String.append_assoc]
    exact takeWhile_name _ _
  | nameOnly => exact takeWhile_eq_self (space_notMem_instName _)
  | decodeError =>
    rw [text_decodeError]
    exact takeWhile_append_sep (by rfl) (by decide) _

/-- Two words with the same text are decoded alike, unless neither has a text of its own. -/
lemma decode_eq_of_disassemble_eq (h : disassemble a = disassemble b) :
    decode a = decode b ∨
      (decode a).textForm = .decodeError ∧ (decode b).textForm = .decodeError := by
  have hfirst : firstWord a = firstWord b := by
    rw [← String.toList_inj, ← takeWhile_disassemble, ← takeWhile_disassemble, h]
  by_cases ha : (decode a).textForm = .decodeError
  · by_cases hb : (decode b).textForm = .decodeError
    · exact .inr ⟨ha, hb⟩
    · rw [firstWord, firstWord, if_pos ha, if_neg hb] at hfirst
      exact absurd hfirst.symm (instName_ne_decode _)
  · by_cases hb : (decode b).textForm = .decodeError
    · rw [firstWord, firstWord, if_neg ha, if_pos hb] at hfirst
      exact absurd hfirst (instName_ne_decode _)
    · rw [firstWord, firstWord, if_neg ha, if_neg hb] at hfirst
      exact .inl (instName_inj hfirst)

/-- A text of two parts after the name. -/
lemma twoParts_inj {name x x' y y' : String} (hx : ',' ∉ x.toList) (hx' : ',' ∉ x'.toList)
    (h : name ++ " " ++ x ++ ", " ++ y = name ++ " " ++ x' ++ ", " ++ y') : x = x' ∧ y = y' := by
  simp only [String.append_assoc, String.append_right_inj] at h
  exact append_sep_inj (by rfl) hx hx' h

/-- A text of three parts after the name. -/
lemma threeParts_inj {name x x' y y' z z' : String} (hx : ',' ∉ x.toList) (hx' : ',' ∉ x'.toList)
    (hy : ',' ∉ y.toList) (hy' : ',' ∉ y'.toList)
    (h : name ++ " " ++ x ++ ", " ++ y ++ ", " ++ z =
      name ++ " " ++ x' ++ ", " ++ y' ++ ", " ++ z') : x = x' ∧ y = y' ∧ z = z' := by
  simp only [String.append_assoc, String.append_right_inj] at h
  obtain ⟨hx, hrest⟩ := append_sep_inj (by rfl) hx hx' h
  exact ⟨hx, append_sep_inj (by rfl) hy hy' hrest⟩

/-- The fields an R-type instruction prints. -/
lemma fields_of_disassembleRType (hname : getInstName a = getInstName b)
    (h : disassembleRType a = disassembleRType b) :
    rdField a = rdField b ∧ rtField a = rtField b ∧ shamtField a = shamtField b ∧
      (shamtField a = 0 → rsField a = rsField b) := by
  have hreg := comma_notMem_getMipsRegName
  unfold disassembleRType at h
  rw [hname] at h
  split at h <;> rename_i ha <;> split at h <;> rename_i hb
  · obtain ⟨hrd, hrt, hshamt⟩ := threeParts_inj (hreg _) (hreg _) (hreg _) (hreg _) h
    refine ⟨getMipsRegName_inj hrd, getMipsRegName_inj hrt, ?_, fun h0 => absurd h0 ha⟩
    exact BitVec.eq_of_toNat_eq (decimal_inj hshamt)
  · exact absurd (threeParts_inj (hreg _) (hreg _) (hreg _) (hreg _) h).2.2.symm
      (getMipsRegName_ne_decimal _ _)
  · exact absurd (threeParts_inj (hreg _) (hreg _) (hreg _) (hreg _) h).2.2
      (getMipsRegName_ne_decimal _ _)
  · obtain ⟨hrd, hrs, hrt⟩ := threeParts_inj (hreg _) (hreg _) (hreg _) (hreg _) h
    push Not at ha hb
    exact ⟨getMipsRegName_inj hrd, getMipsRegName_inj hrt, ha.trans hb.symm,
      fun _ => getMipsRegName_inj hrs⟩

lemma address_of_disassembleJType (hname : getInstName a = getInstName b)
    (h : disassembleJType a = disassembleJType b) : addressField a = addressField b := by
  unfold disassembleJType at h
  rw [hname, String.append_right_inj] at h
  have haddress := congrArg BitVec.toNat (hex8_inj h)
  have ha := (addressField a).isLt
  have hb := (addressField b).isLt
  rw [BitVec.toNat_setWidth, BitVec.toNat_setWidth] at haddress
  exact BitVec.eq_of_toNat_eq (by omega)

lemma fields_of_disassembleImmArithmetic (hname : getInstName a = getInstName b)
    (h : disassembleImmArithmetic a = disassembleImmArithmetic b) :
    rtField a = rtField b ∧ rsField a = rsField b ∧ immField a = immField b := by
  have hreg := comma_notMem_getMipsRegName
  unfold disassembleImmArithmetic at h
  rw [hname] at h
  obtain ⟨hrt, hrs, himm⟩ := threeParts_inj (hreg _) (hreg _) (hreg _) (hreg _) h
  exact ⟨getMipsRegName_inj hrt, getMipsRegName_inj hrs, immText_inj himm⟩

lemma fields_of_disassembleCondBranchWithRt (hname : getInstName a = getInstName b)
    (h : disassembleCondBranchWithRt a = disassembleCondBranchWithRt b) :
    rsField a = rsField b ∧ rtField a = rtField b ∧ immField a = immField b := by
  have hreg := comma_notMem_getMipsRegName
  unfold disassembleCondBranchWithRt at h
  rw [hname] at h
  obtain ⟨hrs, hrt, himm⟩ := threeParts_inj (hreg _) (hreg _) (hreg _) (hreg _) h
  exact ⟨getMipsRegName_inj hrs, getMipsRegName_inj hrt, immText_inj himm⟩

lemma fields_of_disassembleLui (hname : getInstName a = getInstName b)
    (h : disassembleLui a = disassembleLui b) :
    rtField a = rtField b ∧ immField a = immField b := by
  have hreg := comma_notMem_getMipsRegName
  unfold disassembleLui at h
  rw [hname] at h
  obtain ⟨hrt, himm⟩ := twoParts_inj (hreg _) (hreg _) h
  exact ⟨getMipsRegName_inj hrt, immText_inj himm⟩

lemma fields_of_disassembleCondBranchWithoutRt (hname : getInstName a = getInstName b)
    (h : disassembleCondBranchWithoutRt a = disassembleCondBranchWithoutRt b) :
    rsField a = rsField b ∧ immField a = immField b := by
  have hreg := comma_notMem_getMipsRegName
  unfold disassembleCondBranchWithoutRt at h
  rw [hname] at h
  obtain ⟨hrs, himm⟩ := twoParts_inj (hreg _) (hreg _) h
  exact ⟨getMipsRegName_inj hrs, immText_inj himm⟩

lemma fields_of_disassembleMemoryAccess (hname : getInstName a = getInstName b)
    (h : disassembleMemoryAccess a = disassembleMemoryAccess b) :
    rtField a = rtField b ∧ immField a = immField b ∧ rsField a = rsField b := by
  have hreg := comma_notMem_getMipsRegName
  have hopen : ∀ n : ℕ, '(' ∉ (toString n).toList := notMem_decimal (by decide)
  unfold disassembleMemoryAccess at h
  rw [hname] at h
  simp only [String.append_assoc, String.append_right_inj] at h
  obtain ⟨hrt, hrest⟩ := append_sep_inj (by rfl) (hreg _) (hreg _) h
  obtain ⟨himm, hrs⟩ := append_sep_inj (by rfl) (hopen _) (hopen _) hrest
  rw [String.append_left_inj] at hrs
  exact ⟨getMipsRegName_inj hrt, immText_inj himm, getMipsRegName_inj hrs⟩

/-- A word without a text of its own is printed as it is. -/
lemma eq_of_decodeError (ha : (decode a).textForm = .decodeError)
    (hb : (decode b).textForm = .decodeError) (h : disassemble a = disassemble b) : a = b := by
  rw [disassemble_eq_text, disassemble_eq_text, ha, hb] at h
  rw [text_decodeError, text_decodeError, String.append_right_inj, String.append_right_inj,
    String.append_right_inj] at h
  exact hex8_inj (append_sep_inj (by rfl) (space_notMem_hex8 a) (space_notMem_hex8 b) h).1

end Parts

/-! ## The word behind the fields -/

section Words

variable {a b : BitVec 32}

lemma eq_of_rTypeFields (hop : opField a = opField b) (hrs : rsField a = rsField b)
    (hrt : rtField a = rtField b) (hrd : rdField a = rdField b)
    (hshamt : shamtField a = shamtField b) (hfunct : functField a = functField b) : a = b := by
  have hop := congrArg BitVec.toNat hop
  have hrs := congrArg BitVec.toNat hrs
  have hrt := congrArg BitVec.toNat hrt
  have hrd := congrArg BitVec.toNat hrd
  have hshamt := congrArg BitVec.toNat hshamt
  have hfunct := congrArg BitVec.toNat hfunct
  simp only [opField, rsField, rtField, rdField, shamtField, functField, BitVec.extractLsb'_toNat,
    Nat.shiftRight_eq_div_pow] at hop hrs hrt hrd hshamt hfunct
  exact BitVec.eq_of_toNat_eq (by omega)

lemma eq_of_iTypeFields (hop : opField a = opField b) (hrs : rsField a = rsField b)
    (hrt : rtField a = rtField b) (himm : immField a = immField b) : a = b := by
  have hop := congrArg BitVec.toNat hop
  have hrs := congrArg BitVec.toNat hrs
  have hrt := congrArg BitVec.toNat hrt
  have himm := congrArg BitVec.toNat himm
  simp only [opField, rsField, rtField, immField, BitVec.extractLsb'_toNat,
    Nat.shiftRight_eq_div_pow] at hop hrs hrt himm
  exact BitVec.eq_of_toNat_eq (by omega)

lemma eq_of_jTypeFields (hop : opField a = opField b) (haddress : addressField a = addressField b) :
    a = b := by
  have hop := congrArg BitVec.toNat hop
  have haddress := congrArg BitVec.toNat haddress
  simp only [opField, addressField, BitVec.extractLsb'_toNat,
    Nat.shiftRight_eq_div_pow] at hop haddress
  exact BitVec.eq_of_toNat_eq (by omega)

/-- The operation codes that leave the instruction to another field. -/
def sharedOps : List (BitVec 6) :=
  [0b000000#6, 0b000001#6, 0b010000#6, 0b010001#6, 0b010010#6, 0b010011#6]

/-- Elsewhere the operation code is the whole instruction. -/
lemma decode_congr_op (hop : opField a ∉ sharedOps) (h : opField a = opField b) :
    decode a = decode b := by
  unfold decode
  rw [← h]
  generalize opField a = op at hop
  split
  all_goals first | rfl | exact absurd (by decide) hop

/-- The forms that print every field beside the operation code. -/
def fullForms : List TextForm := [.jType, .immArithmetic, .condBranchWithRt, .memoryAccess]

lemma textForm_decodeTypeR (raw : BitVec 32) :
    (decodeTypeR raw).textForm ∈ [TextForm.rType, .nameOnly, .decodeError] := by
  unfold decodeTypeR
  split
  · decide
  · split
    · decide
    · split <;> decide

lemma textForm_decodeCondBranch (raw : BitVec 32) :
    (decodeCondBranch raw).textForm ∈ [TextForm.condBranchWithoutRt, .decodeError] := by
  unfold decodeCondBranch
  dsimp only
  split_ifs <;> decide

lemma textForm_decodeCopBranch (raw : BitVec 32) :
    (decodeCopBranch raw).textForm = .decodeError := by
  unfold decodeCopBranch
  split <;> rfl

lemma textForm_decodeCop (raw : BitVec 32) : (decodeCop raw).textForm = .decodeError := by
  unfold decodeCop
  split
  all_goals first | rfl | exact textForm_decodeCopBranch raw

/-- The form of an instruction whose operation code is shared. -/
lemma textForm_of_shared (h : opField a ∈ sharedOps) :
    (decode a).textForm ∉ fullForms ∧ ((decode a).textForm = .rType → opField a = 0) := by
  simp only [sharedOps, List.mem_cons, List.not_mem_nil, or_false] at h
  have hcases : opField a = 0 ∧ decode a = decodeTypeR a ∨ decode a = decodeCondBranch a ∨
      decode a = decodeCop a := by
    unfold decode
    rcases h with h | h | h | h | h | h <;> simp [h]
  rcases hcases with ⟨h0, hd⟩ | hd | hd
  · have hform := textForm_decodeTypeR a
    rw [hd]
    refine ⟨fun hfull => ?_, fun _ => h0⟩
    generalize (decodeTypeR a).textForm = form at hform hfull
    cases form <;> simp [fullForms] at hform hfull
  · have hform := textForm_decodeCondBranch a
    rw [hd]
    generalize (decodeCondBranch a).textForm = form at hform
    cases form <;> simp [fullForms] at hform ⊢
  · rw [hd, textForm_decodeCop]
    simp [fullForms]

/-- An operation code on its own. -/
def opWord (op : BitVec 6) : BitVec 32 := op ++ 0#26

lemma opField_opWord (op : BitVec 6) : opField (opWord op) = op := by
  revert op
  decide

lemma decode_eq_opWord (h : opField a ∉ sharedOps) : decode a = decode (opWord (opField a)) :=
  decode_congr_op h (opField_opWord _).symm

/-- An instruction that prints every field beside its operation code has one operation code. -/
lemma opField_eq_of_full (hd : decode a = decode b) (h : (decode a).textForm ∈ fullForms) :
    opField a = opField b := by
  have hinj : ∀ op op' : BitVec 6, decode (opWord op) = decode (opWord op') →
      (decode (opWord op)).textForm ∈ fullForms → op = op' := by decide +kernel
  have ha : opField a ∉ sharedOps := fun hs => (textForm_of_shared hs).1 h
  have hb : opField b ∉ sharedOps := fun hs => (textForm_of_shared hs).1 (hd ▸ h)
  rw [decode_eq_opWord ha, decode_eq_opWord hb] at hd
  rw [decode_eq_opWord ha] at h
  exact hinj _ _ hd h

/-- An R-type instruction has the operation code 0. -/
lemma opField_of_rType (h : (decode a).textForm = .rType) : opField a = 0 := by
  by_cases hs : opField a ∈ sharedOps
  · exact (textForm_of_shared hs).2 h
  · have hother : ∀ op : BitVec 6, op ∉ sharedOps → (decode (opWord op)).textForm ≠ .rType := by
      decide
    rw [decode_eq_opWord hs] at h
    exact absurd h (hother _ hs)

/-- A function code on its own, with a destination that keeps it from being read as `nop`. -/
def functWord (funct : BitVec 6) : BitVec 32 := 0x20#26 ++ funct

lemma functField_functWord (funct : BitVec 6) : functField (functWord funct) = funct := by
  revert funct
  decide

lemma rdField_functWord (funct : BitVec 6) : rdField (functWord funct) ≠ 0 := by
  revert funct
  decide

lemma decode_eq_functWord (h : (decode a).textForm = .rType) :
    decode a = decodeTypeR (functWord (functField a)) := by
  have h0 := opField_of_rType h
  have hd : decode a = decodeTypeR a := by
    unfold decode
    simp [h0]
  rw [hd] at h ⊢
  have hrd := rdField_functWord (functField a)
  unfold decodeTypeR at h ⊢
  rw [functField_functWord]
  split at h
  · cases h
  rename_i hnop
  split at h
  · cases h
  rename_i hsync
  rw [if_neg hnop, if_neg hsync, if_neg (by tauto), if_neg (by tauto)]

lemma functField_eq_of_rType (hd : decode a = decode b) (h : (decode a).textForm = .rType) :
    functField a = functField b := by
  have hinj : ∀ f f' : BitVec 6, decodeTypeR (functWord f) = decodeTypeR (functWord f') →
      (decodeTypeR (functWord f)).textForm = .rType → f = f' := by decide +kernel
  have hb : (decode b).textForm = .rType := hd ▸ h
  have ha := decode_eq_functWord h
  rw [ha] at h
  exact hinj _ _ (ha.symm.trans (hd.trans (decode_eq_functWord hb))) h

end Words

/-! ## What the handlers read -/

/-- The R-type instructions that leave `rs` alone, whatever their shift amount is. -/
def MipsInstId.ignoresRs (id : MipsInstId) : Bool :=
  id ∈ [.kSll, .kSrl, .kSra, .kSyscall, .kBreak, .kMfhi, .kMflo]

/-- The text of the word has every field its handler reads. -/
def TextComplete (opcode : BitVec 32) : Prop :=
  (decode opcode).textForm = .rType → shamtField opcode = 0 ∨ (decode opcode).ignoresRs

namespace MipsBase

variable {T δ : Type} [MipsTlbBase T] (m : MipsSetup δ) {a b : BitVec 32}

lemma callInst_congr (hd : decode a = decode b)
    (h : callInst (T := T) m a (decode a) = callInst m b (decode a)) :
    callInst (T := T) m a (getInstFuncPtr m.kIs64Bit a) =
      callInst m b (getInstFuncPtr m.kIs64Bit b) := by
  unfold getInstFuncPtr
  rw [← hd]
  -- Without a handler both words panic.
  split
  · rfl
  · split
    · rfl
    · exact h

omit [MipsTlbBase T] in
lemma branchZ_congr {link likely : Bool} {cond : BitVec 64 → Bool} (hrs : rsField a = rsField b)
    (himm : immField a = immField b) :
    branchZ (T := T) m a link likely cond = branchZ m b link likely cond := by
  simp only [branchZ, branchIf, sextItypeImmBranch, sextItypeImmI32, hrs, himm]

omit [MipsTlbBase T] in
lemma shift32_congr {f : BitVec 32 → ℕ → BitVec 32} (hrd : rdField a = rdField b)
    (hrt : rtField a = rtField b) (hshamt : shamtField a = shamtField b) :
    shift32 (T := T) (δ := δ) a f = shift32 b f := by
  simp only [shift32, hrd, hrt, hshamt]

lemma callInst_ignoresRs (hid : (decode a).ignoresRs) (hrd : rdField a = rdField b)
    (hrt : rtField a = rtField b) (hshamt : shamtField a = shamtField b) :
    callInst (T := T) m a (decode a) = callInst m b (decode a) := by
  rw [MipsInstId.ignoresRs, decide_eq_true_iff] at hid
  simp only [List.mem_cons, List.not_mem_nil, or_false] at hid
  rcases hid with h | h | h | h | h | h | h <;> rw [h]
  · exact shift32_congr hrd hrt hshamt
  · exact shift32_congr hrd hrt hshamt
  · exact shift32_congr hrd hrt hshamt
  · rfl
  · rfl
  · simp only [callInst, instMfhi, hrd]
  · simp only [callInst, instMflo, hrd]

lemma callInst_condBranchWithoutRt (h : (decode a).textForm = .condBranchWithoutRt)
    (hrs : rsField a = rsField b) (himm : immField a = immField b) :
    callInst (T := T) m a (decode a) = callInst m b (decode a) := by
  have hid : ∀ id : MipsInstId, id.textForm = .condBranchWithoutRt →
      id ∈ [MipsInstId.kBgez, .kBgtz, .kBlez, .kBltz] := by
    intro id
    cases id <;> decide
  have hcases := hid _ h
  simp only [List.mem_cons, List.not_mem_nil, or_false] at hcases
  rcases hcases with h | h | h | h <;> rw [h] <;> exact branchZ_congr m hrs himm

lemma callInst_lui (h : (decode a).textForm = .lui) (hrt : rtField a = rtField b)
    (himm : immField a = immField b) :
    callInst (T := T) m a (decode a) = callInst m b (decode a) := by
  have hid : ∀ id : MipsInstId, id.textForm = .lui → id = .kLui := by
    intro id
    cases id <;> decide
  rw [hid _ h]
  simp only [callInst, instLui, hrt, himm]

lemma callInst_nameOnly (h : (decode a).textForm = .nameOnly) :
    callInst (T := T) m a (decode a) = callInst m b (decode a) := by
  have hid : ∀ id : MipsInstId, id.textForm = .nameOnly → id = .kSync ∨ id = .kNop := by
    intro id
    cases id <;> decide
  rcases hid _ h with h | h <;> rw [h] <;> rfl

/-- Two instruction words with the same text do the same, if the text has every field that is
read. -/
theorem callInst_of_disassemble (hcomplete : TextComplete a) (h : disassemble a = disassemble b) :
    callInst (T := T) m a (getInstFuncPtr m.kIs64Bit a) =
      callInst m b (getInstFuncPtr m.kIs64Bit b) := by
  have htext := h
  rcases decode_eq_of_disassemble_eq h with hd | ⟨ha, hb⟩
  · have hname : getInstName a = getInstName b := congrArg MipsInstId.instName hd
    rw [disassemble_eq_text, disassemble_eq_text, ← hd] at h
    refine callInst_congr m hd ?_
    cases hform : (decode a).textForm with
    | rType =>
      rw [hform] at h
      obtain ⟨hrd, hrt, hshamt, hrs⟩ := fields_of_disassembleRType hname h
      rcases hcomplete hform with h0 | hid
      · have hop : opField a = opField b :=
          (opField_of_rType hform).trans (opField_of_rType (hd ▸ hform)).symm
        have hfunct := functField_eq_of_rType hd hform
        rw [eq_of_rTypeFields hop (hrs h0) hrt hrd hshamt hfunct]
      · exact callInst_ignoresRs m hid hrd hrt hshamt
    | jType =>
      rw [hform] at h
      have hop := opField_eq_of_full hd (by simp [hform, fullForms])
      rw [eq_of_jTypeFields hop (address_of_disassembleJType hname h)]
    | immArithmetic =>
      rw [hform] at h
      have hop := opField_eq_of_full hd (by simp [hform, fullForms])
      obtain ⟨hrt, hrs, himm⟩ := fields_of_disassembleImmArithmetic hname h
      rw [eq_of_iTypeFields hop hrs hrt himm]
    | lui =>
      rw [hform] at h
      obtain ⟨hrt, himm⟩ := fields_of_disassembleLui hname h
      exact callInst_lui m hform hrt himm
    | condBranchWithRt =>
      rw [hform] at h
      have hop := opField_eq_of_full hd (by simp [hform, fullForms])
      obtain ⟨hrs, hrt, himm⟩ := fields_of_disassembleCondBranchWithRt hname h
      rw [eq_of_iTypeFields hop hrs hrt himm]
    | condBranchWithoutRt =>
      rw [hform] at h
      obtain ⟨hrs, himm⟩ := fields_of_disassembleCondBranchWithoutRt hname h
      exact callInst_condBranchWithoutRt m hform hrs himm
    | memoryAccess =>
      rw [hform] at h
      have hop := opField_eq_of_full hd (by simp [hform, fullForms])
      obtain ⟨hrt, himm, hrs⟩ := fields_of_disassembleMemoryAccess hname h
      rw [eq_of_iTypeFields hop hrs hrt himm]
    | nameOnly => exact callInst_nameOnly m hform
    | decodeError => rw [eq_of_decodeError hform (hd ▸ hform) htext]
  · rw [eq_of_decodeError ha hb h]

theorem shifts_of_disassemble :
    callInst (T := MipsTlbNormal) (n64Setup {}) 0x00021900 (getInstFuncPtr true 0x00021900) =
      callInst (n64Setup {}) 0x03E21900 (getInstFuncPtr true 0x03E21900) :=
  callInst_of_disassemble (T := MipsTlbNormal) (a := 0x00021900) (b := 0x03E21900) (n64Setup {})
    (fun _ => .inr (by decide)) (by decide)

end MipsBase

/-- The text of a shift by a register is not complete when the word has a shift amount. -/
example : disassemble 0x00021904 = disassemble 0x03E21904 := by decide

end NgMips
