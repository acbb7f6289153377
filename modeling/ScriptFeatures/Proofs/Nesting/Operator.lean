import ScriptFeatures.Proofs.Nesting.Name

/-! Operators as tokens of a scan. An operator is a mark or a word, and with a blank behind it a
scan reads no less and no more than the operator: the longer marks that begin with it do not go on
with a blank (`step_mark`), and a blank is no part of a word (`step_wordOperator`). What it counts
depends only on the list that it is in and on whether an operand stands before it
(`step_unaryOperator`, `step_leftOperator`, `step_rightOperator`). -/

namespace ScriptFeatures.Nesting

/-! ## Operators -/

/-- Operators before an operand. -/
def unaryOperators : List String :=
  ["!", "~", "+", "-", "++", "--", "typeof", "void", "delete", "new", "await", "yield"]

/-- Binary operators that group to the left. -/
def leftOperators : List String :=
  ["==", "!=", "===", "!==", "<", ">", "<=", ">=", "&&", "||", "??", "+", "-", "*", "/", "%", "&",
    "|", "^", "<<", ">>", ">>>", "in", "instanceof"]

/-- Binary operators that group to the right: assignments and the power. -/
def rightOperators : List String :=
  ["=", "+=", "-=", "*=", "/=", "%=", "**=", "<<=", ">>=", ">>>=", "&=", "|=", "^=", "&&=", "||=",
    "??=", "**"]

/-- Whether an operator is a mark. Those with a point in them are left out, since a point begins
numbers as well. -/
def IsMark (o : String) : Prop :=
  o.toList ∈ marks ∧ '.' ∉ o.toList

/-- Whether an operator is a word of ASCII characters. -/
def IsWord (o : String) : Prop :=
  o.toList.all (fun c => c.toNat < 0x80) = true ∧
    (utf8 o.toList).head?.any isWordStart = true ∧ (utf8 o.toList).all isWordByte = true

instance (o : String) : Decidable (IsMark o) :=
  inferInstanceAs (Decidable (_ ∧ _))

instance (o : String) : Decidable (IsWord o) :=
  inferInstanceAs (Decidable (_ ∧ _))

/-- White space that ends no line. -/
def lineBlanks : List UInt8 := [0x20, 0x09, 0x0B, 0x0C]

theorem stops_of_mem_lineBlanks {c : UInt8} (hc : c ∈ lineBlanks) : Stops c := by
  have hall : ∀ c ∈ lineBlanks, isBreakByte c = false ∧
      ∀ m ∈ marks, Char.ofNat c.toNat ∉ m.tail := List.all_iff_forall_prop.mp (by decide)
  exact ⟨(hall c hc).1, (hall c hc).2⟩

theorem isWordByte_of_mem_lineBlanks : ∀ c ∈ lineBlanks, isWordByte c = false :=
  List.all_iff_forall_prop.mp (by decide)

/-! ## Marks -/

/-- Whether a byte begins a mark and nothing else, a slash apart, which begins comments as well. -/
def isMarkStart (b : UInt8) : Bool :=
  !(isWordByte b || isBlankByte b ||
    [0x22, 0x27, 0x28, 0x29, 0x2E, 0x2F, 0x5B, 0x5D, 0x60, 0x7B, 0x7D].contains b)

theorem isMarkStart_iff {b : UInt8} : isMarkStart b = true ↔
    isWordByte b = false ∧ isBlankByte b = false ∧
      b ∉ [0x22, 0x27, 0x28, 0x29, 0x2E, 0x2F, 0x5B, 0x5D, 0x60, 0x7B, 0x7D] := by
  simp only [isMarkStart, Bool.not_eq_true', Bool.or_eq_false_iff, and_assoc,
    List.contains_eq_mem, decide_eq_false_iff_not]

/-- The first mark that begins a mark is the mark itself. -/
theorem readMark_utf8 : ∀ m ∈ marks, readMark (utf8 m) = (some (.of (String.ofList m)), []) := by
  decide

theorem readMark_utf8_append {m : List Char} (hm : m ∈ marks) {c : UInt8} (hc : Stops c)
    (after : List UInt8) :
    readMark (utf8 m ++ c :: after) = (some (.of (String.ofList m)), c :: after) := by
  have hne : ∀ m ∈ marks, utf8 m ≠ [] := by decide
  rw [readMark_append hc (hne m hm), readMark_utf8 m hm, List.nil_append]

namespace Scan

variable {s : Scan} {b c : UInt8} {rest after : List UInt8}

/-- A byte that begins a mark leaves it to the mark what is counted. -/
theorem step_of_mark (hb : isMarkStart b = true) {m : MarkClass}
    (hread : readMark (b :: rest) = (some m, after)) :
    s.step (b :: rest) = some ({ s.mark m with newline := false }, after) := by
  obtain ⟨hword, hblank, -⟩ := isMarkStart_iff.mp hb
  have hne (k : UInt8) (hk : isMarkStart k = false) : (b == k) = false :=
    beq_false_of_ne (ne_of_test hb hk)
  have hdigit : isDigitByte b = false :=
    Bool.eq_false_iff.mpr fun h => Bool.eq_false_iff.mp hword (isWordByte_of_isDigitByte h)
  have htoken : s.token b rest = (s.mark m, after) := by
    rw [token, hne 0x27 (by decide), hne 0x22 (by decide), hne 0x60 (by decide),
      hne 0x2E (by decide), hne 0x28 (by decide), hne 0x5B (by decide), hne 0x7B (by decide),
      hne 0x29 (by decide), hne 0x5D (by decide), hne 0x7D (by decide), hne 0x2F (by decide),
      hdigit, hword, hread]
    rfl
  rw [step_of_token hblank (ne_of_test hb (by decide)), htoken]

/-- So does a slash behind an operand that begins no comment. -/
theorem step_of_slashMark (hs : s.expect = .operator) (hline : b ≠ 0x2F) (hblock : b ≠ 0x2A)
    {m : MarkClass} (hread : readMark (0x2F :: b :: rest) = (some m, after)) :
    s.step (0x2F :: b :: rest) = some ({ s.mark m with newline := false }, after) := by
  have htoken : s.token 0x2F (b :: rest) = (s.mark m, after) := by
    rw [token, hs, hread]
    rfl
  have hhead {k : UInt8} (hk : b ≠ k) : (b :: rest).head? ≠ some k := mt Option.some.inj hk
  rw [step_of_slash (hhead hline) (hhead hblock), htoken]

/-- A mark with a blank behind it is counted as it is. -/
theorem step_mark {o : String} (ho : IsMark o) (hslash : '/' ∈ o.toList → s.expect = .operator)
    (hc : c ∈ lineBlanks) :
    s.step (utf8 o.toList ++ c :: rest) =
      some ({ s.mark (.of o) with newline := false }, c :: rest) := by
  obtain ⟨hmem, hpoint⟩ := ho
  have hread := readMark_utf8_append hmem (stops_of_mem_lineBlanks hc) rest
  rw [String.ofList_toList] at hread
  generalize o.toList = m at hmem hpoint hslash hread
  by_cases hm : '/' ∈ m
  · have hmarks : ∀ m ∈ marks, '/' ∈ m → m = ['/'] ∨ m = ['/', '='] := by decide
    obtain rfl | rfl := hmarks m hmem hm
    · have hcomment : ∀ c ∈ lineBlanks, c ≠ 0x2F ∧ c ≠ 0x2A :=
        List.all_iff_forall_prop.mp (by decide)
      exact step_of_slashMark (hslash hm) (hcomment c hc).1 (hcomment c hc).2 hread
    · exact step_of_slashMark (hslash hm) (by decide) (by decide) hread
  · have hmarks : ∀ m ∈ marks, '.' ∉ m → '/' ∉ m → (utf8 m).head?.any isMarkStart = true := by
      decide
    have hstart := hmarks m hmem hpoint hm
    cases hbytes : utf8 m with
    | nil =>
      rw [hbytes] at hstart
      cases hstart
    | cons b more =>
      rw [hbytes] at hread hstart
      exact step_of_mark hstart hread

/-! ## Words -/

/-- A word with a blank behind it is counted as it is. -/
theorem step_wordOperator {o : String} (ho : IsWord o) (hc : c ∈ lineBlanks) :
    s.step (utf8 o.toList ++ c :: rest) =
      some ({ s.word o with newline := false }, c :: rest) := by
  obtain ⟨hascii, hstart, hword⟩ := ho
  have htext : textOf (utf8 o.toList) = o := by
    rw [textOf_utf8 (List.all_iff_forall_prop.mp hascii), String.ofList_toList]
  have hblank : ¬isWordByte c = true := by
    rw [isWordByte_of_mem_lineBlanks c hc]
    exact Bool.false_ne_true
  cases hbytes : utf8 o.toList with
  | nil =>
    rw [hbytes] at hstart
    cases hstart
  | cons b more =>
    rw [hbytes] at htext hstart hword
    rw [List.all_eq_true, List.forall_mem_cons] at hword
    rw [List.cons_append, step_word hstart, List.takeWhile_append_of_pos hword.2,
      List.dropWhile_append_of_pos hword.2, List.takeWhile_cons_of_neg hblank,
      List.dropWhile_cons_of_neg hblank, List.append_nil, htext]

/-! ## What operators count -/

theorem startOperand_of_newline (h : s.newline = false) : s.startOperand = s := by
  rw [startOperand, h]
  rfl

theorem step_unaryOperator {o : String} (ho : o ∈ unaryOperators)
    (he : s.expect = .statement ∨ s.expect = .operand) (hnewline : s.newline = false)
    (hc : c ∈ lineBlanks) :
    s.step (utf8 o.toList ++ c :: rest) =
      some ({ s.addUnary.expecting .operand with newline := false }, c :: rest) := by
  have hall : ∀ o ∈ unaryOperators,
      IsMark o ∧ '/' ∉ o.toList ∧ MarkClass.of o ∈ [.not, .sign, .update] ∨
      IsWord o ∧ WordClass.of o = .unary := by decide
  have hstart := startOperand_of_newline hnewline
  obtain ⟨hmark, hslash, hclass⟩ | ⟨hword, hclass⟩ := hall o ho
  · have hcount : ∀ m ∈ [MarkClass.not, .sign, .update],
        s.mark m = s.addUnary.expecting .operand := by
      simp only [List.forall_mem_cons, mark, hstart]
      obtain he | he := he <;> simp [he]
    rw [step_mark hmark (fun h => absurd h hslash) hc, hcount _ hclass]
  · have hcount : s.word o = s.addUnary.expecting .operand := by
      rw [word, hclass]
      obtain he | he := he <;> simp [he, hstart]
    rw [step_wordOperator hword hc, hcount]

theorem step_leftOperator {o : String} (ho : o ∈ leftOperators) (he : s.expect = .operator)
    (hc : c ∈ lineBlanks) :
    s.step (utf8 o.toList ++ c :: rest) =
      some ({ s.addBinary.expecting .operand with newline := false }, c :: rest) := by
  have hall : ∀ o ∈ leftOperators, IsMark o ∧ MarkClass.of o ∈ [.binary, .sign] ∨
      IsWord o ∧ WordClass.of o = .relation := by decide
  obtain ⟨hmark, hclass⟩ | ⟨hword, hclass⟩ := hall o ho
  · have hcount : ∀ m ∈ [MarkClass.binary, .sign], s.mark m = s.addBinary.expecting .operand := by
      simp [mark, he]
    rw [step_mark hmark (fun _ => he) hc, hcount _ hclass]
  · have hcount : s.word o = s.addBinary.expecting .operand := by
      simp [word, hclass, he]
    rw [step_wordOperator hword hc, hcount]

theorem step_rightOperator {o : String} (ho : o ∈ rightOperators) (he : s.expect = .operator)
    (hc : c ∈ lineBlanks) :
    s.step (utf8 o.toList ++ c :: rest) =
      some ({ s.addRight.expecting .operand with newline := false }, c :: rest) := by
  have hall : ∀ o ∈ rightOperators, IsMark o ∧ MarkClass.of o = .rightAssociative := by decide
  obtain ⟨hmark, hclass⟩ := hall o ho
  rw [step_mark hmark (fun _ => he) hc, hclass]
  rfl

end Scan

end ScriptFeatures.Nesting
