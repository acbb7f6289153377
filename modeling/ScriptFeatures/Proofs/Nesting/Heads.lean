import ScriptFeatures.Proofs.Nesting.ElseChain
import ScriptFeatures.Proofs.Nesting.Steps

/-! Statement heads one inside the other, `if (a) while (a) do … x;`. A head is open until its
statement ends, so each head should count one more than the head around it. The scan counts so as
long as no line break follows a closing parenthesis: the parenthesis is taken for the end of an
operand, so what begins on the next line is taken for a new statement, and the count starts
again. -/

namespace ScriptFeatures.Nesting

/-! ## The texts -/

/-- White space between the parts of a statement. -/
inductive Blank
  | space
  | tab
  | lineFeed
  | carriageReturn

namespace Blank

def char : Blank → Char
  | space => ' '
  | tab => '\t'
  | lineFeed => '\n'
  | carriageReturn => '\r'

def byte : Blank → UInt8
  | space => 0x20
  | tab => 0x09
  | lineFeed => 0x0A
  | carriageReturn => 0x0D

/-- Whether a line ends here. -/
def breaks : Blank → Bool
  | space | tab => false
  | lineFeed | carriageReturn => true

end Blank

/-- What a statement can begin with before another statement. -/
inductive Head
  | ifHead
  | whileHead
  | withHead
  | forHead
  | doHead

namespace Head

def word : Head → String
  | ifHead => "if"
  | whileHead => "while"
  | withHead => "with"
  | forHead => "for"
  | doHead => "do"

/-- What follows the word. -/
def group : Head → List Char
  | ifHead | whileHead | withHead => [' ', '(', 'a', ')']
  | forHead => [' ', '(', ';', ';', ')']
  | doHead => []

/-- Whether the head ends with a closing parenthesis. -/
def bracketed : Head → Bool
  | ifHead | whileHead | withHead | forHead => true
  | doHead => false

end Head

/-- A statement head and the white space behind it. -/
structure SpacedHead where
  head : Head
  blank : Blank
  blanks : List Blank

namespace SpacedHead

def text (p : SpacedHead) : List Char :=
  p.head.word.toList ++ p.head.group ++ (p.blank :: p.blanks).map Blank.char

/-- Whether the heads are taken to be closed behind this one: a line ends after a closing
parenthesis. -/
def closes (p : SpacedHead) : Bool :=
  p.head.bracketed && (p.blank :: p.blanks).any Blank.breaks

end SpacedHead

/-- The text of a statement in the heads. -/
def headedText (chain : List SpacedHead) : List Char :=
  chain.flatMap SpacedHead.text ++ ['x', ';']

/-- The deepest level in the heads when `count` of the heads before them are still counted. The
parentheses of a head are one level deeper than the head. -/
def deepestHead (count : Nat) : List SpacedHead → Nat
  | [] => 0
  | p :: chain =>
    max (count + 1 + p.head.bracketed.toNat) (deepestHead (if p.closes then 0 else count + 1) chain)

/-! ## The bytes of the texts -/

namespace Head

def wordBytes : Head → List UInt8
  | ifHead => [0x69, 0x66]
  | whileHead => [0x77, 0x68, 0x69, 0x6C, 0x65]
  | withHead => [0x77, 0x69, 0x74, 0x68]
  | forHead => [0x66, 0x6F, 0x72]
  | doHead => [0x64, 0x6F]

def groupBytes : Head → List UInt8
  | ifHead | whileHead | withHead => [0x20, 0x28, 0x61, 0x29]
  | forHead => [0x20, 0x28, 0x3B, 0x3B, 0x29]
  | doHead => []

theorem utf8_text (h : Head) :
    (h.word.toList ++ h.group).flatMap String.utf8EncodeChar = h.wordBytes ++ h.groupBytes := by
  cases h <;> rfl

theorem class_word (h : Head) : WordClass.of h.word = .head := by
  cases h <;> rfl

end Head

theorem utf8_blanks (blanks : List Blank) :
    (blanks.map Blank.char).flatMap String.utf8EncodeChar = blanks.map Blank.byte := by
  induction blanks with
  | nil => rfl
  | cons b blanks ih =>
    have hb : String.utf8EncodeChar b.char = [b.byte] := by cases b <;> rfl
    rw [List.map_cons, List.flatMap_cons, ih, hb]
    rfl

def headedBytes : List SpacedHead → List UInt8
  | [] => [0x78, 0x3B]
  | p :: chain =>
    p.head.wordBytes ++ (p.head.groupBytes ++
      (p.blank.byte :: (p.blanks.map Blank.byte ++ headedBytes chain)))

theorem toUTF8_headedText (chain : List SpacedHead) :
    (String.ofList (headedText chain)).toUTF8.toList = headedBytes chain := by
  rw [Text.toUTF8_ofList, headedText, List.flatMap_append]
  induction chain with
  | nil => rfl
  | cons p chain ih =>
    rw [List.flatMap_cons, List.flatMap_append, List.append_assoc, ih, SpacedHead.text,
      List.flatMap_append, Head.utf8_text, utf8_blanks, headedBytes]
    simp only [List.append_assoc, List.map_cons, List.cons_append]

namespace Scan

/-! ## Steps over a head -/

/-- The state behind a head on the level of the whole script. -/
def behindHead (heads deepest : Nat) (bracketed newline : Bool) : Scan :=
  { atRoot heads deepest (if bracketed then .operator else .statement) with newline }

theorem balanced_behindHead (heads deepest : Nat) (bracketed newline : Bool) :
    (behindHead heads deepest bracketed newline).Balanced where
  bottom := rfl
  above := List.not_mem_nil
  descent := Nat.zero_add heads
  chained := rfl

/-- What begins behind a head leaves it open, unless a line has ended after its parenthesis. -/
theorem startOperand_behindHead (heads deepest : Nat) (bracketed newline : Bool) :
    ∃ e, (behindHead heads deepest bracketed newline).startOperand =
      { atRoot (if bracketed && newline then 0 else heads) deepest e with newline } := by
  cases bracketed with
  | false => cases newline <;> exact ⟨.statement, rfl⟩
  | true =>
    cases newline with
    | false => exact ⟨.operator, rfl⟩
    | true =>
      refine ⟨.statement, ?_⟩
      have hclosed : heads - (0 + heads) = 0 := by omega
      show (⟨Frames.root.setTop ⟨.root, 0, 0, 0, 0⟩, .statement, true, heads - (0 + heads), 0,
        ⟨deepest, deepest⟩⟩ : Scan) = _
      rw [hclosed]
      rfl

theorem word_behindHead {w : String} (hw : WordClass.of w = .head) (heads deepest : Nat)
    (bracketed newline : Bool) :
    { (behindHead heads deepest bracketed newline).word w with newline := false } =
      atRoot ((if bracketed && newline then 0 else heads) + 1)
        (max deepest ((if bracketed && newline then 0 else heads) + 1)) .statement := by
  have hword : (behindHead heads deepest bracketed newline).word w =
      (behindHead heads deepest bracketed newline).startOperand.addRight.expecting .statement := by
    rw [word, hw]
    cases bracketed <;> rfl
  obtain ⟨e, hstart⟩ := startOperand_behindHead heads deepest bracketed newline
  rw [hword, hstart]
  generalize (if bracketed && newline then 0 else heads) = count
  have hadd : { ({ atRoot count deepest e with newline }).addRight.expecting .statement with
      newline := false } = atRoot (count + 1) (max deepest (0 + (count + 1))) .statement := rfl
  rw [hadd, Nat.zero_add]

theorem step_headWord (h : Head) (s : Scan) (b : Blank) (rest : List UInt8) :
    s.step (h.wordBytes ++ (h.groupBytes ++ b.byte :: rest)) =
      some ({ s.word h.word with newline := false }, h.groupBytes ++ b.byte :: rest) := by
  cases h with
  | ifHead | whileHead | withHead | forHead => rfl
  | doHead => cases b <;> rfl

theorem steps_group (h : Head) {heads deepest : Nat} (hle : heads ≤ deepest) (rest : List UInt8) :
    Steps (atRoot heads deepest .statement) (h.groupBytes ++ rest)
      (behindHead heads (max deepest (heads + h.bracketed.toNat)) h.bracketed false) rest := by
  cases h with
  | ifHead | whileHead | withHead =>
    show Steps _ _ (behindHead heads (max deepest (heads + 1)) true false) rest
    rw [Nat.add_comm]
    exact .next rfl (.next rfl (.next rfl (.refl _ _)))
  | forHead =>
    show Steps _ _ (behindHead heads (max deepest (heads + 1)) true false) rest
    rw [Nat.add_comm]
    exact .next rfl (.next rfl (.next rfl (.next rfl (.refl _ _))))
  | doHead =>
    have hmax : max deepest (heads + Head.doHead.bracketed.toNat) = deepest := Nat.max_eq_left hle
    rw [hmax]
    exact .refl _ _

/-- A head counts one more than the heads around it, and its parentheses one more than that. -/
theorem steps_head (h : Head) (heads deepest : Nat) (bracketed newline : Bool) (b : Blank)
    (rest : List UInt8) {count : Nat}
    (hcount : (if bracketed && newline then 0 else heads) + 1 = count) :
    Steps (behindHead heads deepest bracketed newline)
      (h.wordBytes ++ (h.groupBytes ++ b.byte :: rest))
      (behindHead count (max deepest (count + h.bracketed.toNat)) h.bracketed false)
      (b.byte :: rest) := by
  have hgroup := steps_group h (Nat.le_max_right deepest count) (b.byte :: rest)
  have hmax : max (max deepest count) (count + h.bracketed.toNat) =
      max deepest (count + h.bracketed.toNat) := by omega
  rw [hmax] at hgroup
  refine .next (step_headWord h _ b rest) ?_
  rw [word_behindHead h.class_word, hcount]
  exact hgroup

/-! ## Blanks -/

theorem skipGap_blanks (blanks : List Blank) (newline : Bool) (text : List UInt8) :
    skipGap .between newline (blanks.map Blank.byte ++ text) =
      skipGap .between (newline || blanks.any Blank.breaks) text := by
  induction blanks generalizing newline with
  | nil =>
    rw [List.any_nil, Bool.or_false]
    rfl
  | cons b blanks ih =>
    have hskip : skipGap .between newline ((b :: blanks).map Blank.byte ++ text) =
        skipGap .between (newline || b.breaks) (blanks.map Blank.byte ++ text) := by
      cases b <;> cases newline <;> rfl
    rw [hskip, ih, List.any_cons, Bool.or_assoc]

theorem estimate_finish_blanks {s : Scan} (h : s.Balanced) (blanks : List Blank)
    (text : List UInt8) :
    (s.finish (blanks.map Blank.byte ++ text)).estimate =
      (({ s with newline := s.newline || blanks.any Blank.breaks }).finish text).estimate :=
  h.estimate_finish_gap (skipGap_blanks blanks s.newline text)

/-! ## A whole statement -/

theorem estimate_finish_heads (chain : List SpacedHead) (heads deepest : Nat)
    (bracketed newline : Bool) :
    ((behindHead heads deepest bracketed newline).finish (headedBytes chain)).estimate =
      ⟨max deepest (deepestHead (if bracketed && newline then 0 else heads) chain),
        max deepest (deepestHead (if bracketed && newline then 0 else heads) chain)⟩ := by
  induction chain generalizing heads deepest bracketed newline with
  | nil =>
    have hlast : ((behindHead heads deepest bracketed newline).finish [0x78, 0x3B]).estimate =
        ⟨deepest, deepest⟩ := by
      cases bracketed <;> cases newline <;> rfl
    rw [headedBytes, hlast, deepestHead, Nat.max_zero]
  | cons p chain ih =>
    rw [headedBytes, deepestHead, ← Nat.max_assoc]
    generalize hcount : (if bracketed && newline then 0 else heads) + 1 = count
    have hsteps := steps_head p.head heads deepest bracketed newline p.blank
      (p.blanks.map Blank.byte ++ headedBytes chain) hcount
    rw [hsteps.finish_eq (balanced_behindHead _ _ _ _)]
    have hblanks := estimate_finish_blanks
      (balanced_behindHead count (max deepest (count + p.head.bracketed.toNat)) p.head.bracketed
        false) (p.blank :: p.blanks) (headedBytes chain)
    refine hblanks.trans ?_
    exact ih count _ p.head.bracketed _

end Scan

/-! ## The estimate -/

theorem estimate_headedText_eq (chain : List SpacedHead) :
    estimate (String.ofList (headedText chain)) = ⟨deepestHead 0 chain, deepestHead 0 chain⟩ := by
  have hstart : Scan.start = Scan.behindHead 0 0 false false := rfl
  rw [estimate, toUTF8_headedText, Scan.estimateBytes_eq, hstart, Scan.estimate_finish_heads]
  simp only [Nat.zero_max, Bool.false_and, Bool.false_eq_true, if_false]

theorem exists_deepestHead_le (front chain : List SpacedHead) (count : Nat) :
    ∃ between, deepestHead between chain ≤ deepestHead count (front ++ chain) := by
  induction front generalizing count with
  | nil => exact ⟨count, Nat.le_refl _⟩
  | cons p front ih =>
    obtain ⟨between, hle⟩ := ih (if p.closes then 0 else count + 1)
    exact ⟨between, Nat.le_trans hle (Nat.le_max_right _ _)⟩

/-- As long as no line break follows a parenthesis, every head is counted. -/
theorem add_length_le_deepestHead (p : SpacedHead) (chain back : List SpacedHead) (count : Nat)
    (h : ∀ x ∈ (p :: chain).dropLast, x.closes = false) :
    count + (p :: chain).length ≤ deepestHead count (p :: chain ++ back) := by
  induction chain generalizing p count with
  | nil =>
    rw [List.length_singleton]
    exact Nat.le_trans (Nat.le_add_right _ _) (Nat.le_max_left _ _)
  | cons q chain ih =>
    rw [List.dropLast_cons_cons, List.forall_mem_cons] at h
    have hchain := ih q (count + 1) h.2
    have hnext : deepestHead (count + 1) (q :: chain ++ back) ≤
        deepestHead count (p :: q :: chain ++ back) := by
      rw [List.cons_append (a := p), deepestHead, h.1]
      exact Nat.le_max_right _ _
    rw [List.length_cons]
    omega

/-- The estimate of a statement in heads is the deepest level in them, counted from the last line
break after a parenthesis, so it is no less than the number of heads in any part of the text with
no such line break between its heads. -/
theorem estimate_headedText (chain : List SpacedHead) :
    estimate (String.ofList (headedText chain)) = ⟨deepestHead 0 chain, deepestHead 0 chain⟩ ∧
    ∀ part, part <:+: chain → (∀ x ∈ part.dropLast, x.closes = false) →
      part.length ≤ (estimate (String.ofList (headedText chain))).descent := by
  refine ⟨estimate_headedText_eq chain, ?_⟩
  rintro part ⟨front, back, rfl⟩ h
  rw [estimate_headedText_eq, List.append_assoc]
  obtain ⟨between, hle⟩ := exists_deepestHead_le front (part ++ back) 0
  refine Nat.le_trans ?_ hle
  cases part with
  | nil => exact Nat.zero_le _
  | cons p part =>
    have hpart := add_length_le_deepestHead p part back between h
    omega

/-- Line breaks before the `if` and the `x` lose none of the three heads: no parenthesis but the
last one is followed by a line break. -/
theorem estimate_headedText_do :
    estimate "do\nif (a) while (a)\nx;" = ⟨4, 4⟩ ∧
    3 ≤ (estimate "do\nif (a) while (a)\nx;").descent := by
  have h := estimate_headedText
    [⟨.doHead, .lineFeed, []⟩, ⟨.ifHead, .space, []⟩, ⟨.whileHead, .lineFeed, []⟩]
  exact ⟨h.1, h.2 _ List.infix_rfl (by decide)⟩

/-- When a line break follows every parenthesis, one head is counted, whatever their number. -/
theorem deepestHead_of_closes {chain : List SpacedHead} (hne : chain ≠ [])
    (h : ∀ p ∈ chain, p.closes = true) : deepestHead 0 chain = 2 := by
  induction chain with
  | nil => exact absurd rfl hne
  | cons p chain ih =>
    rw [List.forall_mem_cons] at h
    have hbracketed : p.head.bracketed = true := (Bool.and_eq_true_iff.mp h.1).1
    rw [deepestHead, h.1, hbracketed, if_pos rfl]
    cases chain with
    | nil => rfl
    | cons q chain =>
      rw [ih (List.cons_ne_nil q chain) h.2]
      rfl

/-- Three heads on lines of their own are enough for an estimate below their number. -/
theorem not_length_le_descent :
    ¬∀ chain : List SpacedHead,
      chain.length ≤ (estimate (String.ofList (headedText chain))).descent := by
  intro hall
  have hle := hall (List.replicate 3 ⟨.ifHead, .lineFeed, []⟩)
  rw [estimate_headedText_eq, deepestHead_of_closes (by decide) (by decide)] at hle
  exact absurd hle (by decide)

end ScriptFeatures.Nesting
