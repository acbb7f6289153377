import Mathlib.Algebra.Order.BigOperators.Group.List
import Mathlib.Algebra.Order.Ring.Nat
import Mathlib.Data.List.Forall2
import ScriptFeatures.Proofs.Statistical.Keywords
import ScriptFeatures.Statistical.Counters

/-! What the statistics of a text can be at most. The counted punctuation and the word characters
are different characters, so together they are no more than the characters of the text. Keywords of
a bucket may stand inside one another, and some are short; but in each bucket every keyword has a
letter that can be counted for it alone, so all their occurrences are no more than these letters. -/

namespace ScriptFeatures.Statistical

open Text (isWord occurrences occurrences_le_count)

/-! ## Characters of several kinds -/

theorem countP_add_countP {p q : Char → Bool} (h : ∀ c, p c = true → q c = false)
    (text : List Char) :
    text.countP p + text.countP q = text.countP fun c => p c || q c := by
  induction text with
  | nil => rfl
  | cons c text ih =>
    simp only [List.countP_cons]
    by_cases hp : p c = true
    · simp [hp, h c hp]
      omega
    · simp [hp]
      omega

theorem sum_count_eq_countP {marks : List Char} (h : marks.Nodup) (text : List Char) :
    (marks.map text.count).sum = text.countP fun c => marks.contains c := by
  induction marks with
  | nil => simp
  | cons mark marks ih =>
    obtain ⟨hnew, hnodup⟩ := List.nodup_cons.mp h
    have hapart : ∀ c, (c == mark) = true → marks.contains c = false := by
      intro c hc
      rw [beq_iff_eq.mp hc]
      simpa using hnew
    rw [List.map_cons, List.sum_cons, ih hnodup, List.count, countP_add_countP hapart]
    simp only [List.contains_cons]

/-! ## Occurrences of keywords -/

/-- A bucket counts at most the characters of a text if each of its keywords has a letter of its
own. -/
theorem KeywordBucket.count_le_length_of_letters {bucket : KeywordBucket} (letters : List Char)
    (hnodup : letters.Nodup)
    (hletters : List.Forall₂ (fun word c => c ∈ word.toList) bucket.keywords letters)
    (text : List Char) : bucket.count text ≤ text.length := by
  have hwords : List.Forall₂ (· ≤ ·)
      (bucket.keywords.map fun word => occurrences word.toList text)
      (letters.map text.count) := by
    rw [List.forall₂_map_left_iff, List.forall₂_map_right_iff]
    refine hletters.imp fun word c hc => ?_
    exact occurrences_le_count (List.ne_nil_of_mem hc) hc text
  calc bucket.count text
      ≤ (letters.map text.count).sum := by
        rw [count_eq_sum]
        exact hwords.sum_le_sum
    _ = text.countP fun c => letters.contains c := sum_count_eq_countP hnodup text
    _ ≤ text.length := List.countP_le_length

theorem KeywordBucket.count_le_length (bucket : KeywordBucket) (text : List Char) :
    bucket.count text ≤ text.length := by
  cases bucket with
  | stringOperation =>
    exact count_le_length_of_letters ['g', 'A', 'p', 'o', 'e', 'b'] (by decide) (by decide) text
  | encoding =>
    exact count_le_length_of_letters ['p', 'u', 't', 'C'] (by decide) (by decide) text
  | urlRedirection =>
    exact count_le_length_of_letters ['T', 'l', 'p', 'U', 'd', 'f'] (by decide) (by decide) text
  | specificBehavior =>
    exact count_le_length_of_letters ['v', 'T', 'I', 'X', 'E', 'w', 'l', 'h'] (by decide)
      (by decide) text

namespace Counters

/-! ## Punctuation and word characters -/

/-- The punctuation that is counted. -/
def marks : List Char :=
  [' ', '(', ')', '/', '+', '.', ',', ';']

theorem isWord_of_digit {c : Char} (h : ('0' ≤ c && c ≤ '9') = true) : isWord c = true := by
  have hdigit : c.isDigit = true := by
    simpa [Char.isDigit, Char.le_def] using h
  have hsmall : c.toNat < 0x80 := by
    simp only [Char.isDigit, Bool.and_eq_true, decide_eq_true_eq] at hdigit
    have : c.toNat ≤ 57 := hdigit.2
    omega
  simp [isWord, hsmall, Char.isAlphanum, hdigit]

theorem sum_marks (text : List Char) :
    text.count ' ' + (text.countP fun c => c = '(' || c = ')') + text.count '/' + text.count '+' +
      text.count '.' + text.count ',' + text.count ';' = (marks.map text.count).sum := by
  have hparenthesis : (text.countP fun c => c = '(' || c = ')') =
      text.count '(' + text.count ')' := by
    have hapart : ∀ c : Char, (c == '(') = true → (c == ')') = false := by
      intro c hc
      rw [beq_iff_eq.mp hc]
      rfl
    rw [List.count, List.count, countP_add_countP hapart]
    simp only [Bool.beq_eq_decide_eq]
  simp only [marks, List.map_cons, List.map_nil, List.sum_cons, List.sum_nil]
  omega

theorem punctuation_le (text : List Char) :
    (marks.map text.count).sum + text.countP isWord ≤ text.length := by
  have hapart : ∀ c, marks.contains c = true → isWord c = false := by
    intro c hc
    have hmarks : ∀ c ∈ marks, isWord c = false := by simp [marks, isWord]
    exact hmarks c (List.contains_iff_mem.mp hc)
  rw [sum_count_eq_countP (by decide), countP_add_countP hapart]
  exact List.countP_le_length

/-! ## Shares -/

/-- The columns that hold shares of the length, each with the counter that it is made from. -/
def shares (c : Counters) : List (String × Nat) :=
  [("ratio_spaces", c.spaces), ("ratio_alpha", c.alpha), ("ratio_numeric", c.numeric),
    ("ratio_parenthesis", c.parenthesis), ("ratio_slash", c.slash), ("ratio_plus", c.plus),
    ("ratio_point", c.point), ("ratio_comma", c.comma), ("ratio_semicolon", c.semicolon),
    ("ratio_num_string_oper", c.stringOperations), ("ratio_num_encoding_oper", c.encodings),
    ("ratio_num_url_redirection", c.redirections), ("ratio_num_specific_func", c.specific)]

/-- The columns whose names say that they are shares are these. -/
theorem features_ratio (c : Counters) :
    (c.features.filter fun f => "ratio_".toList.isPrefixOf f.1.toList) =
      c.shares.map fun (name, count) => (name, c.ratio count) := by
  simp [features, shares, List.filter, List.isPrefixOf]

/-- A share of the length with any division in the place of the one of binary64. -/
def ratioBy (divide : Float → Float → Float) (c : Counters) (count : Nat) : Float :=
  if c.length = 0 then 0 else divide count.toFloat c.length.toFloat

theorem ratio_eq_ratioBy (c : Counters) : c.ratio = c.ratioBy (· / ·) := rfl

/-- The statistics of a text without characters. -/
def ofNothing : Counters where
  length := 0
  spaces := 0
  parenthesis := 0
  slash := 0
  plus := 0
  point := 0
  comma := 0
  semicolon := 0
  alpha := 0
  numeric := 0
  entropy := 0
  stringOperations := 0
  encodings := 0
  redirections := 0
  specific := 0

theorem ofChars_nil : ofChars [] = ofNothing := by
  have hcount (bucket : KeywordBucket) : bucket.count [] = 0 :=
    Nat.le_zero.mp (bucket.count_le_length [])
  have hentropy : Text.entropy [] = 0 := by
    simp [Text.entropy, Text.tally, Text.tallyOnto]
  simp [ofChars, ofNothing, hcount, hentropy]

/-- The statistics of a text keep within it. Punctuation and word characters together are no more
than its characters; digits are word characters; the keywords of each bucket occur no more often
than it has characters. So each column that holds a share has a counter that is at most the length.
If the length is zero, everything is, and a share is zero whatever division would make of it. -/
theorem ofText_proportions (text : String) :
    let c := ofText text
    c.spaces + c.parenthesis + c.slash + c.plus + c.point + c.comma + c.semicolon + c.alpha ≤
        c.length ∧
      c.numeric ≤ c.alpha ∧
      c.stringOperations ≤ c.length ∧ c.encodings ≤ c.length ∧ c.redirections ≤ c.length ∧
      c.specific ≤ c.length ∧
      (c.features.filter fun f => "ratio_".toList.isPrefixOf f.1.toList) =
        (c.shares.map fun (name, count) => (name, c.ratio count)) ∧
      (∀ share ∈ c.shares, share.2 ≤ c.length) ∧
      c.ratio = c.ratioBy (· / ·) ∧
      (c.length = 0 → c = ofNothing ∧ ∀ divide count, c.ratioBy divide count = 0) := by
  intro c
  have hsum : c.spaces + c.parenthesis + c.slash + c.plus + c.point + c.comma + c.semicolon +
      c.alpha ≤ c.length := by
    have hmarks := sum_marks text.toList
    have hle := punctuation_le text.toList
    rw [← hmarks] at hle
    exact hle
  have hnumeric : c.numeric ≤ c.alpha :=
    List.countP_mono_left fun _ _ => isWord_of_digit
  have hbucket (bucket : KeywordBucket) : bucket.count text.toList ≤ c.length :=
    bucket.count_le_length text.toList
  have hstring : c.stringOperations ≤ c.length := hbucket .stringOperation
  have hencoding : c.encodings ≤ c.length := hbucket .encoding
  have hredirection : c.redirections ≤ c.length := hbucket .urlRedirection
  have hspecific : c.specific ≤ c.length := hbucket .specificBehavior
  refine ⟨hsum, hnumeric, hstring, hencoding, hredirection, hspecific, features_ratio c, ?_,
    ratio_eq_ratioBy c, fun hlength => ⟨?_, fun divide count => if_pos hlength⟩⟩
  · simp only [shares, List.forall_mem_cons, List.not_mem_nil, false_implies, implies_true,
      and_true]
    omega
  · have hnil : text.toList = [] := List.length_eq_zero_iff.mp hlength
    exact (congrArg ofChars hnil).trans ofChars_nil

/-- Each `substring` is a `substr` as well. -/
theorem ofText_proportions_substring :
    let c := ofText "substring.substr"
    let e := ofText ""
    c.stringOperations = 3 ∧ ("ratio_num_string_oper", 3) ∈ c.shares ∧ 3 ≤ c.length ∧
      e.length = 0 ∧ e = ofNothing ∧ ∀ divide count, e.ratioBy divide count = 0 := by
  intro c e
  have hmem : ("ratio_num_string_oper", 3) ∈ c.shares := by decide
  have hlength : e.length = 0 := by decide
  obtain ⟨-, -, -, -, -, -, -, hshares, -⟩ := ofText_proportions "substring.substr"
  obtain ⟨-, -, -, -, -, -, -, -, -, hempty⟩ := ofText_proportions ""
  exact ⟨by decide, hmem, hshares _ hmem, hlength, hempty hlength⟩

end Counters

end ScriptFeatures.Statistical
