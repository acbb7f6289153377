import Mathlib.Data.List.Infix
import ScriptFeatures.Proofs.Nesting.Name

/-! Texts of brackets. Where nothing but brackets opens a level, the descent of a text is the
greatest number of brackets that are open at once. A closing bracket closes the innermost level,
whatever opened it, and is passed over where no level is open; a brace opens an object or a block,
and what closes a block also ends statements. None of this shows in the descent: `Open` is what
every token keeps, and `Open.descent_finish` runs it to the end of a text. -/

namespace ScriptFeatures.Nesting

/-! ## The texts -/

/-- What can stand beside words: brackets, commas, semicolons and white space. -/
def separators : List Char :=
  ['(', '[', '\x7b', ')', ']', '\x7d', ',', ';', ' ', '\t', '\n', '\r']

/-- A text of brackets, commas, semicolons, white space and words of ASCII letters. A word, which is
all the letters that stand side by side, is none of those that are counted. -/
structure Bracketed (text : List Char) : Prop where
  chars : ∀ c ∈ text, c.isAlpha = true ∨ c ∈ separators
  words : ∀ word ∈ text.splitOnP (!·.isAlpha), WordClass.of (String.ofList word) = .plain

/-- The number of open brackets behind a character, if there are `count` before it. -/
def openBehind (count : Nat) (c : Char) : Nat :=
  if c ∈ ['(', '[', '\x7b'] then count + 1
  else if c ∈ [')', ']', '\x7d'] then count - 1
  else count

/-- The number of open brackets at the end of a text. -/
def openBrackets (text : List Char) : Nat :=
  text.foldl openBehind 0

/-- The greatest number of open brackets in a text, if there are `count` before it. -/
def deepestFrom (count : Nat) : List Char → Nat
  | [] => count
  | c :: text => max count (deepestFrom (openBehind count c) text)

theorem le_deepestFrom (count : Nat) (text : List Char) : count ≤ deepestFrom count text := by
  cases text with
  | nil => exact Nat.le_refl count
  | cons c text => exact Nat.le_max_left _ _

theorem max?_inits (count : Nat) (text : List Char) :
    (text.inits.map (·.foldl openBehind count)).max? = some (deepestFrom count text) := by
  induction text generalizing count with
  | nil => rfl
  | cons c text ih =>
    have hbehind : ((text.inits.map (c :: ·)).map (·.foldl openBehind count)).max? =
        some (deepestFrom (openBehind count c) text) := by
      rw [List.map_map]
      exact ih (openBehind count c)
    rw [List.inits_cons, List.map_cons, List.max?_cons, hbehind]
    rfl

/-! ## Words -/

theorem openBehind_of_isAlpha {c : Char} (hc : c.isAlpha = true) (count : Nat) :
    openBehind count c = count := by
  have hne (k : Char) (hk : k.isAlpha = false) : c ≠ k := by
    rintro rfl
    exact Bool.false_ne_true (hk.symm.trans hc)
  simp [openBehind, hne '(' rfl, hne '[' rfl, hne '\x7b' rfl, hne ')' rfl, hne ']' rfl,
    hne '\x7d' rfl]

/-- Letters open and close nothing. -/
theorem deepestFrom_letters {word : List Char} (hword : ∀ c ∈ word, c.isAlpha = true)
    (count : Nat) (text : List Char) :
    deepestFrom count (word ++ text) = deepestFrom count text := by
  induction word with
  | nil => rfl
  | cons c word ih =>
    rw [List.forall_mem_cons] at hword
    rw [List.cons_append, deepestFrom, openBehind_of_isAlpha hword.1, ih hword.2]
    exact Nat.max_eq_right (le_deepestFrom count text)

namespace Bracketed

variable {c : Char} {word text : List Char}

/-- There is no word before a separator at the front. -/
theorem splitOnP_separator (hc : c.isAlpha = false) (text : List Char) :
    (c :: text).splitOnP (!·.isAlpha) = [] :: text.splitOnP (!·.isAlpha) := by
  rw [List.splitOnP_cons_eq_if_modifyHead, hc]
  rfl

theorem behind_separator (h : Bracketed (c :: text)) (hc : c.isAlpha = false) :
    Bracketed text := by
  obtain ⟨hchars, hwords⟩ := h
  rw [splitOnP_separator hc, List.forall_mem_cons] at hwords
  exact ⟨(List.forall_mem_cons.mp hchars).2, hwords.2⟩

/-- A word that no letter follows is one of the words of the text. -/
theorem behind_word (h : Bracketed (word ++ text)) (hword : ∀ c ∈ word, c.isAlpha = true)
    (htext : ∀ c ∈ text.head?, c.isAlpha = false) :
    WordClass.of (String.ofList word) = .plain ∧ Bracketed text := by
  obtain ⟨hchars, hwords⟩ := h
  have hletters : ∀ c ∈ word, (!c.isAlpha) = false := by
    intro c hc
    simp [hword c hc]
  have hbehind := fun c hc => hchars c (List.mem_append_right word hc)
  cases text with
  | nil =>
    rw [List.append_nil, List.splitOnP_eq_singleton hletters] at hwords
    refine ⟨hwords word (List.mem_singleton_self word), hbehind, ?_⟩
    rw [List.splitOnP_nil, List.forall_mem_singleton]
    rfl
  | cons c text =>
    have hc := htext c rfl
    rw [List.splitOnP_append_cons_of_forall_mem hletters c (by simp [hc]),
      List.forall_mem_cons] at hwords
    refine ⟨hwords.1, hbehind, ?_⟩
    rw [splitOnP_separator hc, List.forall_mem_cons]
    exact ⟨rfl, hwords.2⟩

/-- Where a letter begins a text, so does one of its words. -/
theorem exists_word (h : Bracketed (c :: text)) (hc : c.isAlpha = true) :
    ∃ word rest, text = word ++ rest ∧ (∀ x ∈ c :: word, x.isAlpha = true) ∧
      WordClass.of (String.ofList (c :: word)) = .plain ∧
      (∀ x ∈ rest.head?, x.isAlpha = false) ∧ Bracketed rest := by
  have hletters : ∀ x ∈ c :: text.takeWhile Char.isAlpha, x.isAlpha = true :=
    List.forall_mem_cons.mpr ⟨hc, fun x hx => List.mem_takeWhile_imp hx⟩
  have hend : ∀ x ∈ (text.dropWhile Char.isAlpha).head?, x.isAlpha = false := by
    intro x hx
    have hnot := List.head?_dropWhile_not Char.isAlpha text
    rw [hx] at hnot
    simpa using hnot
  have hsplit : text = text.takeWhile Char.isAlpha ++ text.dropWhile Char.isAlpha :=
    List.takeWhile_append_dropWhile.symm
  rw [hsplit, ← List.cons_append] at h
  obtain ⟨hplain, hrest⟩ := h.behind_word hletters hend
  exact ⟨_, _, hsplit, hletters, hplain, hend, hrest⟩

end Bracketed

/-! ## The bytes of the texts -/

/-- The letters are ASCII characters, and a word may begin with each of them. -/
theorem letter_byte {c : Char} (hc : c.isAlpha = true) :
    c.toNat < 0x80 ∧ isWordStart (UInt8.ofNat c.toNat) = true := by
  have hall : ∀ n < 0x80, (Char.ofNat n).isAlpha = true →
      isWordStart (UInt8.ofNat n) = true := by
    decide
  have hlt : c.toNat < 0x80 := by
    have hcase : (c.isUpper || c.isLower) = true := hc
    obtain hupper | hlower := (Bool.or_eq_true _ _).mp hcase
    · have hbounds : 'A'.val ≤ c.val ∧ c.val ≤ 'Z'.val := of_decide_eq_true hupper
      exact Nat.lt_of_le_of_lt (UInt32.le_iff_toNat_le.mp hbounds.2) (by decide)
    · have hbounds : (decide ('a'.val ≤ c.val) && decide (c.val ≤ 'z'.val)) = true := hlower
      have hle := of_decide_eq_true (Bool.and_eq_true_iff.mp hbounds).2
      exact Nat.lt_of_le_of_lt (UInt32.le_iff_toNat_le.mp hle) (by decide)
  refine ⟨hlt, hall c.toNat hlt ?_⟩
  rwa [Char.ofNat_toNat]

/-- The byte of an ASCII character. -/
def asciiByte (c : Char) : UInt8 :=
  UInt8.ofNat c.toNat

theorem utf8_letters {word : List Char} (hword : ∀ c ∈ word, c.isAlpha = true) :
    utf8 word = word.map asciiByte := by
  induction word with
  | nil => rfl
  | cons c word ih =>
    rw [List.forall_mem_cons] at hword
    rw [utf8_cons, ih hword.2, Text.utf8EncodeChar_ascii (letter_byte hword.1).1]
    rfl

/-- What separates words is a single byte that is part of no word. -/
theorem separator_byte : ∀ c ∈ separators, c.isAlpha = false ∧
    String.utf8EncodeChar c = [asciiByte c] ∧ isWordByte (asciiByte c) = false :=
  List.all_iff_forall_prop.mp (by decide)

/-- What follows a word does not go on with it. -/
theorem Bracketed.head_utf8 {text : List Char} (h : Bracketed text)
    (hend : ∀ c ∈ text.head?, c.isAlpha = false) :
    ∀ b ∈ (utf8 text).head?, isWordByte b = false := by
  cases text with
  | nil => exact fun _ hb => nomatch hb
  | cons c text =>
    have hc := (List.forall_mem_cons.mp h.chars).1
    have hmem : c ∈ separators := by simpa [hend c rfl] using hc
    obtain ⟨-, hbytes, hword⟩ := separator_byte c hmem
    intro b hb
    rw [utf8_cons, hbytes] at hb
    cases hb
    exact hword

namespace Scan

/-- With `count` brackets open now and `deepest` at most before, nothing but brackets counts for the
descent. -/
structure Open (count deepest : Nat) (s : Scan) : Prop where
  balanced : s.Balanced
  height : s.frames.height = count
  sum : s.sumDescent = 0
  descent : s.estimate.descent = deepest
  le : count ≤ deepest
  expect : s.expect ≠ .property
  openings : ∀ f ∈ s.levels, f.opening ≠ .template

namespace Open

variable {count deepest : Nat} {s : Scan}

theorem start : Open 0 0 start where
  balanced := .start
  height := rfl
  sum := rfl
  descent := rfl
  le := Nat.le_refl 0
  expect := by decide
  openings := by decide

theorem expecting (h : Open count deepest s) {e : Expect} (he : e ≠ .property) :
    Open count deepest (s.expecting e) :=
  { h with expect := he }

theorem withNewline (h : Open count deepest s) (newline : Bool) :
    Open count deepest { s with newline } :=
  { h with }

theorem unraised (h : Open count deepest s) : Open count (max deepest count) s := by
  rwa [Nat.max_eq_left h.le]

/-- A change of the counters on the innermost level that takes nothing from an empty sum. -/
theorem setTop (h : Open count deepest s) {t : Scan} (ht : t.Balanced)
    (hheight : t.frames.height = s.frames.height) (hsum : t.sumDescent = 0)
    (hdescent : t.estimate.descent = s.estimate.descent) (hexpect : t.expect = s.expect)
    (hopening : t.frames.top.opening = s.frames.top.opening)
    (hbelow : t.frames.below = s.frames.below) : Open count deepest t where
  balanced := ht
  height := hheight.trans h.height
  sum := hsum
  descent := hdescent.trans h.descent
  le := h.le
  expect := hexpect ▸ h.expect
  openings := by
    have := h.openings
    rw [levels, List.forall_mem_cons] at this ⊢
    rw [hopening, hbelow]
    exact this

theorem closeElement (h : Open count deepest s) : Open count deepest s.closeElement := by
  refine h.setTop h.balanced.closeElement rfl ?_ rfl rfl rfl rfl
  show s.sumDescent - s.frames.top.descent = 0
  rw [h.sum, Nat.zero_sub]

theorem closeStatement (h : Open count deepest s) : Open count deepest s.closeStatement :=
  h.setTop h.balanced.closeStatement rfl h.closeElement.sum rfl rfl rfl rfl

theorem startOperand (h : Open count deepest s) : Open count deepest s.startOperand := by
  rw [Scan.startOperand]
  split
  · exact h.closeStatement.expecting (by decide)
  · exact h

/-- Chains and commas are recorded with the brackets that are open, which is nothing new. -/
theorem max_descent (h : Open count deepest s) :
    max s.estimate.descent (s.frames.height + s.sumDescent) = s.estimate.descent := by
  have hle := h.le
  rw [h.descent, h.height, h.sum]
  omega

theorem addChain (h : Open count deepest s) : Open count deepest s.addChain :=
  h.setTop h.balanced.addChain rfl h.sum h.max_descent rfl rfl rfl

theorem addComma (h : Open count deepest s) : Open count deepest s.addComma :=
  h.setTop h.balanced.addComma rfl h.sum h.max_descent rfl rfl rfl

/-! ## Levels -/

theorem push (h : Open count deepest s) {opening : Opening} (hroot : opening ≠ .root)
    (htemplate : opening ≠ .template) :
    Open (count + 1) (max deepest (count + 1)) (s.push opening) where
  balanced := h.balanced.push hroot
  height := congrArg (· + 1) h.height
  sum := h.sum
  descent := by
    show max s.estimate.descent (s.frames.height + 1 + s.sumDescent) = _
    rw [h.descent, h.height, h.sum, Nat.add_zero]
  le := Nat.le_max_right deepest (count + 1)
  expect := h.expect
  openings := List.forall_mem_cons.mpr ⟨htemplate, h.openings⟩

theorem pop (h : Open count deepest s) :
    Open (count - 1) deepest s.pop.2 ∧ s.pop.1 ≠ some .template := by
  have hbalanced := h.balanced.pop
  obtain ⟨-, hheight, hsum, hdescent, hle, hexpect, hopenings⟩ := h
  obtain ⟨⟨top, below, height, heq⟩, e, newline, d, c, estimate⟩ := s
  obtain rfl : height = count := hheight
  obtain rfl : d = 0 := hsum
  have hle' : height - 1 ≤ deepest := Nat.le_trans (Nat.sub_le height 1) hle
  cases below with
  | nil =>
    obtain rfl : height = 0 := heq
    exact ⟨⟨hbalanced, rfl, rfl, hdescent, hle', hexpect, hopenings⟩, nofun⟩
  | cons next below =>
    have hnone : 0 - top.descent = 0 := Nat.zero_sub _
    rw [levels, List.forall_mem_cons] at hopenings
    exact ⟨⟨hbalanced, rfl, hnone, hdescent, hle', hexpect, hopenings.2⟩,
      fun heq => hopenings.1 (Option.some.inj heq)⟩

/-! ## Tokens -/

theorem openParen (h : Open count deepest s) :
    Open (count + 1) (max deepest (count + 1)) s.openParen := by
  refine Open.expecting ?_ (by decide)
  split
  · exact h.addChain.push (by decide) (by decide)
  · exact h.push (by decide) (by decide)

theorem openBracket (h : Open count deepest s) :
    Open (count + 1) (max deepest (count + 1)) s.openBracket := by
  refine Open.expecting (Open.push ?_ (by decide) (by decide)) (by decide)
  split
  · exact h.addChain
  · exact h.startOperand

theorem openBrace (h : Open count deepest s) :
    Open (count + 1) (max deepest (count + 1)) s.openBrace := by
  rw [Scan.openBrace]
  split
  · exact (h.push (by decide) (by decide)).expecting (by decide)
  · exact (h.push (by decide) (by decide)).expecting (by decide)

theorem closeGroup (h : Open count deepest s) : Open (count - 1) deepest s.closeGroup :=
  h.pop.1.expecting (by decide)

/-- The end of a block ends a statement; no brace goes on with a template. -/
theorem closeBrace (h : Open count deepest s) (rest : List UInt8) :
    Open (count - 1) deepest (s.closeBrace rest).1 ∧ (s.closeBrace rest).2 = rest := by
  obtain ⟨hpop, htemplate⟩ := h.pop
  rw [Scan.closeBrace]
  split
  · rename_i heq
    exact absurd (congrArg Prod.fst heq) htemplate
  · rename_i heq
    rw [heq] at hpop
    refine ⟨Open.expecting ?_ (by decide), rfl⟩
    split
    · exact hpop.closeStatement
    · exact hpop
  · rename_i heq
    rw [heq] at hpop
    exact ⟨hpop.expecting (by decide), rfl⟩

theorem semicolon (h : Open count deepest s) : Open count deepest (s.mark .semicolon) :=
  h.closeStatement.expecting (by decide)

theorem comma (h : Open count deepest s) : Open count deepest (s.mark .comma) := by
  refine Open.expecting ?_ (by decide)
  split
  · exact h.closeElement.addComma
  · exact h.closeElement

theorem word (h : Open count deepest s) {w : String} (hw : WordClass.of w = .plain) :
    Open count deepest (s.word w) := by
  rw [word_plain hw]
  refine Open.expecting ?_ (by decide)
  split
  · exact h
  · exact h.startOperand

/-! ## Steps -/

/-- A bracket, a comma or a semicolon is one step. -/
theorem step_separator (h : Open count deepest s) {c : Char} (hc : c ∈ separators)
    (hblank : isBlankByte (asciiByte c) = false) (rest : List UInt8) :
    ∃ t, s.step (asciiByte c :: rest) = some (t, rest) ∧
      Open (openBehind count c) (max deepest (openBehind count c)) t := by
  have hslash : ∀ c ∈ separators, asciiByte c ≠ 0x2F := List.all_iff_forall_prop.mp (by decide)
  rw [step_of_token hblank (hslash c hc)]
  -- it is left to show what the token does
  suffices htoken : (s.token (asciiByte c) rest).2 = rest ∧
      Open (openBehind count c) (max deepest (openBehind count c))
        (s.token (asciiByte c) rest).1 by
    obtain ⟨hrest, hopen⟩ := htoken
    rw [hrest]
    exact ⟨_, rfl, hopen.withNewline false⟩
  simp only [separators, List.mem_cons, List.not_mem_nil, or_false] at hc
  obtain rfl | rfl | rfl | rfl | rfl | rfl | rfl | rfl | rfl | rfl | rfl | rfl := hc
  · exact ⟨rfl, h.openParen⟩
  · exact ⟨rfl, h.openBracket⟩
  · exact ⟨rfl, h.openBrace⟩
  · exact ⟨rfl, h.closeGroup.unraised⟩
  · exact ⟨rfl, h.closeGroup.unraised⟩
  · exact ⟨(h.closeBrace rest).2, (h.closeBrace rest).1.unraised⟩
  · exact ⟨rfl, h.comma.unraised⟩
  · exact ⟨rfl, h.semicolon.unraised⟩
  · exact absurd hblank (by decide)
  · exact absurd hblank (by decide)
  · exact absurd hblank (by decide)
  · exact absurd hblank (by decide)

/-- So is a word. -/
theorem step_letters (h : Open count deepest s) {c : Char} {word : List Char}
    (hword : ∀ x ∈ c :: word, x.isAlpha = true)
    (hplain : WordClass.of (String.ofList (c :: word)) = .plain) {rest : List UInt8}
    (hrest : ∀ b ∈ rest.head?, isWordByte b = false) :
    ∃ t, s.step (utf8 (c :: word) ++ rest) = some (t, rest) ∧ Open count deepest t := by
  have hbytes : ∀ b ∈ word.map asciiByte, isWordByte b = true := by
    intro b hb
    obtain ⟨x, hx, rfl⟩ := List.mem_map.mp hb
    exact isWordByte_of_isWordStart (letter_byte (hword x (List.mem_cons_of_mem c hx))).2
  have htake : rest.takeWhile isWordByte = [] ∧ rest.dropWhile isWordByte = rest := by
    cases rest with
    | nil => exact ⟨rfl, rfl⟩
    | cons b rest =>
      have hb : ¬isWordByte b = true := Bool.eq_false_iff.mp (hrest b rfl)
      exact ⟨List.takeWhile_cons_of_neg hb, List.dropWhile_cons_of_neg hb⟩
  have htext : textOf (asciiByte c :: word.map asciiByte) = String.ofList (c :: word) := by
    rw [← List.map_cons, ← utf8_letters hword]
    exact textOf_utf8 fun x hx => (letter_byte (hword x hx)).1
  have hstart := (letter_byte (hword c List.mem_cons_self)).2
  rw [utf8_letters hword, List.map_cons, List.cons_append]
  refine ⟨_, (step_word hstart).trans ?_, (h.word hplain).withNewline false⟩
  rw [List.takeWhile_append_of_pos hbytes, List.dropWhile_append_of_pos hbytes, htake.1, htake.2,
    List.append_nil]
  exact congrArg (fun w => some ({ s.word w with newline := false }, rest)) htext

/-! ## The scan -/

theorem estimate_finish_blank (h : Open count deepest s) {c : Char}
    (hblank : isBlankByte (asciiByte c) = true) (rest : List UInt8) :
    ∃ t, Open count deepest t ∧
      (s.finish (asciiByte c :: rest)).estimate = (t.finish rest).estimate :=
  ⟨_, h.withNewline _, h.balanced.estimate_finish_gap (skipGap_blank hblank s.newline rest)⟩

theorem openBehind_blank {c : Char} (hc : c ∈ separators)
    (hblank : isBlankByte (asciiByte c) = true) (count : Nat) : openBehind count c = count := by
  have hall : ∀ c ∈ separators, isBlankByte (asciiByte c) = true →
      c ∉ ['(', '[', '\x7b'] ∧ c ∉ [')', ']', '\x7d'] :=
    List.all_iff_forall_prop.mp (by decide)
  obtain ⟨hopen, hclose⟩ := hall c hc hblank
  rw [openBehind, if_neg hopen, if_neg hclose]

/-- What a whole text raises the descent to. The induction is on the length of the text, for a word
is one step and takes all its letters. -/
theorem descent_finish (h : Open count deepest s) {text : List Char} (htext : Bracketed text) :
    (s.finish (utf8 text)).estimate.descent = max deepest (deepestFrom count text) := by
  induction hn : text.length using Nat.strong_induction_on generalizing s count deepest text with
  | h n ih =>
    subst hn
    cases text with
    | nil =>
      rw [deepestFrom, Nat.max_eq_left h.le]
      exact h.descent
    | cons c rest =>
      cases hc : c.isAlpha with
      | true =>
        obtain ⟨word, text, rfl, hletters, hplain, hend, hrest⟩ := htext.exists_word hc
        have hlt : text.length < (c :: (word ++ text)).length := by
          rw [List.length_cons, List.length_append]
          omega
        obtain ⟨t, hstep, ht⟩ := h.step_letters hletters hplain (hrest.head_utf8 hend)
        rw [← List.cons_append, utf8_append, h.balanced.finish_step hstep, ih _ hlt ht hrest rfl,
          deepestFrom_letters hletters]
      | false =>
        have hmem : c ∈ separators := by
          have := (List.forall_mem_cons.mp htext.chars).1
          simpa [hc] using this
        have hrest := htext.behind_separator hc
        have hlt : rest.length < (c :: rest).length := Nat.lt_succ_self _
        have hle := h.le
        have hdeep := le_deepestFrom (openBehind count c) rest
        rw [utf8_cons, (separator_byte c hmem).2.1, List.singleton_append, deepestFrom]
        cases hblank : isBlankByte (asciiByte c) with
        | true =>
          obtain ⟨t, ht, hfinish⟩ := h.estimate_finish_blank hblank (utf8 rest)
          rw [openBehind_blank hmem hblank] at hdeep ⊢
          rw [hfinish, ih _ hlt ht hrest rfl]
          omega
        | false =>
          obtain ⟨t, hstep, ht⟩ := h.step_separator hmem hblank (utf8 rest)
          rw [h.balanced.finish_step hstep, ih _ hlt ht hrest rfl]
          omega

end Open

end Scan

/-! ## The descent -/

/-- The descent of a text of brackets is the greatest number of brackets that are open at the end of
any of its prefixes. -/
theorem estimate_descent_bracketed {source : String} (h : Bracketed source.toList) :
    (source.toList.inits.map openBrackets).max? = some (estimate source).descent := by
  have hbytes : source.toUTF8.toList = utf8 source.toList := by
    have hlist := Text.toUTF8_ofList source.toList
    rwa [String.ofList_toList] at hlist
  have hrun := Scan.Open.start.descent_finish h
  rw [Nat.zero_max] at hrun
  rw [estimate, hbytes, Scan.estimateBytes_eq, hrun]
  exact max?_inits 0 source.toList

/-- Closing brackets that close nothing, or a bracket of another kind. -/
theorem estimate_descent_bracketed_mismatched :
    Bracketed ")]f(x\n[\x7b;b),(\x7dc((".toList ∧
      (")]f(x\n[\x7b;b),(\x7dc((".toList.inits.map openBrackets).max? = some 4 ∧
      (estimate ")]f(x\n[\x7b;b),(\x7dc((").descent = 4 := by
  have h : Bracketed ")]f(x\n[\x7b;b),(\x7dc((".toList :=
    ⟨List.all_iff_forall_prop.mp (by decide), by decide⟩
  have hmax := estimate_descent_bracketed h
  have hfour : (")]f(x\n[\x7b;b),(\x7dc((".toList.inits.map openBrackets).max? = some 4 := by
    decide
  exact ⟨h, hfour, Option.some.inj (hmax.symm.trans hfour)⟩

end ScriptFeatures.Nesting
