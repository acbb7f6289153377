import ScriptFeatures.Proofs.Json.Grammar
import ScriptFeatures.Proofs.Json.Skip

/-! Numbers and texts of the grammar are read, and run over. A literal is read up to its end, digits
by digits; a quoted text mark by mark, where the two halves of a character are two marks. Reading an
atom gives its value or finds it malformed (`readScalar_chars`); running over it never fails
(`skipScalar_chars`). -/

namespace ScriptFeatures.Json

open Outcome

/-! ## Digits -/

theorem isDigit_digit (d : Fin 10) : isDigit (digit d) = true := by
  decide +revert

theorem toNat_digit (d : Fin 10) : (digit d).toNat - 48 = d.val := by
  decide +revert

/-- A text that does not go on digits that stand before it. -/
def NoDigit (rest : List Char) : Prop :=
  ∀ c ∈ rest.head?, isDigit c = false

theorem Ends.noDigit {rest : List Char} (h : Ends rest) : NoDigit rest := by
  intro c hc
  have hgoes := h c hc
  simp only [goesOn, Bool.or_eq_false_iff] at hgoes
  exact hgoes.1.1.1

theorem NoDigit.cons {c : Char} (h : isDigit c = false) (rest : List Char) :
    NoDigit (c :: rest) := by
  rintro _ ⟨⟩
  exact h

theorem takeDigits_map_digit {rest : List Char} (h : NoDigit rest) (ds : List (Fin 10)) :
    takeDigits (ds.map digit ++ rest) = (ds.map Fin.val, rest) := by
  induction ds with
  | nil =>
    cases rest with
    | nil => rfl
    | cons c rest =>
      have hc : ¬isDigit c = true := by simpa using h c rfl
      rw [List.map_nil, List.nil_append, takeDigits_cons, if_neg hc]
      rfl
  | cons d ds ih =>
    rw [List.map_cons, List.cons_append, takeDigits_cons, if_pos (isDigit_digit d), ih,
      toNat_digit]
    rfl

namespace Numeral

variable {rest : List Char} (unfinished : Fault)

theorem takeSome_digits (h : NoDigit rest) (ds : Digits) :
    takeSome unfinished (ds.chars ++ rest) = .ok (ds.values, rest) := by
  rw [takeSome, Digits.chars, takeDigits_map_digit h]
  rfl

theorem takeWhole_digits (h : NoDigit rest) {ds : Digits}
    (hpadded : ds.first = 0 → ds.later = []) :
    takeWhole unfinished (ds.chars ++ rest) = .ok (ds.values, rest) := by
  refine (takeWhole_eq_ok_iff unfinished).mpr ⟨takeSome_digits unfinished h ds, fun hp => ?_⟩
  obtain ⟨first, later⟩ := ds
  match hfirst : first.val, later, hp with
  | 0, _ :: _, _ => exact nomatch hpadded (Fin.ext hfirst)
  | 0, [], hp =>
    rw [Digits.values, Digits.toList, List.map_cons, hfirst] at hp
    exact hp
  | n + 1, later, hp =>
    rw [Digits.values, Digits.toList, List.map_cons, hfirst] at hp
    exact hp

/-- The sign of an exponent stands before its digits. -/
theorem takeSign_chars (sign : Option Bool) (ds : Digits) (rest : List Char) :
    takeSign (Exponent.signChars sign ++ (ds.chars ++ rest)) =
      (sign == some true, ds.chars ++ rest) := by
  match sign with
  | some true => rfl
  | some false => rfl
  | none =>
    obtain ⟨first, later⟩ := ds
    have hminus : digit first ≠ '-' := by decide +revert
    have hplus : digit first ≠ '+' := by decide +revert
    change takeSign (digit first :: (later.map digit ++ rest)) = _
    unfold takeSign
    split
    · next heq => exact absurd (List.cons.inj heq).1 hminus
    · next heq => exact absurd (List.cons.inj heq).1 hplus
    · rfl

theorem takeExponent_chars (h : Ends rest) (l : Literal) :
    takeExponent unfinished (l.exponentChars ++ rest) = .ok (l.numeral.exponent, rest) := by
  rw [Literal.exponentChars, Literal.numeral]
  cases l.exponent with
  | none =>
    have hnone : takeExponent unfinished [] = .ok (none, []) := rfl
    exact takeExponent_append unfinished h hnone
  | some e =>
    have hletter : (if e.capital then 'E' else 'e') = 'e' ∨
        (if e.capital then 'E' else 'e') = 'E' := by
      cases e.capital <;> decide
    rw [Option.elim_some, Exponent.chars, List.cons_append, takeExponent, if_pos hletter,
      List.append_assoc, takeSign_chars]
    dsimp only
    rw [takeSome_digits unfinished h.noDigit]
    rfl

theorem noDigit_exponentChars (h : Ends rest) (l : Literal) :
    NoDigit (l.exponentChars ++ rest) := by
  rw [Literal.exponentChars]
  cases l.exponent with
  | none => exact h.noDigit
  | some e =>
    refine .cons ?_ _
    cases e.capital <;> rfl

theorem takeFraction_chars (h : Ends rest) (l : Literal) :
    takeFraction unfinished (l.fractionChars ++ (l.exponentChars ++ rest)) =
      .ok (l.numeral.fraction, l.exponentChars ++ rest) := by
  have hexponent := noDigit_exponentChars h l
  rw [Literal.fractionChars, Literal.numeral]
  cases l.fraction with
  | some ds =>
    rw [Option.elim_some, List.cons_append, takeFraction_cons, if_pos rfl]
    exact takeSome_digits unfinished hexponent ds
  | none =>
    have hpoint : ∀ c ∈ (l.exponentChars ++ rest).head?, c ≠ '.' := by
      rw [Literal.exponentChars]
      cases l.exponent with
      | none =>
        rintro _ hc rfl
        exact nomatch h _ hc
      | some e =>
        rintro _ ⟨⟩
        cases e.capital <;> decide
    rw [Option.elim_none, List.nil_append]
    cases hcs : l.exponentChars ++ rest with
    | nil => rfl
    | cons c cs =>
      rw [hcs] at hpoint
      rw [takeFraction_cons, if_neg (hpoint c rfl)]
      rfl

theorem noDigit_fractionChars (h : Ends rest) (l : Literal) :
    NoDigit (l.fractionChars ++ (l.exponentChars ++ rest)) := by
  rw [Literal.fractionChars]
  cases l.fraction with
  | none => exact noDigit_exponentChars h l
  | some ds => exact .cons rfl _

/-- A literal is read up to its end. -/
theorem take_chars (h : Ends rest) (l : Literal) :
    take unfinished (l.chars ++ rest) = .ok (l.numeral, rest) := by
  have hunsigned : takeUnsigned unfinished l.negative
      (l.whole.chars ++ (l.fractionChars ++ (l.exponentChars ++ rest))) =
        .ok (l.numeral, rest) := by
    refine bind_eq_ok_iff.mpr
      ⟨_, takeWhole_digits unfinished (noDigit_fractionChars h l) l.unpadded, ?_⟩
    refine bind_eq_ok_iff.mpr ⟨_, takeFraction_chars unfinished h l, ?_⟩
    exact bind_eq_ok_iff.mpr ⟨_, takeExponent_chars unfinished h l, rfl⟩
  have hsign : digit l.whole.first ≠ '-' := by
    generalize l.whole.first = first
    decide +revert
  rw [Literal.chars]
  simp only [List.append_assoc]
  cases hnegative : l.negative with
  | true =>
    rw [hnegative] at hunsigned
    rw [if_pos rfl, List.singleton_append, take_cons, if_pos rfl]
    exact hunsigned
  | false =>
    rw [hnegative] at hunsigned
    rw [if_neg Bool.false_ne_true, List.nil_append]
    refine Eq.trans ?_ hunsigned
    exact (take_cons unfinished _ _).trans (if_neg hsign)

end Numeral

theorem Number.take_chars {rest : List Char} (h : Ends rest) (l : Literal) :
    take (l.chars ++ rest) = (orMalformed l.number?).map fun n => (n, rest) := by
  rw [take, Numeral.take_chars .truncated h, Literal.number?]
  dsimp only [bind, Except.bind]
  cases l.numeral.number? <;> rfl

/-! ## Texts -/

theorem HexDigit.hexValue?_char (d : HexDigit) : hexValue? d.char = some d.value.val := by
  obtain ⟨value, capital⟩ := d
  cases capital <;> decide +revert

theorem hexUnit?_number (a b c d : HexDigit) :
    hexUnit? a.char b.char c.char d.char = some (Mark.number a b c d) := by
  simp only [hexUnit?, HexDigit.hexValue?_char]
  rfl

theorem unescape?_of_mem {letter c : Char} (h : (letter, c) ∈ shortEscapes) :
    unescape? letter = some c ∧ letter ≠ 'u' := by
  simp only [shortEscapes, List.mem_cons, List.not_mem_nil, or_false, Prod.mk.injEq] at h
  obtain ⟨rfl, rfl⟩ | ⟨rfl, rfl⟩ | ⟨rfl, rfl⟩ | ⟨rfl, rfl⟩ | ⟨rfl, rfl⟩ | ⟨rfl, rfl⟩ | ⟨rfl, rfl⟩ |
    ⟨rfl, rfl⟩ := h <;> decide

theorem characters_cons (done rest : List Char) (c : Char) (o : Option (List Char)) :
    (orMalformed o).map (fun cs => (String.ofList ((c :: done).reverse ++ cs), rest)) =
      (orMalformed (o.map (c :: ·))).map fun cs => (String.ofList (done.reverse ++ cs), rest) := by
  cases o with
  | none => rfl
  | some cs =>
    rw [orMalformed_some, Option.map_some, orMalformed_some, List.reverse_cons]
    exact congrArg (fun cs => Except.ok (String.ofList cs, rest)) (List.append_assoc _ _ _)

/-- Marks are read up to the closing quote, and malformed if half a character stands alone. -/
theorem unquoteOnto_marks (rest : List Char) (marks : Marks) (done : List Char) :
    unquoteOnto done (marks.flatMap Mark.chars ++ '"' :: rest) =
      (orMalformed (Mark.characters? marks)).map fun cs =>
        (String.ofList (done.reverse ++ cs), rest) := by
  fun_induction Mark.characters? marks generalizing done with
  | case1 =>
    rw [List.flatMap_nil, List.nil_append, unquoteOnto_end, orMalformed_some, Except.map,
      List.append_nil]
  | case2 c hquote hbackslash hvisible later ih =>
    rw [List.flatMap_cons, List.append_assoc, Mark.chars, List.singleton_append,
      unquoteOnto_plain done hquote hbackslash hvisible, ih, characters_cons]
  | case3 letter c known later ih =>
    obtain ⟨hletter, hu⟩ := unescape?_of_mem known
    rw [List.flatMap_cons, List.append_assoc, Mark.chars, List.cons_append, List.singleton_append,
      unquoteOnto_short done hu hletter, ih, characters_cons]
  | case4 a b c d later htrailing =>
    rw [List.flatMap_cons, List.append_assoc]
    exact unquoteOnto_trailing done (hexUnit?_number a b c d) htrailing _
  | case5 a b c d hnot hleading a' b' c' d' later htrailing ih =>
    have hpair := unquoteOnto_pair done (hexUnit?_number a b c d) hnot hleading
      (hexUnit?_number a' b' c' d') (later.flatMap Mark.chars ++ '"' :: rest)
    rw [if_pos htrailing, ih, characters_cons] at hpair
    rw [List.flatMap_cons, List.flatMap_cons, List.append_assoc, List.append_assoc]
    exact hpair
  | case6 a b c d hnot hleading a' b' c' d' later htrailing =>
    have hpair := unquoteOnto_pair done (hexUnit?_number a b c d) hnot hleading
      (hexUnit?_number a' b' c' d') (later.flatMap Mark.chars ++ '"' :: rest)
    rw [if_neg htrailing] at hpair
    rw [List.flatMap_cons, List.flatMap_cons, List.append_assoc, List.append_assoc]
    exact hpair
  | case7 a b c d later hnot hleading hother =>
    -- what follows is the closing quote or a mark of another kind
    have hn := hexUnit?_number a b c d
    rw [List.flatMap_cons, List.append_assoc]
    cases later with
    | nil => exact unquoteOnto_leading_plain done hn hnot hleading (by decide) rest
    | cons mark later =>
      cases mark with
      | plain x _ hx _ => exact unquoteOnto_leading_plain done hn hnot hleading hx _
      | short letter x known =>
        exact unquoteOnto_leading_short done hn hnot hleading (unescape?_of_mem known).2 _
      | unit a' b' c' d' => exact (hother a' b' c' d' later rfl).elim
  | case8 a b c d later hnot hleading ih =>
    have hsingle := unquoteOnto_single done (hexUnit?_number a b c d) hnot hleading
      (later.flatMap Mark.chars ++ '"' :: rest)
    rw [ih, characters_cons] at hsingle
    rw [List.flatMap_cons, List.append_assoc]
    exact hsingle

theorem unquote_marks (marks : Marks) (rest : List Char) :
    unquote (marks.flatMap Mark.chars ++ '"' :: rest) =
      (orMalformed marks.string?).map fun s => (s, rest) := by
  rw [unquote, unquoteOnto_marks, Marks.string?]
  cases Mark.characters? marks <;> rfl

/-- Marks are run over up to the closing quote, whatever they stand for. -/
theorem skipQuoted_marks (rest : List Char) (marks : Marks) :
    skipQuoted (marks.flatMap Mark.chars ++ '"' :: rest) = .ok rest := by
  induction marks with
  | nil => exact skipQuoted_end rest
  | cons mark marks ih =>
    rw [List.flatMap_cons, List.append_assoc]
    cases mark with
    | plain c hquote hbackslash hvisible =>
      rw [Mark.chars, List.singleton_append, skipQuoted_plain hquote hbackslash hvisible, ih]
    | short letter c known =>
      obtain ⟨hletter, hu⟩ := unescape?_of_mem known
      rw [Mark.chars, List.cons_append, List.singleton_append, skipQuoted_short hu hletter, ih]
    | unit a b c d =>
      have hunit : (hexUnit? a.char b.char c.char d.char).isSome = true := by
        rw [hexUnit?_number, Option.isSome_some]
      exact (skipQuoted_unit hunit _).trans ih

theorem Marks.chars_append (marks : Marks) (rest : List Char) :
    marks.chars ++ rest = '"' :: (marks.flatMap Mark.chars ++ '"' :: rest) := by
  rw [chars, List.cons_append, List.append_assoc, List.singleton_append]

/-! ## Atoms -/

theorem Literal.exists_cons (l : Literal) :
    ∃ c cs, l.chars = c :: cs ∧ (c = '-' ∨ isDigit c = true) := by
  rw [chars]
  cases l.negative with
  | true => exact ⟨'-', _, rfl, .inl rfl⟩
  | false => exact ⟨digit l.whole.first, _, rfl, .inr (isDigit_digit _)⟩

/-- What starts as a number does starts as no other atom. -/
theorem number_start {c : Char} (hc : c = '-' ∨ isDigit c = true) :
    c ≠ '"' ∧ c ≠ 'n' ∧ c ≠ 't' ∧ c ≠ 'f' := by
  refine ⟨?_, ?_, ?_, ?_⟩ <;> rintro rfl <;> exact absurd hc (by decide)

theorem readScalar_chars {rest : List Char} (h : Ends rest) (a : Atom) :
    readScalar (a.chars ++ rest) = a.value.map fun v => (v, rest) := by
  cases a with
  | null => rfl
  | boolean b => cases b <;> rfl
  | number l =>
    obtain ⟨c, cs, hcs, hc⟩ := l.exists_cons
    obtain ⟨hquote, hn, ht, hf⟩ := number_start hc
    have htake := Number.take_chars h l
    rw [hcs, List.cons_append] at htake
    rw [Atom.chars, hcs, List.cons_append, readScalar, if_neg hquote, if_neg hn, if_neg ht,
      if_neg hf, if_pos hc, htake, Atom.value]
    cases l.number? <;> rfl
  | text marks =>
    rw [Atom.chars, Marks.chars_append, readScalar, if_pos rfl, unquote_marks, Atom.value]
    cases marks.string? <;> rfl

theorem skipScalar_chars {rest : List Char} (h : Ends rest) (a : Atom) :
    skipScalar (a.chars ++ rest) = .ok rest := by
  cases a with
  | null => rfl
  | boolean b => cases b <;> rfl
  | number l =>
    obtain ⟨c, cs, hcs, hc⟩ := l.exists_cons
    obtain ⟨hquote, hn, ht, hf⟩ := number_start hc
    have htake := Numeral.take_chars .malformed h l
    rw [hcs, List.cons_append] at htake
    rw [Atom.chars, hcs, List.cons_append, skipScalar, if_neg hquote, if_neg hn, if_neg ht,
      if_neg hf, if_pos hc, htake]
    rfl
  | text marks =>
    rw [Atom.chars, Marks.chars_append, skipScalar, if_pos rfl, skipQuoted_marks]

end ScriptFeatures.Json
