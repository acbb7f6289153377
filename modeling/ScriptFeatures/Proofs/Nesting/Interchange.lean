import ScriptFeatures.Proofs.Nesting.Literal
import ScriptFeatures.Proofs.Nesting.Locality

/-! What stands in literals and comments and how names are spelled does not matter to the estimate.
What stands before a literal, a comment or a name is scanned in the same way whatever it holds
(`Begins.alike`), it is passed over whole, and all of one kind leave the scan in the same state
(`Kind.estimate_finish`). So one can be exchanged for another of its kind. -/

namespace ScriptFeatures.Nesting

namespace Scan

/-- The scan of a text comes to a state in which a token, a blank or a comment begins with the rest
of the text. -/
def Begins (src : List UInt8) (s : Scan) (rest : List UInt8) : Prop :=
  ∃ t text newline, Steps .start src t text ∧ Gaps t.newline text newline rest ∧
    s = { t with newline }

namespace Begins

variable {src rest : List UInt8} {s : Scan}

theorem balanced (h : Begins src s rest) : s.Balanced := by
  obtain ⟨t, text, newline, hsteps, -, rfl⟩ := h
  exact hsteps.balanced .start

theorem estimateBytes_eq (h : Begins src s rest) :
    estimateBytes src = (s.finish rest).estimate := by
  obtain ⟨t, text, newline, hsteps, hgaps, rfl⟩ := h
  rw [Scan.estimateBytes_eq, hsteps.finish_eq .start]
  exact (hsteps.balanced .start).estimate_finish_gap hgaps.skipGap_eq

/-- What begins there can be exchanged for what begins alike. -/
theorem alike {c c' : UInt8} {p after : List UInt8} (h : Begins (p ++ c :: after) s (c :: after))
    (halike : Alike c c') (after' : List UInt8) : Begins (p ++ c' :: after') s (c' :: after') := by
  obtain ⟨t, text, newline, hsteps, hgaps, rfl⟩ := h
  obtain ⟨q, rfl⟩ := hgaps.suffix
  rw [← List.nil_append (c :: after)] at hgaps
  exact ⟨t, q ++ c' :: after', newline, hsteps.alike .start halike rfl rfl after',
    hgaps.alike halike after', rfl⟩

end Begins

/-! ## Tokens by their first byte -/

variable {s : Scan} {b : UInt8} {rest : List UInt8}

/-- A byte that is neither white space nor a slash begins a token. -/
theorem step_of_token (hblank : isBlankByte b = false) (hslash : b ≠ 0x2F) :
    s.step (b :: rest) = some ({ (s.token b rest).1 with newline := false },
      (s.token b rest).2) := by
  refine step_of_gap ?_
  simp only [isBlankByte, Bool.or_eq_false_iff] at hblank
  obtain ⟨⟨⟨⟨hbreak, hspace⟩, htab⟩, hvertical⟩, hform⟩ := hblank
  rw [skipGap_between_cons, beq_false_of_ne hslash, hbreak, hspace, htab, hvertical, hform]
  rfl

/-- So does a slash that begins no comment. -/
theorem step_of_slash (hline : rest.head? ≠ some 0x2F) (hblock : rest.head? ≠ some 0x2A) :
    s.step (0x2F :: rest) = some ({ (s.token 0x2F rest).1 with newline := false },
      (s.token 0x2F rest).2) := by
  refine step_of_gap ?_
  rw [skipGap_between_cons, beq_false_of_ne hline, beq_false_of_ne hblock]
  rfl

theorem token_word (hb : isWordStart b = true) :
    s.token b rest = (s.word (textOf (b :: rest.takeWhile isWordByte)),
      rest.dropWhile isWordByte) := by
  have hne (k : UInt8) (hk : isWordStart k = false) : (b == k) = false :=
    beq_false_of_ne (ne_of_test hb hk)
  rw [token, hne 0x27 (by decide), hne 0x22 (by decide), hne 0x60 (by decide),
    hne 0x2E (by decide), hne 0x28 (by decide), hne 0x5B (by decide), hne 0x7B (by decide),
    hne 0x29 (by decide), hne 0x5D (by decide), hne 0x7D (by decide), hne 0x2F (by decide),
    isDigitByte_of_isWordStart hb, isWordByte_of_isWordStart hb]
  rfl

theorem step_word (hb : isWordStart b = true) :
    s.step (b :: rest) = some ({ s.word (textOf (b :: rest.takeWhile isWordByte)) with
      newline := false }, rest.dropWhile isWordByte) := by
  have hblank : isBlankByte b = false := by
    have hne (k : UInt8) (hk : isWordStart k = false) : (b == k) = false :=
      beq_false_of_ne (ne_of_test hb hk)
    rw [isBlankByte, isBreakByte, hne 0x0A (by decide), hne 0x0D (by decide), hne 0x20 (by decide),
      hne 0x09 (by decide), hne 0x0B (by decide), hne 0x0C (by decide)]
    rfl
  rw [step_of_token hblank (ne_of_test hb (by decide)), token_word hb]

/-- The spelling of a plain word does not matter. -/
theorem word_plain {w : String} (hw : WordClass.of w = .plain) (s : Scan) :
    s.word w = (if s.expect == .property then s else s.startOperand).expecting .operator := by
  rw [word, hw]
  cases s.expect == .property <;> rfl

end Scan

/-! ## Kinds of texts -/

/-- The kinds of texts whose contents do not matter. -/
inductive Kind
  | comment
  | string (q : Quote)
  | template
  | regExp
  | word

namespace Kind

/-- A text is of a kind in front of another text. A comment is a block comment without line breaks,
a template has no expressions, and a regular expression has any flags. A word is a plain one
together with the bytes of the other text that go on with it. -/
def Holds (after : List UInt8) : Kind → List UInt8 → Prop
  | comment, u => ∃ text, u = 0x2F :: 0x2A :: (text ++ endMark) ∧ ¬endMark <:+: text ∧
      ∀ b ∈ text, isBreakByte b = false
  | string q, u => ∃ text, u = q.byte :: (text ++ [q.byte]) ∧ StringText q.byte text
  | template, u => ∃ text, u = 0x60 :: (text ++ [0x60]) ∧ TemplateText text
  | regExp, u => ∃ text flags, u = 0x2F :: (text ++ 0x2F :: flags) ∧ RegExpText false text ∧
      text ≠ [] ∧ text.head? ≠ some 0x2F ∧ text.head? ≠ some 0x2A ∧
      ∀ b ∈ flags, isWordByte b = true
  | word, u => ∃ b text, u = b :: text ∧ isWordStart b = true ∧
      (∀ b ∈ text, isWordByte b = true) ∧
      WordClass.of (textOf (b :: (text ++ after.takeWhile isWordByte))) = .plain

/-- The state behind a text of a kind. -/
def next (s : Scan) : Kind → Scan
  | comment => s
  | string _ | template | regExp =>
    { s.startOperand.expecting .operator with newline := false }
  | word =>
    { (if s.expect == .property then s else s.startOperand).expecting .operator with
      newline := false }

/-- What is left behind a text of a kind: word bytes go on with words and flags. -/
def rest (after : List UInt8) : Kind → List UInt8
  | comment | string _ | template => after
  | regExp | word => after.dropWhile isWordByte

variable {k : Kind} {u v after : List UInt8} {s : Scan}

/-- Texts of a kind begin alike. -/
theorem Holds.alike (hu : k.Holds after u) (hv : k.Holds after v) :
    ∃ c c' x y, u = c :: x ∧ v = c' :: y ∧ Alike c c' := by
  cases k with
  | comment =>
    obtain ⟨x, rfl, -⟩ := hu
    obtain ⟨y, rfl, -⟩ := hv
    exact ⟨0x2F, 0x2F, _, _, rfl, rfl, .same (by decide)⟩
  | string q =>
    obtain ⟨x, rfl, -⟩ := hu
    obtain ⟨y, rfl, -⟩ := hv
    exact ⟨q.byte, q.byte, _, _, rfl, rfl, .same (by cases q <;> decide)⟩
  | template =>
    obtain ⟨x, rfl, -⟩ := hu
    obtain ⟨y, rfl, -⟩ := hv
    exact ⟨0x60, 0x60, _, _, rfl, rfl, .same (by decide)⟩
  | regExp =>
    obtain ⟨x, flags, rfl, -⟩ := hu
    obtain ⟨y, flags', rfl, -⟩ := hv
    exact ⟨0x2F, 0x2F, _, _, rfl, rfl, .same (by decide)⟩
  | word =>
    obtain ⟨c, x, rfl, hc, -⟩ := hu
    obtain ⟨c', y, rfl, hc', -⟩ := hv
    exact ⟨c, c', x, y, rfl, rfl, .word hc hc'⟩

/-! ## What a text of a kind leaves -/

theorem skipGap_comment {text : List UInt8} (newline : Bool) (hend : ¬endMark <:+: text)
    (hbreak : ∀ b ∈ text, isBreakByte b = false) :
    skipGap .between newline (0x2F :: 0x2A :: (text ++ endMark) ++ after) =
      skipGap .between newline after := by
  have hany : text.any isBreakByte = false :=
    List.any_eq_false.mpr fun b hb => Bool.eq_false_iff.mp (hbreak b hb)
  have hgaps : Gaps newline (0x2F :: 0x2A :: (text ++ (endMark ++ after))) newline after := by
    refine .block hend ?_
    rw [hany, Bool.or_false]
    exact .refl _ _
  have htext : 0x2F :: 0x2A :: (text ++ endMark) ++ after =
      0x2F :: 0x2A :: (text ++ (endMark ++ after)) := by
    rw [List.cons_append, List.cons_append, List.append_assoc]
  rw [htext, hgaps.skipGap_eq]

theorem step_string {q : Quote} {text : List UInt8} (htext : StringText q.byte text) :
    s.step (q.byte :: (text ++ [q.byte]) ++ after) = some ((string q).next s, after) := by
  have hend : skipString q.byte (text ++ [q.byte] ++ after) = after := by
    rw [List.append_assoc, htext.skipString_append, List.singleton_append, skipString_quote]
  have hstep : s.step (q.byte :: (text ++ [q.byte] ++ after)) =
      some ((string q).next s, skipString q.byte (text ++ [q.byte] ++ after)) := by
    cases q <;> rfl
  rw [List.cons_append, hstep, hend]

theorem step_template {text : List UInt8} (htext : TemplateText text) :
    s.step (0x60 :: (text ++ [0x60]) ++ after) = some (template.next s, after) := by
  have hend : skipTemplate (text ++ [0x60] ++ after) = (.closed, after) := by
    rw [List.append_assoc, List.singleton_append, htext.skipTemplate]
  have htoken : s.token 0x60 (text ++ [0x60] ++ after) =
      s.startOperand.template (text ++ [0x60] ++ after) := rfl
  rw [List.cons_append, Scan.step_of_token (by decide) (by decide), htoken, Scan.template, hend]
  rfl

theorem step_regExp {text flags : List UInt8} (htext : RegExpText false text) (hne : text ≠ [])
    (hline : text.head? ≠ some 0x2F) (hblock : text.head? ≠ some 0x2A)
    (hflags : ∀ b ∈ flags, isWordByte b = true) (hexpect : s.expect ≠ .operator) :
    s.step (0x2F :: (text ++ 0x2F :: flags) ++ after) =
      some (regExp.next s, regExp.rest after) := by
  have hend : skipRegExp (text ++ 0x2F :: flags ++ after) = after.dropWhile isWordByte := by
    rw [List.append_assoc, List.cons_append, skipRegExp, htext.skipRegExpBody]
    exact List.dropWhile_append_of_pos hflags
  have hhead : (text ++ 0x2F :: flags ++ after).head? = text.head? := by
    rw [List.append_assoc, List.head?_append_of_ne_nil _ hne]
  have hcond : ((0x2F : UInt8) == 0x2F && s.expect != .operator) = true := by
    simpa using hexpect
  have htoken : s.token 0x2F (text ++ 0x2F :: flags ++ after) =
      (s.startOperand.expecting .operator, skipRegExp (text ++ 0x2F :: flags ++ after)) :=
    if_pos hcond
  rw [List.cons_append, Scan.step_of_slash (hhead ▸ hline) (hhead ▸ hblock), htoken, hend]
  rfl

theorem step_word {b : UInt8} {text : List UInt8} (hb : isWordStart b = true)
    (htext : ∀ b ∈ text, isWordByte b = true)
    (hplain : WordClass.of (textOf (b :: (text ++ after.takeWhile isWordByte))) = .plain) :
    s.step (b :: text ++ after) = some (word.next s, word.rest after) := by
  rw [List.cons_append, Scan.step_word hb, List.takeWhile_append_of_pos htext,
    List.dropWhile_append_of_pos htext, Scan.word_plain hplain]
  rfl

/-- A scan goes on behind a text of a kind in the same way, whatever the text holds. -/
theorem Holds.estimate_finish (hu : k.Holds after u) (hs : s.Balanced)
    (hregExp : k = .regExp → s.expect ≠ .operator) :
    (s.finish (u ++ after)).estimate = ((k.next s).finish (k.rest after)).estimate := by
  cases k with
  | comment =>
    obtain ⟨text, rfl, hend, hbreak⟩ := hu
    exact hs.estimate_finish_gap (skipGap_comment s.newline hend hbreak)
  | string q =>
    obtain ⟨text, rfl, htext⟩ := hu
    rw [hs.finish_step (step_string htext)]
    rfl
  | template =>
    obtain ⟨text, rfl, htext⟩ := hu
    rw [hs.finish_step (step_template htext)]
    rfl
  | regExp =>
    obtain ⟨text, flags, rfl, htext, hne, hline, hblock, hflags⟩ := hu
    rw [hs.finish_step (step_regExp htext hne hline hblock hflags (hregExp rfl))]
  | word =>
    obtain ⟨b, text, rfl, hb, htext, hplain⟩ := hu
    rw [hs.finish_step (step_word hb htext hplain)]

end Kind

/-! ## Exchanging texts -/

/-- A literal, comment or word can be exchanged for another of its kind where the scan of the text
comes to it as a token, or as a comment between tokens; a regular expression only where it is none
for a division. The scan comes to the other one in the same state, and the estimate is the same. -/
theorem estimateBytes_interchange {k : Kind} {a b u v : List UInt8} {s : Scan}
    (hbegins : Scan.Begins (a ++ (u ++ b)) s (u ++ b)) (hu : k.Holds b u) (hv : k.Holds b v)
    (hregExp : k = .regExp → s.expect ≠ .operator) :
    Scan.Begins (a ++ (v ++ b)) s (v ++ b) ∧
    estimateBytes (a ++ (u ++ b)) = estimateBytes (a ++ (v ++ b)) := by
  have hthere : Scan.Begins (a ++ (v ++ b)) s (v ++ b) := by
    obtain ⟨c, c', x, y, rfl, rfl, halike⟩ := hu.alike hv
    exact hbegins.alike halike (y ++ b)
  have hs := hbegins.balanced
  refine ⟨hthere, ?_⟩
  rw [hbegins.estimateBytes_eq, hthere.estimateBytes_eq, hu.estimate_finish hs hregExp,
    hv.estimate_finish hs hregExp]

/-- Behind `x = ` the regular expression `/[/(]/g` can be exchanged for `/a/`. -/
theorem estimateBytes_interchange_regExp :
    ∃ s, Scan.Begins
        ([0x78, 0x20, 0x3D, 0x20] ++ ([0x2F, 0x5B, 0x2F, 0x28, 0x5D, 0x2F, 0x67] ++ [0x2E, 0x79])) s
        ([0x2F, 0x5B, 0x2F, 0x28, 0x5D, 0x2F, 0x67] ++ [0x2E, 0x79]) ∧
      s.expect ≠ .operator ∧
      Kind.regExp.Holds [0x2E, 0x79] [0x2F, 0x5B, 0x2F, 0x28, 0x5D, 0x2F, 0x67] ∧
      Kind.regExp.Holds [0x2E, 0x79] [0x2F, 0x61, 0x2F] ∧
      estimateBytes
          ([0x78, 0x20, 0x3D, 0x20] ++
            ([0x2F, 0x5B, 0x2F, 0x28, 0x5D, 0x2F, 0x67] ++ [0x2E, 0x79])) =
        estimateBytes ([0x78, 0x20, 0x3D, 0x20] ++ ([0x2F, 0x61, 0x2F] ++ [0x2E, 0x79])) := by
  have hbegins : Scan.Begins
      ([0x78, 0x20, 0x3D, 0x20] ++ ([0x2F, 0x5B, 0x2F, 0x28, 0x5D, 0x2F, 0x67] ++ [0x2E, 0x79])) _
      ([0x2F, 0x5B, 0x2F, 0x28, 0x5D, 0x2F, 0x67] ++ [0x2E, 0x79]) :=
    ⟨_, _, _, .next rfl (.next rfl (.refl _ _)), .blank rfl (.refl _ _), rfl⟩
  have hu : Kind.regExp.Holds [0x2E, 0x79] [0x2F, 0x5B, 0x2F, 0x28, 0x5D, 0x2F, 0x67] :=
    ⟨[0x5B, 0x2F, 0x28, 0x5D], [0x67], rfl,
      .opening (.slash (.plain (by decide) (.closing .nil))), by decide, by decide, by decide,
      List.all_iff_forall_prop.mp (by decide)⟩
  have hv : Kind.regExp.Holds [0x2E, 0x79] [0x2F, 0x61, 0x2F] :=
    ⟨[0x61], [], rfl, .plain (by decide) .nil, by decide, by decide, by decide, nofun⟩
  exact ⟨_, hbegins, by decide, hu, hv,
    (estimateBytes_interchange hbegins hu hv fun _ => by decide).2⟩

/-- What follows a word can go on with it to another word, here from `i` to `if`. -/
example : estimate "if(a)" = ⟨2, 2⟩ ∧ estimate "jf(a)" = ⟨1, 2⟩ := by decide +kernel

end ScriptFeatures.Nesting
