import ScriptFeatures.Proofs.Json.Skip
import ScriptFeatures.Proofs.Json.Spacing

/-! Values of any form are run over, whatever they mean. What is open is kept in a list, so the run
has no recursion of its own: `Goes` counts its steps from one place to another, and a form takes no
more steps than it has tokens (`goes_tokens`). -/

namespace ScriptFeatures.Json

/-- A run over a text goes from one place to another in `n` steps at most. -/
def Goes (n : Nat) (place : Place) (outer : List Container) (cs : List Char) (place' : Place)
    (outer' : List Container) (cs' : List Char) : Prop :=
  ∃ k ≤ n, ∀ bound : List Char, k ≤ bound.length →
    skipFrom bound place outer cs = skipFrom (bound.drop k) place' outer' cs'

namespace Goes

variable {n m : Nat} {place place' place'' : Place} {outer outer' outer'' : List Container}
  {cs cs' cs'' : List Char}

theorem of_step (h : ∀ b bound,
    skipFrom (b :: bound) place outer cs = skipFrom bound place' outer' cs') :
    Goes 1 place outer cs place' outer' cs' := by
  refine ⟨1, Nat.le_refl 1, fun bound hbound => ?_⟩
  obtain ⟨b, bound, rfl⟩ := List.exists_cons_of_length_pos hbound
  exact h b bound

theorem trans (h : Goes n place outer cs place' outer' cs')
    (h' : Goes m place' outer' cs' place'' outer'' cs'') :
    Goes (n + m) place outer cs place'' outer'' cs'' := by
  obtain ⟨k, hk, hgoes⟩ := h
  obtain ⟨k', hk', hgoes'⟩ := h'
  refine ⟨k + k', Nat.add_le_add hk hk', fun bound hbound => ?_⟩
  have hdrop : k' ≤ (bound.drop k).length := by
    rw [List.length_drop]
    omega
  rw [hgoes bound (by omega), hgoes' _ hdrop, List.drop_drop]

theorem mono (h : Goes n place outer cs place' outer' cs') (hnm : n ≤ m) :
    Goes m place outer cs place' outer' cs' := by
  obtain ⟨k, hk, hgoes⟩ := h
  exact ⟨k, Nat.le_trans hk hnm, hgoes⟩

end Goes

section

variable {ts : List (List Char)} {cs : List Char} (outer : List Container)

theorem goes_atom (a : Atom) (hts : Closing ts) (h : Spaced (a.chars :: ts) cs) :
    ∃ rest, Spaced ts rest ∧ Goes 1 .value outer cs .follow outer rest := by
  obtain ⟨c, t, ht, hc, -, hbracket, hbrace⟩ := a.exists_cons
  rw [ht] at h
  obtain ⟨rest, hdrop, hrest⟩ := h.exists_dropBlanks hc
  have hskip := skipScalar_chars (hrest.ends hts) a
  rw [ht, List.cons_append] at hskip
  refine ⟨rest, hrest, .of_step fun b bound => ?_⟩
  rw [skipFrom, hdrop]
  dsimp only
  rw [if_neg (by simp [hbracket, hbrace]), hskip]
  rfl

theorem goes_close (container : Container) (h : Spaced ([container.closing] :: ts) cs) :
    ∃ rest, Spaced ts rest ∧ Goes 1 .follow (container :: outer) cs .follow outer rest := by
  obtain ⟨rest, hdrop, hrest⟩ := h.exists_dropBlanks (by cases container <;> rfl)
  refine ⟨rest, hrest, .of_step fun b bound => ?_⟩
  rw [skipFrom, hdrop]
  exact if_pos rfl

theorem goes_bracket_bracket (h : Spaced (['['] :: [']'] :: ts) cs) :
    ∃ rest, Spaced ts rest ∧ Goes 1 .value outer cs .follow outer rest := by
  obtain ⟨rest, hdrop, hrest⟩ := h.exists_dropBlanks rfl
  obtain ⟨rest', hdrop', hrest'⟩ := hrest.exists_dropBlanks rfl
  refine ⟨rest', hrest', .of_step fun b bound => ?_⟩
  rw [skipFrom, hdrop]
  simp [hdrop', Container.closing]

theorem goes_brace_brace (h : Spaced (['{'] :: ['}'] :: ts) cs) :
    ∃ rest, Spaced ts rest ∧ Goes 1 .value outer cs .follow outer rest := by
  obtain ⟨rest, hdrop, hrest⟩ := h.exists_dropBlanks rfl
  obtain ⟨rest', hdrop', hrest'⟩ := hrest.exists_dropBlanks rfl
  refine ⟨rest', hrest', .of_step fun b bound => ?_⟩
  rw [skipFrom, hdrop]
  simp [hdrop', Container.closing]

theorem goes_bracket (f : Form) (h : Spaced (['['] :: (f.tokens ++ ts)) cs) :
    ∃ rest, Spaced (f.tokens ++ ts) rest ∧
      Goes 1 .value outer cs .value (.array :: outer) rest := by
  obtain ⟨t, later, hf, c, t', rfl, hc, hclose⟩ := f.exists_tokens
  rw [hf, List.cons_append] at h ⊢
  obtain ⟨rest, hdrop, hrest⟩ := h.exists_dropBlanks rfl
  obtain ⟨rest', hdrop', hrest'⟩ := hrest.exists_dropBlanks hc
  refine ⟨_, hrest'.token _, .of_step fun b bound => ?_⟩
  rw [skipFrom, hdrop]
  dsimp only [List.nil_append]
  rw [if_pos (.inl rfl), hdrop']
  change (if c = ']' then skipFrom bound .follow outer _
    else skipFrom bound .value (.array :: outer) (c :: t' ++ rest')) = _
  rw [if_neg hclose]

theorem goes_comma_item (h : Spaced ([','] :: ts) cs) :
    ∃ rest, Spaced ts rest ∧ Goes 1 .follow (.array :: outer) cs .value (.array :: outer) rest := by
  obtain ⟨rest, hdrop, hrest⟩ := h.exists_dropBlanks rfl
  refine ⟨rest, hrest, .of_step fun b bound => ?_⟩
  rw [skipFrom, hdrop]
  rfl

variable (name : Marks)

theorem skipName_name (h : Spaced (name.chars :: [':'] :: ts) cs) :
    ∃ rest, skipName .object cs = .ok rest ∧ Spaced ts rest := by
  obtain ⟨rest, hdrop, hrest⟩ := h.exists_dropBlanks rfl
  obtain ⟨rest', hcolon, hrest'⟩ := hrest.exists_dropBlanks rfl
  refine ⟨rest', ?_, hrest'⟩
  rw [skipName]
  dsimp only
  rw [hdrop, List.append_assoc, List.singleton_append]
  dsimp only
  rw [if_pos rfl, skipQuoted_marks]
  change (readColon rest >>= fun p => pure p.2) = _
  rw [readColon, hcolon]
  rfl

theorem goes_brace (h : Spaced (['{'] :: name.chars :: [':'] :: ts) cs) :
    ∃ rest, Spaced ts rest ∧ Goes 1 .value outer cs .value (.object :: outer) rest := by
  obtain ⟨rest, hdrop, hrest⟩ := h.exists_dropBlanks rfl
  obtain ⟨rest', hdrop', hrest'⟩ := hrest.exists_dropBlanks rfl
  obtain ⟨rest'', hname, hrest''⟩ := skipName_name name (hrest'.token name.chars)
  refine ⟨rest'', hrest'', .of_step fun b bound => ?_⟩
  rw [skipFrom, hdrop]
  dsimp only [List.nil_append]
  rw [if_pos (.inr rfl), hdrop']
  change (if '"' = '}' then skipFrom bound .follow outer _
    else skipName .object (name.chars ++ rest') >>= fun rest =>
      skipFrom bound .value (.object :: outer) rest) = _
  rw [if_neg (by decide), hname]
  rfl

theorem goes_comma_member (h : Spaced ([','] :: name.chars :: [':'] :: ts) cs) :
    ∃ rest, Spaced ts rest ∧
      Goes 1 .follow (.object :: outer) cs .value (.object :: outer) rest := by
  obtain ⟨rest, hdrop, hrest⟩ := h.exists_dropBlanks rfl
  obtain ⟨rest', hname, hrest'⟩ := skipName_name name hrest
  refine ⟨rest', hrest', .of_step fun b bound => ?_⟩
  rw [skipFrom, hdrop]
  dsimp only [List.nil_append]
  rw [if_neg (by decide), if_pos rfl, hname]
  rfl

end

mutual

theorem goes_tokens {ts : List (List Char)} :
    ∀ (f : Form) (outer : List Container) (cs : List Char),
    Closing ts → Spaced (f.tokens ++ ts) cs →
    ∃ rest, Spaced ts rest ∧ Goes f.tokens.length .value outer cs .follow outer rest
  | .atom a, outer, cs, hts, hcs => goes_atom outer a hts hcs
  | .array [], outer, cs, hts, hcs => by
    obtain ⟨rest, hrest, hgoes⟩ := goes_bracket_bracket outer hcs
    exact ⟨rest, hrest, hgoes.mono (Nat.le_succ 1)⟩
  | .array (f :: fs), outer, cs, hts, hcs => by
    rw [Form.tokens, List.cons_append, List.append_assoc] at hcs
    obtain ⟨rest, hrest, hopen⟩ := goes_bracket outer f hcs
    obtain ⟨rest', hrest', hfirst⟩ := goes_tokens f (.array :: outer) rest
      (Form.closing_itemTokens fs ts) hrest
    obtain ⟨rest'', hrest'', hlater⟩ := goes_itemTokens fs outer rest' hrest'
    refine ⟨rest'', hrest'', ((hopen.trans hfirst).trans hlater).mono ?_⟩
    simp only [Form.tokens, List.length_cons, List.length_append]
    omega
  | .object [], outer, cs, hts, hcs => by
    obtain ⟨rest, hrest, hgoes⟩ := goes_brace_brace outer hcs
    exact ⟨rest, hrest, hgoes.mono (Nat.le_succ 1)⟩
  | .object ((name, f) :: ms), outer, cs, hts, hcs => by
    simp only [Form.tokens, List.cons_append, List.append_assoc] at hcs
    obtain ⟨rest, hrest, hopen⟩ := goes_brace outer name hcs
    obtain ⟨rest', hrest', hfirst⟩ := goes_tokens f (.object :: outer) rest
      (Form.closing_memberTokens ms ts) hrest
    obtain ⟨rest'', hrest'', hlater⟩ := goes_memberTokens ms outer rest' hrest'
    refine ⟨rest'', hrest'', ((hopen.trans hfirst).trans hlater).mono ?_⟩
    simp only [Form.tokens, List.length_cons, List.length_append]
    omega

theorem goes_itemTokens {ts : List (List Char)} :
    ∀ (fs : List Form) (outer : List Container) (cs : List Char),
    Spaced (Form.itemTokens fs ++ ts) cs →
    ∃ rest, Spaced ts rest ∧
      Goes (Form.itemTokens fs).length .follow (.array :: outer) cs .follow outer rest
  | [], outer, cs, hcs => goes_close outer .array hcs
  | f :: fs, outer, cs, hcs => by
    rw [Form.itemTokens, List.cons_append, List.append_assoc] at hcs
    obtain ⟨rest, hrest, hcomma⟩ := goes_comma_item outer hcs
    obtain ⟨rest', hrest', hfirst⟩ := goes_tokens f (.array :: outer) rest
      (Form.closing_itemTokens fs ts) hrest
    obtain ⟨rest'', hrest'', hlater⟩ := goes_itemTokens fs outer rest' hrest'
    refine ⟨rest'', hrest'', ((hcomma.trans hfirst).trans hlater).mono ?_⟩
    simp only [Form.itemTokens, List.length_cons, List.length_append]
    omega

theorem goes_memberTokens {ts : List (List Char)} :
    ∀ (ms : List (Marks × Form)) (outer : List Container) (cs : List Char),
    Spaced (Form.memberTokens ms ++ ts) cs →
    ∃ rest, Spaced ts rest ∧
      Goes (Form.memberTokens ms).length .follow (.object :: outer) cs .follow outer rest
  | [], outer, cs, hcs => goes_close outer .object hcs
  | (name, f) :: ms, outer, cs, hcs => by
    simp only [Form.memberTokens, List.cons_append, List.append_assoc] at hcs
    obtain ⟨rest, hrest, hcomma⟩ := goes_comma_member outer name hcs
    obtain ⟨rest', hrest', hfirst⟩ := goes_tokens f (.object :: outer) rest
      (Form.closing_memberTokens ms ts) hrest
    obtain ⟨rest'', hrest'', hlater⟩ := goes_memberTokens ms outer rest' hrest'
    refine ⟨rest'', hrest'', ((hcomma.trans hfirst).trans hlater).mono ?_⟩
    simp only [Form.memberTokens, List.length_cons, List.length_append]
    omega

end

/-- A value of any form is run over, whatever it means. -/
theorem answers_skipValue (f : Form) : Answers skipValue f.tokens (.ok ()) where
  answer {ts cs} hts hcs := by
    obtain ⟨rest, hrest, k, hk, hgoes⟩ := goes_tokens f [] cs hts hcs
    -- the bound has one character more than the text, so a step is left to stop in
    have htokens := hcs.length_le f.tokens_ne_nil
    have hleft : 0 < ((' ' :: cs).drop k).length := by
      rw [List.length_drop, List.length_cons]
      omega
    obtain ⟨b, bound, hbound⟩ := List.exists_cons_of_length_pos hleft
    have hskip : skipFrom (' ' :: cs) .value [] cs = .ok rest := by
      rw [hgoes _ (by rw [List.length_cons]; omega), hbound]
      rfl
    rw [skipValue, hskip]
    exact .value () hrest

end ScriptFeatures.Json
