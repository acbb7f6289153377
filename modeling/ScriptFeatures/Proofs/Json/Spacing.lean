import ScriptFeatures.Proofs.Json.Atoms
import ScriptFeatures.Proofs.Json.Reads

/-! Texts of the grammar by their tokens.

`Answers read tokens outcome` says what `read` makes of tokens, whatever blanks stand between them
and whatever closes after them: a value, or a fault. It holds of a reader of atoms if the reader
takes each atom at its front (`Answers.atom`). -/

namespace ScriptFeatures.Json

/-! ## Tokens and blanks -/

/-- What the first token of a value is: it starts with a character that is no blank and closes no
array. -/
def Opening (t : List Char) : Prop :=
  ∃ c cs, t = c :: cs ∧ isBlank c = false ∧ c ≠ ']'

/-- Tokens that may follow a value: something that separates or closes, or nothing. -/
def Closing (ts : List (List Char)) : Prop :=
  ∀ t ∈ ts.head?, t = [','] ∨ t = [']'] ∨ t = ['}']

theorem closing_nil : Closing [] := nofun

theorem dropBlanks_append {blanks : List Char} (h : blanks.all isBlank = true) (cs : List Char) :
    dropBlanks (blanks ++ cs) = dropBlanks cs := by
  induction blanks with
  | nil => rfl
  | cons b blanks ih =>
    rw [List.all_cons, Bool.and_eq_true] at h
    rw [List.cons_append, dropBlanks_blank h.1, ih h.2]

namespace Spaced

variable {t : List Char} {ts : List (List Char)} {cs : List Char}

/-- The first token comes after the blanks. -/
theorem exists_dropBlanks {c : Char} (h : Spaced ((c :: t) :: ts) cs) (hc : isBlank c = false) :
    ∃ rest, dropBlanks cs = c :: (t ++ rest) ∧ Spaced ts rest := by
  obtain ⟨blanks, rest, rfl, hblanks, hrest⟩ := h
  exact ⟨rest, by rw [dropBlanks_append hblanks, List.cons_append, dropBlanks_cons hc], hrest⟩

theorem dropBlanks_eq_nil (h : Spaced [] cs) : dropBlanks cs = [] := by
  have hdrop := dropBlanks_append h []
  rw [List.append_nil] at hdrop
  exact hdrop

/-- A token without blanks before it. -/
theorem token (t : List Char) (h : Spaced ts cs) : Spaced (t :: ts) (t ++ cs) :=
  ⟨[], cs, rfl, rfl, h⟩

theorem flatten : ∀ ts : List (List Char), Spaced ts ts.flatten
  | [] => rfl
  | t :: ts => (flatten ts).token t

/-- No number goes on into what follows a value. -/
theorem ends (h : Spaced ts cs) (hclosing : Closing ts) : Ends cs := by
  have hblank {c : Char} (hc : isBlank c = true) : goesOn c = false := by
    simp only [isBlank, Bool.or_eq_true, decide_eq_true_eq] at hc
    obtain ((rfl | rfl) | rfl) | rfl := hc <;> rfl
  cases ts with
  | nil =>
    cases cs with
    | nil => exact .nil
    | cons c cs => exact .cons (hblank (List.all_eq_true.mp h c List.mem_cons_self)) cs
  | cons t ts =>
    obtain ⟨blanks, rest, rfl, hblanks, -⟩ := h
    cases blanks with
    | nil => obtain rfl | rfl | rfl := hclosing t rfl <;> exact .cons rfl rest
    | cons b blanks =>
      exact .cons (hblank (List.all_eq_true.mp hblanks b List.mem_cons_self)) _

/-- There are at most as many tokens as characters. -/
theorem length_le {us : List (List Char)} (h : Spaced (us ++ ts) cs) (hus : ∀ u ∈ us, u ≠ []) :
    us.length ≤ cs.length := by
  induction us generalizing cs with
  | nil => exact Nat.zero_le _
  | cons u us ih =>
    obtain ⟨blanks, rest, rfl, -, hrest⟩ := h
    rw [List.forall_mem_cons] at hus
    have hlength := ih hrest hus.2
    have hpos := List.length_pos_iff.mpr hus.1
    simp only [List.length_cons, List.length_append]
    omega

end Spaced

/-! ## Tokens of forms -/

theorem Atom.exists_cons (a : Atom) :
    ∃ c cs, a.chars = c :: cs ∧ isBlank c = false ∧ c ≠ ']' ∧ c ≠ '[' ∧ c ≠ '{' := by
  cases a with
  | null => exact ⟨'n', _, rfl, by decide⟩
  | boolean b => cases b <;> exact ⟨_, _, rfl, by decide⟩
  | text marks => exact ⟨'"', _, rfl, by decide⟩
  | number l =>
    obtain ⟨c, cs, hcs, hc⟩ := l.exists_cons
    have hother : ∀ x ∈ [' ', '\t', '\n', '\r', ']', '[', '{'], c ≠ x := by
      rintro x hx rfl
      simp only [List.mem_cons, List.not_mem_nil, or_false] at hx
      obtain rfl | rfl | rfl | rfl | rfl | rfl | rfl := hx <;> exact absurd hc (by decide)
    simp only [List.forall_mem_cons] at hother
    exact ⟨c, cs, hcs, by simp [isBlank, hother]⟩

namespace Form

theorem exists_tokens (f : Form) : ∃ t ts, f.tokens = t :: ts ∧ Opening t := by
  cases f with
  | atom a =>
    obtain ⟨c, cs, hcs, hblank, hclose, -⟩ := a.exists_cons
    exact ⟨_, _, rfl, c, cs, hcs, hblank, hclose⟩
  | array items => cases items <;> exact ⟨['['], _, rfl, '[', [], rfl, rfl, by decide⟩
  | object members => cases members <;> exact ⟨['{'], _, rfl, '{', [], rfl, rfl, by decide⟩

mutual

theorem tokens_ne_nil : ∀ (f : Form), ∀ t ∈ f.tokens, t ≠ []
  | .atom a => by
    obtain ⟨c, cs, hcs, -⟩ := a.exists_cons
    simp [tokens, hcs]
  | .array [] => by simp [tokens]
  | .array (f :: fs) => by
    simp only [tokens, List.forall_mem_cons, List.forall_mem_append]
    exact ⟨List.cons_ne_nil _ _, tokens_ne_nil f, itemTokens_ne_nil fs⟩
  | .object [] => by simp [tokens]
  | .object ((name, f) :: ms) => by
    simp only [tokens, List.forall_mem_cons, List.forall_mem_append]
    exact ⟨List.cons_ne_nil _ _, List.cons_ne_nil _ _, List.cons_ne_nil _ _, tokens_ne_nil f,
      memberTokens_ne_nil ms⟩

theorem itemTokens_ne_nil : ∀ (fs : List Form), ∀ t ∈ itemTokens fs, t ≠ []
  | [] => by simp [itemTokens]
  | f :: fs => by
    simp only [itemTokens, List.forall_mem_cons, List.forall_mem_append]
    exact ⟨List.cons_ne_nil _ _, tokens_ne_nil f, itemTokens_ne_nil fs⟩

theorem memberTokens_ne_nil : ∀ (ms : List (Marks × Form)), ∀ t ∈ memberTokens ms, t ≠ []
  | [] => by simp [memberTokens]
  | (name, f) :: ms => by
    simp only [memberTokens, List.forall_mem_cons, List.forall_mem_append]
    exact ⟨List.cons_ne_nil _ _, List.cons_ne_nil _ _, List.cons_ne_nil _ _, tokens_ne_nil f,
      memberTokens_ne_nil ms⟩

end

theorem closing_itemTokens (fs : List Form) (ts : List (List Char)) :
    Closing (itemTokens fs ++ ts) := by
  cases fs with
  | nil => rintro _ ⟨⟩; exact .inr (.inl rfl)
  | cons f fs => rintro _ ⟨⟩; exact .inl rfl

theorem closing_memberTokens (ms : List (Marks × Form)) (ts : List (List Char)) :
    Closing (memberTokens ms ++ ts) := by
  cases ms with
  | nil => rintro _ ⟨⟩; exact .inr (.inr rfl)
  | cons m ms => rintro _ ⟨⟩; exact .inl rfl

theorem length_itemTokens (fs : List Form) : fs.length < (itemTokens fs).length := by
  induction fs with
  | nil => exact Nat.zero_lt_one
  | cons f fs ih =>
    simp only [itemTokens, List.length_cons, List.length_append]
    omega

theorem length_memberTokens (ms : List (Marks × Form)) : ms.length < (memberTokens ms).length := by
  induction ms with
  | nil => exact Nat.zero_lt_one
  | cons m ms ih =>
    simp only [memberTokens, List.length_cons, List.length_append]
    omega

end Form

/-! ## Answers -/

/-- What is read before the tokens `ts`: a value, if that is the outcome, with nothing but these
tokens left, or else the fault. -/
inductive Answer (ts : List (List Char)) :
    Except Fault (α × List Char) → Except Fault α → Prop
  | value (a : α) {rest : List Char} (h : Spaced ts rest) : Answer ts (.ok (a, rest)) (.ok a)
  | fault (fault : Fault) : Answer ts (.error fault) (.error fault)

namespace Answer

variable {ts ts' : List (List Char)} {x : Except Fault (α × List Char)} {o : Except Fault α}

theorem bind {f : α × List Char → Except Fault (β × List Char)} {g : α → Except Fault β}
    (h : Answer ts x o)
    (hf : ∀ a rest, o = .ok a → Spaced ts rest → Answer ts' (f (a, rest)) (g a)) :
    Answer ts' (x >>= f) (o >>= g) := by
  cases h with
  | value a h => exact hf a _ rfl h
  | fault fault => exact .fault fault

theorem map (h : Answer ts x o) (f : α → β) :
    Answer ts (x.map fun p => (f p.1, p.2)) (o.map f) := by
  cases h with
  | value a h => exact .value (f a) h
  | fault fault => exact .fault fault

end Answer

/-- What `read` makes of tokens, however they are spaced and whatever closes after them. -/
structure Answers (read : Read α) (tokens : List (List Char)) (outcome : Except Fault α) :
    Prop where
  answer {ts : List (List Char)} {cs : List Char} : Closing ts → Spaced (tokens ++ ts) cs →
    Answer ts (read cs) outcome

namespace Answers

variable {read : Read α} {tokens : List (List Char)} {o : Except Fault α}

theorem map (h : Answers read tokens o) (f : α → β) :
    Answers (f <$> read) tokens (o.map f) where
  answer {ts cs} hts hcs := by
    have hmap : (f <$> read) cs = (read cs).map fun p => (f p.1, p.2) := by
      change (read cs >>= fun p => pure (f p.1, p.2)) = _
      cases read cs <;> rfl
    rw [hmap]
    exact (h.answer hts hcs).map f

theorem after_colon (h : Answers read tokens o) :
    Answers (readColon >>= fun _ => read) ([':'] :: tokens) o where
  answer {ts cs} hts hcs := by
    obtain ⟨rest, hdrop, hrest⟩ := hcs.exists_dropBlanks rfl
    have hcolon : readColon cs = .ok ((), rest) := by
      rw [readColon, hdrop]
      rfl
    rw [Read.bind_of_ok hcolon]
    exact h.answer hts hrest

theorem atom {a : Atom} (h : ∀ {cs rest : List Char}, Ends rest →
    dropBlanks cs = a.chars ++ rest → read cs = o.map fun b => (b, rest)) :
    Answers read (Form.atom a).tokens o where
  answer {ts cs} hts hcs := by
    obtain ⟨c, t, ht, hc, -⟩ := a.exists_cons
    rw [Form.tokens, ht] at hcs
    obtain ⟨rest, hdrop, hrest⟩ := hcs.exists_dropBlanks hc
    rw [← List.cons_append, ← ht] at hdrop
    rw [h (hrest.ends hts) hdrop]
    cases o with
    | ok b => exact .value b hrest
    | error fault => exact .fault fault

theorem whole (h : Answers read tokens o) {text : List Char} (htext : Spaced tokens text) :
    read.whole text = o := by
  have htokens : Spaced (tokens ++ []) text := by rwa [List.append_nil]
  have hanswer := h.answer closing_nil htokens
  rw [Read.whole]
  generalize read text = x at hanswer
  cases hanswer with
  | fault fault => rfl
  | @value a rest hrest =>
    refine Outcome.bind_eq_ok_iff.mpr ⟨_, rfl, ?_⟩
    dsimp only
    rw [hrest.dropBlanks_eq_nil]
    rfl

/-- A scalar is read as what is chosen for its value. -/
theorem scalar (choose : Value → Option α) (a : Atom) :
    Answers (scalar choose) (Form.atom a).tokens
      (a.value >>= fun v => (choose v).elim (.error .mismatch) .ok) := by
  refine .atom fun hrest hcs => ?_
  have hread := readScalar_chars hrest a
  obtain ⟨c, t, ht, -, -, hbracket, hbrace⟩ := a.exists_cons
  rw [ht] at hread hcs
  rw [Json.scalar, hcs]
  dsimp only
  rw [if_neg (by simp [opens, hbracket, hbrace]), hread]
  cases a.value with
  | error fault => rfl
  | ok v =>
    dsimp only [Except.map, bind, Except.bind]
    cases choose v <;> rfl

/-- A text does not start as `null` does. -/
theorem optional_text {marks : Marks} (h : Answers read (Form.atom (.text marks)).tokens o) :
    Answers (optional read) (Form.atom (.text marks)).tokens (o.map some) where
  answer {ts cs} hts hcs := by
    obtain ⟨rest, hdrop, hrest⟩ := hcs.exists_dropBlanks rfl
    have hread := h.answer hts (hrest.token marks.chars)
    rw [Marks.chars, List.cons_append] at hread
    generalize marks.flatMap Mark.chars ++ ['"'] ++ rest = quoted at hdrop hread
    have hoptional : optional read cs = (read ('"' :: quoted)).map fun p => (some p.1, p.2) := by
      rw [optional, hdrop]
      change (read ('"' :: quoted) >>= fun p => pure (some p.1, p.2)) = _
      cases read ('"' :: quoted) <;> rfl
    rw [hoptional]
    exact hread.map some

end Answers

end ScriptFeatures.Json
