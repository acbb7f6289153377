import ScriptFeatures.Proofs.Json.Members
import ScriptFeatures.Proofs.Json.Spacing

/-! Values of any form are read as the grammar says. Readers of containers answer if the readers of
what is in them do, by induction on the items or members in the order of the text
(`answer_readItems`, `answer_readMembers`); so readers of values answer, by recursion on the form
(`answers_readValue`). -/

namespace ScriptFeatures.Json

/-! ## Arrays -/

section

variable {ts : List (List Char)} {cs : List Char}

theorem nextItem_bracket (first : Bool) (h : Spaced ([']'] :: ts) cs) :
    ∃ rest, nextItem first cs = .ok (false, rest) ∧ Spaced ts rest := by
  obtain ⟨rest, hdrop, hrest⟩ := h.exists_dropBlanks rfl
  refine ⟨rest, ?_, hrest⟩
  rw [nextItem, hdrop]
  exact if_pos rfl

variable (f : Form)

theorem nextItem_true (h : Spaced (f.tokens ++ ts) cs) :
    ∃ rest, nextItem true cs = .ok (true, rest) ∧ Spaced (f.tokens ++ ts) rest := by
  obtain ⟨t, later, hf, c, t', rfl, hc, hclose⟩ := f.exists_tokens
  rw [hf, List.cons_append] at h ⊢
  obtain ⟨rest, hdrop, hrest⟩ := h.exists_dropBlanks hc
  refine ⟨_, ?_, hrest.token _⟩
  rw [nextItem, hdrop]
  simp [hclose]

theorem nextItem_false (h : Spaced ([','] :: (f.tokens ++ ts)) cs) :
    ∃ rest, nextItem false cs = .ok (true, rest) ∧ Spaced (f.tokens ++ ts) rest := by
  obtain ⟨t, later, hf, c, t', rfl, hc, hclose⟩ := f.exists_tokens
  rw [hf, List.cons_append] at h ⊢
  obtain ⟨rest, hdrop, hrest⟩ := h.exists_dropBlanks rfl
  obtain ⟨rest', hdrop', hrest'⟩ := hrest.exists_dropBlanks hc
  refine ⟨_, ?_, hrest'.token _⟩
  rw [nextItem, hdrop]
  simp [hdrop', hclose]

end

section

variable {read : Read α} {outcome : Form → Except Fault α} {ts : List (List Char)}
  {cs : List Char}

/-- The items of an array after the first, by induction on them. -/
theorem answer_readItems (items : List Form)
    (h : ∀ f ∈ items, Answers read f.tokens (outcome f)) {bound : List Char}
    (hbound : items.length < bound.length) (done : List α)
    (hcs : Spaced (Form.itemTokens items ++ ts) cs) :
    Answer ts (readItems read bound false done cs)
      ((items.mapM outcome).map (done.reverse ++ ·)) := by
  induction items generalizing bound done cs with
  | nil =>
    obtain ⟨b, bound, rfl⟩ := List.exists_cons_of_length_pos hbound
    obtain ⟨rest, hnext, hrest⟩ := nextItem_bracket false hcs
    rw [readItems_cons, hnext, List.mapM_nil]
    change Answer ts (.ok (done.reverse, rest)) (.ok (done.reverse ++ []))
    rw [List.append_nil]
    exact .value _ hrest
  | cons f fs ih =>
    obtain ⟨b, bound, rfl⟩ := List.exists_cons_of_length_pos (Nat.zero_lt_of_lt hbound)
    rw [List.forall_mem_cons] at h
    rw [Form.itemTokens, List.cons_append, List.append_assoc] at hcs
    obtain ⟨rest, hnext, hrest⟩ := nextItem_false f hcs
    have hlater : ((f :: fs).mapM outcome).map (done.reverse ++ ·) =
        outcome f >>= fun a => (fs.mapM outcome).map ((a :: done).reverse ++ ·) := by
      rw [List.mapM_cons]
      cases outcome f with
      | error fault => rfl
      | ok a =>
        change (fs.mapM outcome >>= fun as => pure (a :: as)).map _ = (fs.mapM outcome).map _
        cases fs.mapM outcome with
        | error fault => rfl
        | ok as =>
          rw [List.reverse_cons]
          exact congrArg Except.ok (List.append_cons done.reverse a as)
    rw [readItems_cons, hnext, hlater]
    exact (h.1.answer (Form.closing_itemTokens fs ts) hrest).bind fun a rest _ hrest =>
      ih h.2 (Nat.lt_of_succ_lt_succ hbound) (a :: done) hrest

/-- The items of an array after its bracket. -/
theorem answer_readItems_array (items : List Form)
    (h : ∀ f ∈ items, Answers read f.tokens (outcome f))
    (hcs : Spaced ((Form.array items).tokens ++ ts) cs) :
    ∃ rest, dropBlanks cs = '[' :: rest ∧
      Answer ts (readItems read ('[' :: rest) true [] rest) (items.mapM outcome) := by
  cases items with
  | nil =>
    obtain ⟨rest, hdrop, hrest⟩ := hcs.exists_dropBlanks rfl
    obtain ⟨rest', hnext, hrest'⟩ := nextItem_bracket true hrest
    refine ⟨rest, hdrop, ?_⟩
    rw [readItems_cons, hnext]
    exact .value [] hrest'
  | cons f fs =>
    rw [Form.tokens, List.cons_append] at hcs
    rw [List.forall_mem_cons] at h
    obtain ⟨rest, hdrop, hrest⟩ := hcs.exists_dropBlanks rfl
    -- the loop is bounded by the text after the bracket, which has a character for each token
    have hbound : fs.length < rest.length := by
      have htokens := hrest.length_le (List.forall_mem_append.mpr
        ⟨f.tokens_ne_nil, Form.itemTokens_ne_nil fs⟩)
      have hitems := Form.length_itemTokens fs
      rw [List.length_append] at htokens
      omega
    rw [List.append_assoc] at hrest
    obtain ⟨rest', hnext, hrest'⟩ := nextItem_true f hrest
    refine ⟨rest, hdrop, ?_⟩
    rw [readItems_cons, hnext, List.mapM_cons]
    refine (h.1.answer (Form.closing_itemTokens fs ts) hrest').bind fun a rest _ hrest => ?_
    have hitems := answer_readItems fs h.2 hbound [a] hrest
    rwa [List.reverse_singleton] at hitems

/-- A list is read item by item. -/
theorem answers_listOf (items : List Form) (h : ∀ f ∈ items, Answers read f.tokens (outcome f)) :
    Answers (listOf read) (Form.array items).tokens (items.mapM outcome) where
  answer {ts cs} _ hcs := by
    obtain ⟨rest, hdrop, hanswer⟩ := answer_readItems_array items h hcs
    rw [listOf, hdrop]
    exact hanswer

end

/-! ## Objects -/

section

variable {ts : List (List Char)} {cs : List Char}

theorem nextMember_brace (first : Bool) (h : Spaced (['}'] :: ts) cs) :
    ∃ rest, nextMember first cs = .ok (none, rest) ∧ Spaced ts rest := by
  obtain ⟨rest, hdrop, hrest⟩ := h.exists_dropBlanks rfl
  refine ⟨rest, ?_, hrest⟩
  rw [nextMember, hdrop]
  exact if_pos rfl

variable (name : Marks)

theorem Spaced.exists_name (h : Spaced (name.chars :: ts) cs) :
    ∃ quoted, dropBlanks cs = '"' :: quoted ∧
      Answer ts (unquote quoted) (orMalformed name.string?) := by
  obtain ⟨rest, hdrop, hrest⟩ := h.exists_dropBlanks rfl
  refine ⟨_, hdrop, ?_⟩
  rw [List.append_assoc, List.singleton_append, unquote_marks]
  cases name.string? with
  | none => exact .fault _
  | some s => exact .value s hrest

theorem exists_nextMember_true (h : Spaced (name.chars :: ts) cs) :
    ∃ quoted, nextMember true cs = (unquote quoted).map (fun p => (some p.1, p.2)) ∧
      Answer ts (unquote quoted) (orMalformed name.string?) := by
  obtain ⟨quoted, hdrop, hanswer⟩ := h.exists_name name
  refine ⟨quoted, ?_, hanswer⟩
  rw [nextMember, hdrop]
  rfl

theorem exists_nextMember_false (h : Spaced ([','] :: name.chars :: ts) cs) :
    ∃ quoted, nextMember false cs = (unquote quoted).map (fun p => (some p.1, p.2)) ∧
      Answer ts (unquote quoted) (orMalformed name.string?) := by
  obtain ⟨rest, hdrop, hrest⟩ := h.exists_dropBlanks rfl
  obtain ⟨quoted, hquoted, hanswer⟩ := hrest.exists_name name
  refine ⟨quoted, ?_, hanswer⟩
  rw [nextMember, hdrop]
  dsimp only [List.nil_append]
  rw [if_neg (by decide), if_neg Bool.false_ne_true, if_pos rfl, hquoted]
  rfl

end

theorem readMembers_of_nextMember {step : σ → String → Read σ} {first : Bool} {cs : List Char}
    {x : Except Fault (String × List Char)}
    (h : nextMember first cs = x.map fun p => (some p.1, p.2)) (b : Char) (bound : List Char)
    (s : σ) :
    readMembers step (b :: bound) first s cs =
      (x >>= fun p => step s p.1 p.2 >>= fun q => readMembers step bound false q.1 q.2) := by
  rw [readMembers_cons, h]
  cases x <;> rfl

/-- What the members of an object make of a state one after the other. -/
def throughMembers (outcome : σ → String → Form → Except Fault σ) :
    List (Marks × Form) → σ → Except Fault σ
  | [], s => .ok s
  | (name, f) :: members, s => do
    let name ← orMalformed name.string?
    let s ← outcome s name f
    throughMembers outcome members s

theorem throughMembers_cons {outcome : σ → String → Form → Except Fault σ} {marks : Marks}
    {name : String} (h : marks.string? = some name) (f : Form) (members : List (Marks × Form))
    (s : σ) :
    throughMembers outcome ((marks, f) :: members) s =
      outcome s name f >>= throughMembers outcome members := by
  rw [throughMembers, h]
  rfl

section

variable {step : σ → String → Read σ} {outcome : σ → String → Form → Except Fault σ}
  {ts : List (List Char)} {cs : List Char}

/-- The members of an object after the first, by induction on them. -/
theorem answer_readMembers (members : List (Marks × Form))
    (h : ∀ m ∈ members, ∀ s, ∀ name, m.1.string? = some name →
      Answers (step s name) ([':'] :: m.2.tokens) (outcome s name m.2))
    {bound : List Char} (hbound : members.length < bound.length) (s : σ)
    (hcs : Spaced (Form.memberTokens members ++ ts) cs) :
    Answer ts (readMembers step bound false s cs) (throughMembers outcome members s) := by
  induction members generalizing bound s cs with
  | nil =>
    obtain ⟨b, bound, rfl⟩ := List.exists_cons_of_length_pos hbound
    obtain ⟨rest, hnext, hrest⟩ := nextMember_brace false hcs
    rw [readMembers_cons, hnext]
    exact .value s hrest
  | cons m members ih =>
    obtain ⟨b, bound, rfl⟩ := List.exists_cons_of_length_pos (Nat.zero_lt_of_lt hbound)
    obtain ⟨name, f⟩ := m
    rw [List.forall_mem_cons] at h
    simp only [Form.memberTokens, List.cons_append, List.append_assoc] at hcs
    obtain ⟨quoted, hnext, hname⟩ := exists_nextMember_false name hcs
    rw [readMembers_of_nextMember hnext, throughMembers]
    refine hname.bind fun name rest hname hrest => ?_
    have hfirst := h.1 s name (orMalformed_eq_ok_iff.mp hname)
    exact (hfirst.answer (Form.closing_memberTokens members ts) hrest).bind fun s rest _ hrest =>
      ih h.2 (Nat.lt_of_succ_lt_succ hbound) s hrest

/-- The members of an object after its brace. -/
theorem answer_readMembers_object (members : List (Marks × Form))
    (h : ∀ m ∈ members, ∀ s, ∀ name, m.1.string? = some name →
      Answers (step s name) ([':'] :: m.2.tokens) (outcome s name m.2))
    (s : σ) (hcs : Spaced ((Form.object members).tokens ++ ts) cs) :
    ∃ rest, dropBlanks cs = '{' :: rest ∧
      Answer ts (readMembers step ('{' :: rest) true s rest)
        (throughMembers outcome members s) := by
  cases members with
  | nil =>
    obtain ⟨rest, hdrop, hrest⟩ := hcs.exists_dropBlanks rfl
    obtain ⟨rest', hnext, hrest'⟩ := nextMember_brace true hrest
    refine ⟨rest, hdrop, ?_⟩
    rw [readMembers_cons, hnext]
    exact .value s hrest'
  | cons m members =>
    obtain ⟨name, f⟩ := m
    simp only [Form.tokens, List.cons_append] at hcs
    rw [List.forall_mem_cons] at h
    obtain ⟨rest, hdrop, hrest⟩ := hcs.exists_dropBlanks rfl
    -- the loop is bounded by the text after the brace, which has a character for each token
    have hbound : members.length < rest.length := by
      have hlater : Spaced ((name.chars :: [':'] :: (f.tokens ++ Form.memberTokens members)) ++ ts)
          rest := hrest
      have htokens := hlater.length_le
        (List.forall_mem_cons.mpr ⟨List.cons_ne_nil _ _, List.forall_mem_cons.mpr
          ⟨List.cons_ne_nil _ _, List.forall_mem_append.mpr
            ⟨f.tokens_ne_nil, Form.memberTokens_ne_nil members⟩⟩⟩)
      have hmembers := Form.length_memberTokens members
      simp only [List.length_cons, List.length_append] at htokens
      omega
    obtain ⟨quoted, hnext, hname⟩ := exists_nextMember_true name hrest
    refine ⟨rest, hdrop, ?_⟩
    rw [readMembers_of_nextMember hnext, throughMembers]
    refine hname.bind fun name rest hname hrest => ?_
    rw [List.append_assoc] at hrest
    have hfirst := h.1 s name (orMalformed_eq_ok_iff.mp hname)
    exact (hfirst.answer (Form.closing_memberTokens members ts) hrest).bind fun s rest _ hrest =>
      answer_readMembers members h.2 hbound s hrest

end

/-! ## Values -/

theorem Form.itemValues_eq_mapM (depth : Nat) (items : List Form) :
    itemValues items depth = items.mapM (·.value depth) := by
  induction items with
  | nil => rw [itemValues, List.mapM_nil]; rfl
  | cons f fs ih => rw [itemValues, List.mapM_cons, ih]

/-- What a member adds to the members before it, the last first. -/
def memberOutcome (depth : Nat) (done : List (String × Value)) (name : String) (f : Form) :
    Except Fault (List (String × Value)) :=
  (f.value depth).map fun v => (name, v) :: done

theorem throughMembers_memberOutcome (depth : Nat) (members : List (Marks × Form))
    (done : List (String × Value)) :
    throughMembers (memberOutcome depth) members done =
      (Form.memberValues members depth).map fun ms => ms.reverse ++ done := by
  induction members generalizing done with
  | nil => rfl
  | cons m members ih =>
    obtain ⟨name, f⟩ := m
    rw [throughMembers, Form.memberValues]
    cases name.string? with
    | none => rfl
    | some name =>
      change (memberOutcome depth done name f >>= throughMembers (memberOutcome depth) members) =
        ((f.value depth >>= fun v => Form.memberValues members depth >>= fun rest =>
          pure ((name, v) :: rest)).map _)
      rw [memberOutcome]
      cases f.value depth with
      | error fault => rfl
      | ok v =>
        change throughMembers (memberOutcome depth) members ((name, v) :: done) =
          (Form.memberValues members depth >>= fun rest => pure ((name, v) :: rest)).map _
        rw [ih]
        cases Form.memberValues members depth with
        | error fault => rfl
        | ok rest => exact congrArg Except.ok (by simp)

theorem answers_readMember {depth : Nat} {f : Form}
    (h : Answers (readValue depth) f.tokens (f.value depth)) (done : List (String × Value))
    (name : String) :
    Answers (readMember depth done name) ([':'] :: f.tokens) (memberOutcome depth done name f) :=
  (h.map fun v => (name, v) :: done).after_colon

theorem answers_readValue_atom (depth : Nat) (a : Atom) :
    Answers (readValue depth) (Form.atom a).tokens a.value := by
  refine .atom fun hrest hcs => ?_
  have hread := readScalar_chars hrest a
  obtain ⟨c, t, ht, -, -, hbracket, hbrace⟩ := a.exists_cons
  rw [ht] at hread hcs
  cases depth with
  | zero =>
    rw [readValue]
    dsimp only
    rw [hcs, hread]
    simp [opens, hbracket, hbrace]
  | succ depth =>
    rw [readValue]
    dsimp only
    rw [hcs]
    simp [hbracket, hbrace, ← hread]

theorem answers_readValue_array {depth : Nat} {items : List Form}
    (h : ∀ f ∈ items, Answers (readValue depth) f.tokens (f.value depth)) :
    Answers (readValue (depth + 1)) (Form.array items).tokens
      ((Form.array items).value (depth + 1)) where
  answer {ts cs} _ hcs := by
    obtain ⟨rest, hdrop, hanswer⟩ := answer_readItems_array items h hcs
    rw [readValue, Form.value, Form.itemValues_eq_mapM]
    dsimp only
    rw [hdrop]
    change Answer ts (readItems (readValue depth) ('[' :: rest) true [] rest >>= fun p =>
      Except.ok (Value.array p.1, p.2))
      (items.mapM (·.value depth) >>= fun vs => Except.ok (Value.array vs))
    exact hanswer.bind fun vs rest _ hrest => .value _ hrest

theorem answers_readValue_object {depth : Nat} {members : List (Marks × Form)}
    (h : ∀ m ∈ members, Answers (readValue depth) m.2.tokens (m.2.value depth)) :
    Answers (readValue (depth + 1)) (Form.object members).tokens
      ((Form.object members).value (depth + 1)) where
  answer {ts cs} _ hcs := by
    obtain ⟨rest, hdrop, hanswer⟩ := answer_readMembers_object members
      (fun m hm done name _ => answers_readMember (h m hm) done name) [] hcs
    have houtcome : (Form.object members).value (depth + 1) =
        throughMembers (memberOutcome depth) members [] >>= fun ms =>
          Except.ok (Value.object ms.reverse) := by
      rw [throughMembers_memberOutcome, Form.value]
      cases Form.memberValues members depth with
      | error fault => rfl
      | ok ms => exact congrArg (fun ms => Except.ok (Value.object ms)) (by simp)
    rw [readValue, houtcome]
    dsimp only
    rw [hdrop]
    change Answer ts (readMembers (readMember depth) ('{' :: rest) true [] rest >>= fun p =>
      Except.ok (Value.object p.1.reverse, p.2)) _
    exact hanswer.bind fun ms rest _ hrest => .value _ hrest

/-- No container is opened beyond the bound. -/
theorem answers_readValue_zero {f : Form} {c : Char} {t : List Char} {ts : List (List Char)}
    (htokens : f.tokens = (c :: t) :: ts) (hc : c = '[' ∨ c = '{') :
    Answers (readValue 0) f.tokens (.error .malformed) where
  answer {ts' cs} _ hcs := by
    have hblank : isBlank c = false := by obtain rfl | rfl := hc <;> rfl
    rw [htokens] at hcs
    obtain ⟨rest, hdrop, -⟩ := hcs.exists_dropBlanks hblank
    have hread : readValue 0 cs = .error .malformed := by
      rw [readValue]
      dsimp only
      rw [hdrop]
      simp [opens, hc]
    rw [hread]
    exact .fault _

mutual

/-- A value of any form is read as the grammar says. -/
theorem answers_readValue : ∀ (f : Form) (depth : Nat),
    Answers (readValue depth) f.tokens (f.value depth)
  | .atom a, depth => by
    rw [Form.value]
    exact answers_readValue_atom depth a
  | .array [], 0 => answers_readValue_zero rfl (.inl rfl)
  | .array (_ :: _), 0 => answers_readValue_zero rfl (.inl rfl)
  | .array items, depth + 1 => answers_readValue_array (answers_readValue_items items depth)
  | .object [], 0 => answers_readValue_zero rfl (.inr rfl)
  | .object (_ :: _), 0 => answers_readValue_zero rfl (.inr rfl)
  | .object members, depth + 1 =>
    answers_readValue_object (answers_readValue_members members depth)

theorem answers_readValue_items : ∀ (items : List Form) (depth : Nat), ∀ f ∈ items,
    Answers (readValue depth) f.tokens (f.value depth)
  | [], _ => by simp
  | f :: fs, depth => by
    rw [List.forall_mem_cons]
    exact ⟨answers_readValue f depth, answers_readValue_items fs depth⟩

theorem answers_readValue_members : ∀ (members : List (Marks × Form)) (depth : Nat),
    ∀ m ∈ members, Answers (readValue depth) m.2.tokens (m.2.value depth)
  | [], _ => by simp
  | (_, f) :: ms, depth => by
    rw [List.forall_mem_cons]
    exact ⟨answers_readValue f depth, answers_readValue_members ms depth⟩

end

end ScriptFeatures.Json
