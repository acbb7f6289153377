import ScriptFeatures.Proofs.Text.Lowercase
import ScriptFeatures.Proofs.Text.Runs

/-! Words as what a regular expression finds. The pattern `\b\w\w+\b` matches exactly around the
maximal runs of word characters that have two characters or more (`word_matches_iff`), so from any
place on it matches in one way at most, and finding its matches from left to right, none over
another, finds the words in their order (`findAll_word`). -/

namespace ScriptFeatures.Text

/-! ## Patterns -/

/-- Patterns of regular expressions, as far as words need them. -/
inductive Pattern where
  /-- A place that has a character of a class on one side only. -/
  | boundary (inClass : Char → Bool)
  /-- A character of a class. -/
  | one (inClass : Char → Bool)
  /-- Characters of a class, at least one and as many as possible. -/
  | many (inClass : Char → Bool)
  | andThen (first second : Pattern)

namespace Pattern

/-- Whether a pattern matches `taken` between what stands before it, the last character first, and
what is left. -/
def Matches : Pattern → List Char → List Char → List Char → Prop
  | boundary inClass, before, taken, left =>
    taken = [] ∧ before.head?.any inClass ≠ left.head?.any inClass
  | one inClass, _, taken, _ => ∃ c, taken = [c] ∧ inClass c = true
  | many inClass, _, taken, _ => taken ≠ [] ∧ ∀ c ∈ taken, inClass c = true
  | andThen first second, before, taken, left =>
    ∃ a b, taken = a ++ b ∧ first.Matches before a (b ++ left) ∧
      second.Matches (a.reverse ++ before) b left

/-- The ways to take characters of a class from the start of a text, at least one, the longest
first: what is taken and what is left. -/
def takes (inClass : Char → Bool) : List Char → List (List Char × List Char)
  | [] => []
  | c :: rest =>
    if inClass c then (takes inClass rest).map (fun way => (c :: way.1, way.2)) ++ [([c], rest)]
    else []

/-- The ways in which a pattern matches at the start of a text, the one that is preferred first:
what is taken and what is left. -/
def matchesAt : Pattern → List Char → List Char → List (List Char × List Char)
  | boundary inClass, before, text =>
    if before.head?.any inClass = text.head?.any inClass then [] else [([], text)]
  | one _, _, [] => []
  | one inClass, _, c :: rest => if inClass c then [([c], rest)] else []
  | many inClass, _, text => takes inClass text
  | andThen first second, before, text =>
    (first.matchesAt before text).flatMap fun way =>
      (second.matchesAt (way.1.reverse ++ before) way.2).map fun next =>
        (way.1 ++ next.1, next.2)

/-- The matches of a pattern that takes at least one character, from left to right, none of them
over another. `skip` more characters belong to the match before. -/
def findAll (p : Pattern) : Nat → List Char → List Char → List (List Char)
  | _, _, [] => []
  | skip + 1, before, c :: rest => findAll p skip (c :: before) rest
  | 0, before, c :: rest =>
    match p.matchesAt before (c :: rest) with
    | [] => findAll p 0 (c :: before) rest
    | (taken, _) :: _ => taken :: findAll p (taken.length - 1) (c :: before) rest

/-- The pattern `\b\w\w+\b` for a class of characters. -/
def word (inClass : Char → Bool) : Pattern :=
  andThen (boundary inClass) (andThen (one inClass) (andThen (many inClass) (boundary inClass)))

/-! ## Matches -/

theorem mem_takes {inClass : Char → Bool} {text taken left : List Char} :
    (taken, left) ∈ takes inClass text ↔
      text = taken ++ left ∧ taken ≠ [] ∧ ∀ c ∈ taken, inClass c = true := by
  induction text generalizing taken with
  | nil =>
    refine iff_of_false List.not_mem_nil ?_
    rintro ⟨htext, hne, -⟩
    exact hne (List.append_eq_nil_iff.mp htext.symm).1
  | cons c rest ih =>
    rw [takes]
    cases taken with
    | nil => split <;> simp
    | cons a taken =>
      split
      · next hc =>
        rw [List.mem_append, List.mem_map, List.mem_singleton]
        constructor
        · rintro (⟨⟨more, rest⟩, hmore, heq⟩ | heq)
          · cases heq
            obtain ⟨rfl, -, hclass⟩ := ih.mp hmore
            exact ⟨rfl, List.cons_ne_nil _ _, List.forall_mem_cons.mpr ⟨hc, hclass⟩⟩
          · cases heq
            exact ⟨rfl, List.cons_ne_nil _ _, by simpa using hc⟩
        · rintro ⟨htext, -, hclass⟩
          obtain ⟨rfl, hrest⟩ := List.cons_eq_cons.mp htext
          cases taken with
          | nil => exact .inr (by rw [hrest]; rfl)
          | cons b taken =>
            have hmore := ih.mpr ⟨hrest, List.cons_ne_nil _ _,
              fun d hd => hclass d (List.mem_cons_of_mem c hd)⟩
            exact .inl ⟨_, hmore, rfl⟩
      · next hc =>
        refine iff_of_false List.not_mem_nil ?_
        rintro ⟨htext, -, hclass⟩
        obtain ⟨rfl, -⟩ := List.cons_eq_cons.mp htext
        exact hc (hclass c List.mem_cons_self)

/-- The ways that are listed are the matches. -/
theorem mem_matchesAt {p : Pattern} {before text taken left : List Char} :
    (taken, left) ∈ p.matchesAt before text ↔
      text = taken ++ left ∧ p.Matches before taken left := by
  induction p generalizing before text taken left with
  | boundary inClass =>
    rw [matchesAt]
    split
    · next hsame =>
      refine iff_of_false List.not_mem_nil ?_
      rintro ⟨rfl, rfl, hdiffer⟩
      exact hdiffer hsame
    · next hdiffer =>
      rw [List.mem_singleton]
      constructor
      · rintro ⟨⟩
        exact ⟨rfl, rfl, hdiffer⟩
      · rintro ⟨rfl, rfl, -⟩
        rfl
  | one inClass =>
    cases text with
    | nil =>
      refine iff_of_false List.not_mem_nil ?_
      rintro ⟨htext, c, rfl, -⟩
      cases htext
    | cons c rest =>
      rw [matchesAt]
      split
      · next hc =>
        rw [List.mem_singleton]
        constructor
        · rintro ⟨⟩
          exact ⟨rfl, c, rfl, hc⟩
        · rintro ⟨htext, a, rfl, -⟩
          cases htext
          rfl
      · next hc =>
        refine iff_of_false List.not_mem_nil ?_
        rintro ⟨htext, a, rfl, ha⟩
        cases htext
        exact hc ha
  | many inClass => exact mem_takes
  | andThen first second ihfirst ihsecond =>
    simp only [matchesAt, List.mem_flatMap, List.mem_map, Prod.exists, ihfirst, ihsecond]
    constructor
    · rintro ⟨a, _, ⟨rfl, hfirst⟩, b, rest, ⟨rfl, hsecond⟩, heq⟩
      cases heq
      exact ⟨(List.append_assoc a b _).symm, a, b, rfl, hfirst, hsecond⟩
    · rintro ⟨rfl, a, b, rfl, hfirst, hsecond⟩
      exact ⟨a, b ++ left, ⟨List.append_assoc a b left, hfirst⟩, b, left, ⟨rfl, hsecond⟩, rfl⟩

/-! ## Finding matches -/

section

variable {p : Pattern} {before rest taken left : List Char} {c : Char}

theorem findAll_skip (p : Pattern) (before skipped rest : List Char) :
    p.findAll skipped.length before (skipped ++ rest) =
      p.findAll 0 (skipped.reverse ++ before) rest := by
  induction skipped generalizing before with
  | nil => rfl
  | cons c skipped ih =>
    rw [List.length_cons, List.cons_append, findAll, ih, List.reverse_cons, List.append_assoc]
    rfl

theorem findAll_of_no_match
    (h : ∀ taken left, c :: rest = taken ++ left → ¬p.Matches before taken left) :
    p.findAll 0 before (c :: rest) = p.findAll 0 (c :: before) rest := by
  have hnone : p.matchesAt before (c :: rest) = [] := by
    refine List.eq_nil_iff_forall_not_mem.mpr fun way hway => ?_
    obtain ⟨htext, hmatch⟩ := mem_matchesAt.mp hway
    exact h _ _ htext hmatch
  rw [findAll, hnone]

/-- Where a pattern matches in one way only, this is the match that is found, and what stands behind
it is searched next. -/
theorem findAll_of_unique (hmatch : p.Matches before (c :: taken) left)
    (hunique : ∀ taken' left', c :: taken ++ left = taken' ++ left' →
      p.Matches before taken' left' → taken' = c :: taken) :
    p.findAll 0 before (c :: taken ++ left) =
      (c :: taken) :: p.findAll 0 ((c :: taken).reverse ++ before) left := by
  have hlisted : (c :: taken, left) ∈ p.matchesAt before (c :: taken ++ left) :=
    mem_matchesAt.mpr ⟨rfl, hmatch⟩
  rw [List.cons_append] at hlisted hunique ⊢
  rw [findAll]
  cases hways : p.matchesAt before (c :: (taken ++ left)) with
  | nil => rw [hways] at hlisted; exact absurd hlisted List.not_mem_nil
  | cons way ways =>
    obtain ⟨htext, hway⟩ := mem_matchesAt.mp (hways ▸ List.mem_cons_self : way ∈ _)
    have hfirst := hunique _ _ htext hway
    dsimp only
    rw [hfirst, List.length_cons, Nat.add_sub_cancel, findAll_skip, List.reverse_cons,
      List.append_assoc]
    rfl

end

/-! ## Words -/

section

variable {inClass : Char → Bool} {before taken left : List Char}

theorem runEnds_iff_any {rest : List Char} :
    RunEnds inClass rest ↔ rest.head?.any inClass = false := by
  cases rest <;> simp [RunEnds]

theorem any_head?_reverse {more : List Char} (hne : more ≠ [])
    (hmore : ∀ c ∈ more, inClass c = true) (before : List Char) :
    (more.reverse ++ before).head?.any inClass = true := by
  obtain ⟨last, hlast⟩ := Option.ne_none_iff_exists'.mp (mt List.getLast?_eq_none_iff.mp hne)
  rw [List.head?_append, List.head?_reverse, hlast]
  exact hmore last (List.mem_of_getLast? hlast)

/-- A word is matched exactly where it is a maximal run of two characters or more. -/
theorem word_matches_iff :
    (word inClass).Matches before taken left ↔
      2 ≤ taken.length ∧ (∀ c ∈ taken, inClass c = true) ∧ RunEnds inClass before ∧
        RunEnds inClass left := by
  constructor
  · rintro ⟨_, _, rfl, ⟨rfl, hstart⟩, _, _, rfl, ⟨c, rfl, hc⟩, more, _, rfl, ⟨hne, hmore⟩, rfl,
      hend⟩
    have hpos := List.length_pos_iff.mpr hne
    rw [any_head?_reverse hne hmore] at hend
    refine ⟨?_, ?_, ?_, ?_⟩
    · simp only [List.nil_append, List.append_nil, List.length_append, List.length_singleton]
      omega
    · simpa [hc] using hmore
    · simpa [runEnds_iff_any, hc] using hstart
    · simpa [runEnds_iff_any] using hend.symm
  · rintro ⟨hlength, hclass, hbefore, hleft⟩
    cases taken with
    | nil => simp at hlength
    | cons c more =>
      obtain ⟨hc, hmore⟩ := List.forall_mem_cons.mp hclass
      have hne : more ≠ [] := by
        rintro rfl
        simp at hlength
      refine ⟨[], c :: more, rfl, ⟨rfl, ?_⟩, [c], more, rfl, ⟨c, rfl, hc⟩, more, [],
        (List.append_nil more).symm, ⟨hne, hmore⟩, rfl, ?_⟩
      · simp [runEnds_iff_any.mp hbefore, hc]
      · rw [any_head?_reverse hne hmore, runEnds_iff_any.mp hleft]
        exact Bool.noConfusion

theorem not_word_matches {c : Char} {rest : List Char} (hc : inClass c = false)
    (htext : c :: rest = taken ++ left) : ¬(word inClass).Matches before taken left := by
  intro hmatch
  obtain ⟨hlength, hclass, -, -⟩ := word_matches_iff.mp hmatch
  cases taken with
  | nil => simp at hlength
  | cons a taken =>
    obtain ⟨rfl, -⟩ := List.cons_eq_cons.mp htext
    exact nomatch hc.symm.trans (hclass c List.mem_cons_self)

theorem word_matches_unique {run rest : List Char} (hclass : ∀ c ∈ run, inClass c = true)
    (hrest : RunEnds inClass rest) (htext : run ++ rest = taken ++ left)
    (hmatch : (word inClass).Matches before taken left) : taken = run := by
  obtain ⟨-, htaken, -, hleft⟩ := word_matches_iff.mp hmatch
  rw [← takeWhile_run htaken hleft, ← htext, takeWhile_run hclass hrest]

/-- Finding the pattern of words finds the runs that are long enough. A run that has begun before
the place where one searches has to end there. -/
theorem findAll_word (text before : List Char)
    (hplace : RunEnds inClass before ∨ RunEnds inClass text) :
    (word inClass).findAll 0 before text = (runs inClass text).filter (2 ≤ ·.length) := by
  induction text using run_induction inClass generalizing before with
  | nil => rfl
  | gap c rest hc ih =>
    rw [findAll_of_no_match fun _ _ htext => not_word_matches hc htext, runs_cons hc]
    exact ih _ (.inl (runEnds_cons.mpr hc))
  | run run rest hne hclass hrest ih =>
    obtain ⟨c, more, rfl⟩ := List.exists_cons_of_ne_nil hne
    have hc : inClass c = true := hclass c List.mem_cons_self
    have hbefore : RunEnds inClass before := by
      refine hplace.resolve_right fun hends => ?_
      exact nomatch (runEnds_cons.mp hends).symm.trans hc
    have hunique : ∀ taken left, c :: more ++ rest = taken ++ left →
        (word inClass).Matches before taken left → taken = c :: more := fun _ _ =>
      word_matches_unique hclass hrest
    rw [runs_append hne hclass hrest]
    -- the run is taken as a whole or is too short; either way the search goes on behind it
    by_cases hlength : 2 ≤ (c :: more).length
    · have hmatch := word_matches_iff.mpr ⟨hlength, hclass, hbefore, hrest⟩
      rw [findAll_of_unique hmatch hunique, ih _ (.inr hrest), List.filter_cons_of_pos]
      simpa using hlength
    · have hnone : ∀ taken left, c :: (more ++ rest) = taken ++ left →
          ¬(word inClass).Matches before taken left := by
        intro taken left htext hmatch
        rw [hunique taken left htext hmatch, word_matches_iff] at hmatch
        exact hlength hmatch.1
      have hmore : more = [] := by
        cases more with
        | nil => rfl
        | cons _ _ => simp at hlength
      rw [List.cons_append, findAll_of_no_match hnone, hmore, List.nil_append, ih _ (.inr hrest)]
      rfl

end

end Pattern

/-! ## The main result -/

/-- The pattern of words. -/
def wordPattern : Pattern :=
  .word isWord

theorem words_append {c : Char} (hc : isWord c = false) (first second : String) :
    words (first ++ String.singleton c ++ second) = words first ++ words second := by
  rw [words, String.toList_append, String.toList_append, String.toList_singleton,
    List.append_assoc, List.singleton_append, runs_append_cons hc, List.filter_append,
    List.map_append]
  rfl

/-- The words of a text are its maximal runs of word characters that have two characters or more, in
order, and the same as all matches of the pattern of words. So a character that is no word
character separates the words before it from those behind it. -/
theorem tokenize_maximal_runs :
    (∀ (lower : Bool) (text : String),
      let chars := (if lower then lowercase text else text).toList
      (∃ cuts : List Cut, tokenize lower text = cuts.map (fun cut => String.ofList cut.run) ∧
        cuts.Pairwise (fun a b => a.before.length < b.before.length) ∧
        ∀ cut, cut ∈ cuts ↔ cut.text = chars ∧ cut.Maximal isWord ∧ 2 ≤ cut.run.length) ∧
      tokenize lower text = (wordPattern.findAll 0 [] chars).map String.ofList) ∧
    ∀ (first second : String) (c : Char), isWord c = false →
      tokenize false (first ++ String.singleton c ++ second) =
        tokenize false first ++ tokenize false second := by
  refine ⟨fun lower text => ⟨?_, ?_⟩, fun first second c hc => words_append hc first second⟩
  · obtain ⟨cuts, hruns, horder, hcuts⟩ :=
      runs_cuts isWord (if lower then lowercase text else text).toList
    refine ⟨cuts.filter (2 ≤ ·.run.length), ?_, horder.sublist List.filter_sublist, fun cut => ?_⟩
    · rw [tokenize, words, hruns, List.filter_map, List.map_map]
      rfl
    · rw [List.mem_filter, hcuts, decide_eq_true_iff, and_assoc]
  · rw [wordPattern, Pattern.findAll_word _ _ (.inl .nil)]
    rfl

/-- A dash between words, of which the first has letters of more than one byte. What is left of the
second text is too short for a word. In lower case the words are those of the lowercased text, and
the sigma that ends a word is the final one. -/
theorem tokenize_maximal_runs_dash :
    isWord '-' = false ∧
    tokenize false ("größe" ++ String.singleton '-' ++ "ab c") =
      tokenize false "größe" ++ tokenize false "ab c" ∧
    tokenize false "größe-ab c" = ["größe", "ab"] ∧
    (∃ cuts : List Cut, tokenize true "Eval-ATOB x" = cuts.map (fun cut => String.ofList cut.run) ∧
      ∀ cut, cut ∈ cuts ↔ cut.text = "Eval-ATOB x".toList.map Char.toLower ∧
        cut.Maximal isWord ∧ 2 ≤ cut.run.length) ∧
    tokenize true "Eval-ATOB x" = ["eval", "atob"] ∧ tokenize true "ΟΔΟΣ-Σ1" = ["οδος", "σ1"] := by
  have hdash : isWord '-' = false := by decide
  have hascii : ("Eval-ATOB x".toList.all fun c => decide (c.toNat < 0x80)) = true := by decide
  have hlower : (lowercase "Eval-ATOB x").toList = "Eval-ATOB x".toList.map Char.toLower :=
    lowercase_ascii fun c hc => of_decide_eq_true (List.all_eq_true.mp hascii c hc)
  obtain ⟨⟨cuts, htokens, -, hcuts⟩, -⟩ := tokenize_maximal_runs.1 true "Eval-ATOB x"
  rw [if_pos rfl, hlower] at hcuts
  exact ⟨hdash, tokenize_maximal_runs.2 "größe" "ab c" '-' hdash, by decide +kernel,
    ⟨cuts, htokens, hcuts⟩, by decide +kernel, by decide +kernel⟩

end ScriptFeatures.Text
