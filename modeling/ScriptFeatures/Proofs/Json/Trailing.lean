import ScriptFeatures.Json.Document
import ScriptFeatures.Json.Record
import ScriptFeatures.Proofs.Json.Members
import ScriptFeatures.Proofs.Json.Quoted
import ScriptFeatures.Proofs.Json.Skip

/-! A blank at the end of a text. Whatever a reader finds at the front of a text, it finds at the
front of the text with a blank behind it, and the blank is left; where it finds a fault in one, it
finds a fault in the other, though not always the same. `Alike` relates two computations in this
way; it goes through a reader step by step, since no token goes on with a blank. -/

namespace ScriptFeatures.Json

open Outcome

/-- Two computations that both fail, or that both succeed with related results. -/
inductive Alike (R : α → β → Prop) : Except Fault α → Except Fault β → Prop
  | value {a : α} {a' : β} (h : R a a') : Alike R (.ok a) (.ok a')
  | fault (fault fault' : Fault) : Alike R (.error fault) (.error fault')

/-- A text of fewer than `n` characters, and the same with `b` behind it. -/
inductive Longer (b : Char) (n : Nat) : List Char → List Char → Prop
  | intro (rest : List Char) (h : rest.length < n) : Longer b n rest (rest ++ [b])

/-- The same value, with a text of fewer than `n` characters and with that text and `b` behind. -/
inductive Leaves (b : Char) (n : Nat) : α × List Char → α × List Char → Prop
  | intro (a : α) (rest : List Char) (h : rest.length < n) : Leaves b n (a, rest) (a, rest ++ [b])

namespace Alike

variable {b : Char} {n m : Nat}

theorem of_malformed {R : α → β → Prop} {y : Except Fault β} (fault : Fault)
    (h : y = .error .malformed) : Alike R (.error fault) y :=
  h ▸ .fault fault .malformed

theorem longer (rest : List Char) (h : rest.length < n) :
    Alike (Longer b n) (.ok rest) (.ok (rest ++ [b])) :=
  .value (.intro rest h)

theorem leaves (a : α) (rest : List Char) (h : rest.length < n) :
    Alike (Leaves b n) (.ok (a, rest)) (.ok (a, rest ++ [b])) :=
  .value (.intro a rest h)

section

variable {x y : Except Fault (List Char)}

theorem longer_mono (h : Alike (Longer b n) x y) (hnm : n ≤ m) : Alike (Longer b m) x y := by
  cases h with
  | fault fault fault' => exact .fault fault fault'
  | value h =>
    cases h with
    | intro h => exact longer _ (Nat.lt_of_lt_of_le h hnm)

theorem bind_longer {R : β → γ → Prop} {f : List Char → Except Fault β}
    {g : List Char → Except Fault γ} (h : Alike (Longer b n) x y)
    (hfg : ∀ rest, rest.length < n → Alike R (f rest) (g (rest ++ [b]))) :
    Alike R (x >>= f) (y >>= g) := by
  cases h with
  | fault fault fault' => exact .fault fault fault'
  | value h =>
    cases h with
    | intro h => exact hfg _ h

end

section

variable {x y : Except Fault (α × List Char)}

theorem leaves_mono (h : Alike (Leaves b n) x y) (hnm : n ≤ m) : Alike (Leaves b m) x y := by
  cases h with
  | fault fault fault' => exact .fault fault fault'
  | value h =>
    cases h with
    | intro a rest h => exact leaves a rest (Nat.lt_of_lt_of_le h hnm)

theorem bind_leaves {R : β → γ → Prop} {f : α × List Char → Except Fault β}
    {g : α × List Char → Except Fault γ} (h : Alike (Leaves b n) x y)
    (hfg : ∀ a rest, rest.length < n → Alike R (f (a, rest)) (g (a, rest ++ [b]))) :
    Alike R (x >>= f) (y >>= g) := by
  cases h with
  | fault fault fault' => exact .fault fault fault'
  | value h =>
    cases h with
    | intro a rest h => exact hfg a rest h

theorem map_leaves (h : Alike (Leaves b n) x y) (f : α → β) :
    Alike (Leaves b n) (x.map fun p => (f p.1, p.2)) (y.map fun p => (f p.1, p.2)) := by
  cases h with
  | fault fault fault' => exact .fault fault fault'
  | value h =>
    cases h with
    | intro a rest h => exact leaves (f a) rest h

end

end Alike

variable {b : Char} (hb : isBlank b = true)
include hb

theorem isBlank_cases : b = ' ' ∨ b = '\t' ∨ b = '\n' ∨ b = '\r' := by
  simpa only [isBlank, Bool.or_eq_true, decide_eq_true_eq, or_assoc] using hb

theorem ends_blank : Ends [b] := by
  obtain rfl | rfl | rfl | rfl := isBlank_cases hb <;> exact .cons rfl []

/-- Nothing is left before and after, or the same token comes first. -/
theorem dropBlanks_concat (cs : List Char) :
    dropBlanks cs = [] ∧ dropBlanks (cs ++ [b]) = [] ∨
      ∃ c rest, dropBlanks cs = c :: rest ∧ dropBlanks (cs ++ [b]) = c :: (rest ++ [b]) ∧
        rest.length < cs.length := by
  have hlength : (dropBlanks cs).length ≤ cs.length := cs.length_dropWhile_le _
  have happend : dropBlanks (cs ++ [b]) =
      if (dropBlanks cs).isEmpty then dropBlanks [b] else dropBlanks cs ++ [b] :=
    List.dropWhile_append
  rw [happend]
  cases hcs : dropBlanks cs with
  | nil => exact .inl ⟨rfl, dropBlanks_blank hb []⟩
  | cons c rest =>
    rw [hcs, List.length_cons] at hlength
    exact .inr ⟨c, rest, rfl, rfl, hlength⟩

/-! ## Words and quoted texts -/

theorem expect_concat {word : List Char} (hword : word.any isBlank = false) (cs : List Char) :
    Alike (Longer b (cs.length + 1 - word.length)) (expect word cs) (expect word (cs ++ [b])) := by
  induction word generalizing cs with
  | nil => exact .longer _ (Nat.lt_succ_self _)
  | cons w word ih =>
    rw [List.any_cons, Bool.or_eq_false_iff] at hword
    cases cs with
    | nil =>
      have hne : w ≠ b := by
        rintro rfl
        exact Bool.false_ne_true (hword.1.symm.trans hb)
      rw [List.nil_append, expect, expect, if_neg hne]
      exact .fault _ _
    | cons c cs =>
      rw [List.cons_append, expect, expect]
      split
      · exact (ih hword.2 cs).longer_mono (by simp only [List.length_cons]; omega)
      · exact .fault _ _

theorem hexUnit?_blank (x y z : Char) : hexUnit? x y z b = none := by
  have hdigit : hexValue? b = none := by
    obtain rfl | rfl | rfl | rfl := isBlank_cases hb <;> decide
  simp [hexUnit?, hdigit]

theorem unescape?_blank : unescape? b = none := by
  obtain rfl | rfl | rfl | rfl := isBlank_cases hb <;> decide

theorem mark_ne_blank : b ≠ '"' ∧ b ≠ '\\' ∧ b ≠ 'u' := by
  obtain rfl | rfl | rfl | rfl := isBlank_cases hb <;> decide

/-- Fewer than four characters and the blank are no number. -/
theorem hexUnit?_concat {cs : List Char}
    (hshort : ∀ x y z w rest, cs = x :: y :: z :: w :: rest → False) {x y z w : Char}
    {rest : List Char} (h : cs ++ [b] = x :: y :: z :: w :: rest) : hexUnit? x y z w = none := by
  obtain _ | ⟨_, _ | ⟨_, _ | ⟨_, _ | ⟨_, _⟩⟩⟩⟩ := cs <;> cases h
  · exact hexUnit?_blank hb x y z
  · exact (hshort x y z w _ rfl).elim

theorem exists_unquoteOnto_blank (done : List Char) :
    ∃ fault, unquoteOnto done [b] = .error fault := by
  obtain ⟨hquote, hbackslash, -⟩ := mark_ne_blank hb
  rw [unquoteOnto.eq_def]
  dsimp only
  rw [if_neg hquote, if_neg hbackslash]
  split <;> exact ⟨_, rfl⟩

theorem exists_skipQuoted_blank : ∃ fault, skipQuoted [b] = .error fault := by
  obtain ⟨hquote, hbackslash, -⟩ := mark_ne_blank hb
  rw [skipQuoted.eq_def]
  dsimp only
  rw [if_neg hquote, if_neg hbackslash]
  split <;> exact ⟨_, rfl⟩

/-- A quoted text may go on with a blank, but it does not end there, and no escape goes on with
one. -/
theorem unquoteOnto_concat (done cs : List Char) :
    Alike (Leaves b cs.length) (unquoteOnto done cs) (unquoteOnto done (cs ++ [b])) := by
  have hunescape := unescape?_blank hb
  obtain ⟨hquote, hbackslash, hu⟩ := mark_ne_blank hb
  fun_induction unquoteOnto done cs
  case case1 done =>
    obtain ⟨fault, hfault⟩ := exists_unquoteOnto_blank hb done
    rw [List.nil_append, hfault]
    exact .fault _ _
  case case2 cs =>
    rw [List.cons_append, unquoteOnto_end]
    exact .leaves _ _ (Nat.lt_succ_self _)
  case case9 done _ _ _ _ n hn hnot hleading _ _ _ _ cs m hm htrailing _ ih =>
    have hpair := unquoteOnto_pair done hn hnot hleading hm (cs ++ [b])
    rw [if_pos htrailing] at hpair
    simp only [List.cons_append]
    rw [hpair]
    exact ih.leaves_mono (by simp only [List.length_cons]; omega)
  case case14 done _ _ _ _ cs n hn hnot hleading _ ih =>
    simp only [List.cons_append]
    rw [unquoteOnto_single done hn hnot hleading]
    exact ih.leaves_mono (by simp only [List.length_cons]; omega)
  case case17 done e cs hu x hx _ ih =>
    simp only [List.cons_append]
    rw [unquoteOnto_short done hu hx]
    exact ih.leaves_mono (by simp only [List.length_cons]; omega)
  case case19 done c cs hquote hbackslash hvisible ih =>
    rw [List.cons_append, unquoteOnto_plain done hquote hbackslash hvisible]
    exact ih.leaves_mono (Nat.le_succ _)
  case case11 done _ _ _ _ n hn hnot hleading cs hshort _ =>
    simp only [List.cons_append]
    rw [unquoteOnto.eq_def done]
    dsimp only
    rw [if_neg (by decide), if_pos rfl, if_pos rfl, hn]
    dsimp only
    rw [if_neg hnot, if_pos hleading, if_pos rfl, if_pos rfl]
    split
    · next heq =>
      rw [hexUnit?_concat hb hshort heq]
      exact .fault _ _
    · exact .fault _ _
  case case15 done cs hshort _ =>
    simp only [List.cons_append]
    rw [unquoteOnto.eq_def done]
    dsimp only
    rw [if_neg (by decide), if_pos rfl, if_pos rfl]
    split
    · next heq =>
      rw [hexUnit?_concat hb hshort heq]
      exact .fault _ _
    · exact .fault _ _
  all_goals
    refine .of_malformed _ ?_
    rw [List.cons_append, unquoteOnto.eq_def]
    simp [*]

theorem skipQuoted_concat (cs : List Char) :
    Alike (Longer b cs.length) (skipQuoted cs) (skipQuoted (cs ++ [b])) := by
  have hunescape := unescape?_blank hb
  obtain ⟨hquote, hbackslash, hu⟩ := mark_ne_blank hb
  fun_induction skipQuoted cs
  case case1 =>
    obtain ⟨fault, hfault⟩ := exists_skipQuoted_blank hb
    rw [List.nil_append, hfault]
    exact .fault _ _
  case case2 cs =>
    rw [List.cons_append, skipQuoted_end]
    exact .longer _ (Nat.lt_succ_self _)
  case case4 cs hunit _ ih =>
    simp only [List.cons_append]
    rw [skipQuoted_unit hunit]
    exact ih.longer_mono (by simp only [List.length_cons]; omega)
  case case6 cs hshort _ =>
    simp only [List.cons_append]
    rw [skipQuoted.eq_def]
    dsimp only
    rw [if_neg (by decide), if_pos rfl, if_pos rfl]
    split
    · next heq =>
      rw [hexUnit?_concat hb hshort heq]
      exact .fault _ _
    · exact .fault _ _
  case case7 e cs hu he _ ih =>
    obtain ⟨x, hx⟩ := Option.isSome_iff_exists.mp he
    simp only [List.cons_append]
    rw [skipQuoted_short hu hx]
    exact ih.longer_mono (by simp only [List.length_cons]; omega)
  case case10 c cs hquote hbackslash hvisible ih =>
    rw [List.cons_append, skipQuoted_plain hquote hbackslash hvisible]
    exact ih.longer_mono (Nat.le_succ _)
  all_goals
    refine .of_malformed _ ?_
    rw [List.cons_append, skipQuoted.eq_def]
    simp [*]

/-! ## Numbers -/

namespace Numeral

variable (unfinished : Fault)

theorem takeSome_concat (cs : List Char) :
    Alike (Leaves b cs.length) (takeSome unfinished cs) (takeSome unfinished (cs ++ [b])) := by
  have hlength : (takeDigits cs).1.length + (takeDigits cs).2.length = cs.length := by
    rw [takeDigits, List.length_map, ← List.length_append, List.takeWhile_append_dropWhile]
  rw [takeSome, takeSome, takeDigits_append (ends_blank hb)]
  generalize takeDigits cs = found at hlength ⊢
  obtain ⟨_ | ⟨d, ds⟩, rest⟩ := found
  · exact .fault _ _
  · refine .leaves _ _ ?_
    simp only [List.length_cons] at hlength
    omega

theorem takeWhole_concat (cs : List Char) :
    Alike (Leaves b cs.length) (takeWhole unfinished cs) (takeWhole unfinished (cs ++ [b])) := by
  have hsome := takeSome_concat hb unfinished cs
  unfold takeWhole
  generalize takeSome unfinished cs = x at hsome
  generalize takeSome unfinished (cs ++ [b]) = y at hsome
  cases hsome with
  | fault fault fault' => exact .fault _ _
  | value h =>
    cases h with
    | intro ds rest hrest =>
      obtain _ | ⟨_ | d, _ | ⟨e, ds⟩⟩ := ds
      case cons.zero.cons => exact .fault _ _
      all_goals exact .leaves _ _ hrest

theorem takeFraction_concat (cs : List Char) :
    Alike (Leaves b (cs.length + 1)) (takeFraction unfinished cs)
      (takeFraction unfinished (cs ++ [b])) := by
  cases cs with
  | nil =>
    have hpoint : b ≠ '.' := by
      obtain rfl | rfl | rfl | rfl := isBlank_cases hb <;> decide
    rw [List.nil_append, takeFraction_cons, if_neg hpoint]
    exact .leaves _ _ (Nat.lt_succ_self _)
  | cons c cs =>
    rw [List.cons_append, takeFraction_cons, takeFraction_cons]
    split
    · exact (takeSome_concat hb unfinished cs).leaves_mono (by simp only [List.length_cons]; omega)
    · exact .leaves _ _ (Nat.lt_succ_self _)

theorem takeSign_concat (cs : List Char) :
    takeSign (cs ++ [b]) = ((takeSign cs).1, (takeSign cs).2 ++ [b]) := by
  cases cs with
  | nil => obtain rfl | rfl | rfl | rfl := isBlank_cases hb <;> rfl
  | cons c cs => exact takeSign_append c cs

omit hb in
theorem length_takeSign (cs : List Char) : (takeSign cs).2.length ≤ cs.length := by
  unfold takeSign
  split <;> simp

theorem takeExponent_concat (cs : List Char) :
    Alike (Leaves b (cs.length + 1)) (takeExponent unfinished cs)
      (takeExponent unfinished (cs ++ [b])) := by
  cases cs with
  | nil =>
    have hletter : ¬(b = 'e' ∨ b = 'E') := by
      obtain rfl | rfl | rfl | rfl := isBlank_cases hb <;> decide
    rw [List.nil_append, takeExponent, takeExponent, if_neg hletter]
    exact .leaves _ _ (Nat.lt_succ_self _)
  | cons c cs =>
    rw [List.cons_append, takeExponent, takeExponent]
    split
    · rw [takeSign_concat hb]
      have hsign := length_takeSign cs
      refine (takeSome_concat hb unfinished (takeSign cs).2).bind_leaves fun ds rest hrest => ?_
      exact .leaves _ _ (by simp only [List.length_cons]; omega)
    · exact .leaves _ _ (Nat.lt_succ_self _)

theorem takeUnsigned_concat (negative : Bool) (cs : List Char) :
    Alike (Leaves b cs.length) (takeUnsigned unfinished negative cs)
      (takeUnsigned unfinished negative (cs ++ [b])) := by
  refine (takeWhole_concat hb unfinished cs).bind_leaves fun whole cs₁ h₁ => ?_
  refine (takeFraction_concat hb unfinished cs₁).bind_leaves fun fraction cs₂ h₂ => ?_
  refine (takeExponent_concat hb unfinished cs₂).bind_leaves fun exponent cs₃ h₃ => ?_
  exact .leaves _ _ (by omega)

theorem take_concat (cs : List Char) :
    Alike (Leaves b cs.length) (take unfinished cs) (take unfinished (cs ++ [b])) := by
  cases cs with
  | nil =>
    have hminus : b ≠ '-' := by
      obtain rfl | rfl | rfl | rfl := isBlank_cases hb <;> decide
    rw [List.nil_append, take_cons, if_neg hminus]
    exact takeUnsigned_concat hb unfinished false []
  | cons c cs =>
    rw [List.cons_append, take_cons, take_cons]
    split
    · exact (takeUnsigned_concat hb unfinished true cs).leaves_mono (Nat.le_succ _)
    · exact takeUnsigned_concat hb unfinished false (c :: cs)

end Numeral

theorem Number.take_concat (cs : List Char) :
    Alike (Leaves b cs.length) (take cs) (take (cs ++ [b])) := by
  refine (Numeral.take_concat hb .truncated cs).bind_leaves fun numeral rest hrest => ?_
  dsimp only
  cases numeral.number? with
  | none => exact .fault _ _
  | some n => exact .leaves _ _ hrest

/-! ## Scalars -/

/-- A blank is no scalar. -/
theorem scalar_blank :
    readScalar [b] = .error .malformed ∧ skipScalar [b] = .error .malformed := by
  obtain rfl | rfl | rfl | rfl := isBlank_cases hb <;> exact ⟨rfl, rfl⟩

theorem constant_concat (v : Value) {c : Char} {word : List Char} (hword : word.any isBlank = false)
    (cs : List Char) :
    Alike (Leaves b (c :: cs).length) (constant v (c :: word) (c :: cs))
      (constant v (c :: word) (c :: cs ++ [b])) := by
  have hexpect := expect_concat hb hword cs
  rw [List.cons_append, constant, constant, expect, expect, if_pos rfl, if_pos rfl]
  exact hexpect.bind_longer fun rest hrest => .leaves v _ (by simp only [List.length_cons]; omega)

theorem readScalar_concat (cs : List Char) :
    Alike (Leaves b cs.length) (readScalar cs) (readScalar (cs ++ [b])) := by
  cases cs with
  | nil =>
    rw [List.nil_append, (scalar_blank hb).1]
    exact .fault _ _
  | cons c cs =>
    rw [List.cons_append, readScalar, readScalar]
    split
    · exact ((unquoteOnto_concat hb [] cs).map_leaves Value.text).leaves_mono (Nat.le_succ _)
    split
    · next hc =>
      subst hc
      exact constant_concat hb .null rfl cs
    split
    · next hc =>
      subst hc
      exact constant_concat hb (.boolean true) rfl cs
    split
    · next hc =>
      subst hc
      exact constant_concat hb (.boolean false) rfl cs
    split
    · exact (Number.take_concat hb (c :: cs)).map_leaves Value.number
    · exact .fault _ _

theorem skipScalar_concat (cs : List Char) :
    Alike (Longer b cs.length) (skipScalar cs) (skipScalar (cs ++ [b])) := by
  cases cs with
  | nil =>
    rw [List.nil_append, (scalar_blank hb).2]
    exact .fault _ _
  | cons c cs =>
    have hexpect {word : List Char} (hword : word.any isBlank = false) :
        Alike (Longer b (c :: cs).length) (expect word cs) (expect word (cs ++ [b])) :=
      (expect_concat hb hword cs).longer_mono (by simp only [List.length_cons]; omega)
    rw [List.cons_append, skipScalar, skipScalar]
    split
    · exact (skipQuoted_concat hb cs).longer_mono (Nat.le_succ _)
    split
    · exact hexpect rfl
    split
    · exact hexpect rfl
    split
    · exact hexpect rfl
    split
    · exact (Numeral.take_concat hb .malformed (c :: cs)).bind_leaves fun _ _ hrest =>
        .longer _ hrest
    · exact .fault _ _

/-! ## Readers -/

/-- A reader that passes a character and does with a text and `b` what it does with the text
alone. -/
def Steady (b : Char) (read : Read α) : Prop :=
  ∀ cs, Alike (Leaves b cs.length) (read cs) (read (cs ++ [b]))

omit hb in
theorem Steady.map {read : Read α} (h : Steady b read) (f : α → β) : Steady b (f <$> read) :=
  fun cs => (h cs).bind_leaves fun a _ hrest => .leaves (f a) _ hrest

omit hb in
theorem Steady.nil_eq_error {read : Read α} (h : Steady b read) :
    ∃ fault, read [] = .error fault := by
  have hnil := h []
  generalize read [] = x at hnil
  generalize read ([] ++ [b]) = y at hnil
  cases hnil with
  | fault fault _ => exact ⟨fault, rfl⟩
  | value h =>
    cases h with
    | intro a rest h => exact (Nat.not_lt_zero _ h).elim

theorem steady_scalar (choose : Value → Option α) : Steady b (scalar choose) := by
  intro cs
  rw [scalar, scalar]
  dsimp only
  obtain ⟨hcs, hcs'⟩ | ⟨c, rest, hcs, hcs', hrest⟩ := dropBlanks_concat hb cs <;> rw [hcs, hcs']
  · exact .fault _ _
  · have hopens : opens (c :: (rest ++ [b])) = opens (c :: rest) := rfl
    rw [hopens]
    split
    · exact .fault _ _
    · refine (readScalar_concat hb (c :: rest)).bind_leaves fun v rest' hrest' => ?_
      dsimp only
      cases choose v with
      | none => exact .fault _ _
      | some a => exact .leaves a _ (by simp only [List.length_cons] at hrest'; omega)

omit hb in
theorem optional_of_dropBlanks (read : Read α) {c : Char} {cs rest : List Char}
    (h : dropBlanks cs = c :: rest) :
    optional read cs =
      if c = 'n' then expect ['u', 'l', 'l'] rest >>= fun rest => .ok (none, rest)
      else read (c :: rest) >>= fun p => .ok (some p.1, p.2) := by
  rw [optional, h]
  split
  · next heq =>
    cases heq
    rfl
  · next hother =>
    rw [if_neg (by rintro rfl; exact hother rest rfl)]
    rfl

theorem Steady.optional {read : Read α} (h : Steady b read) : Steady b (optional read) := by
  intro cs
  obtain ⟨hcs, hcs'⟩ | ⟨c, rest, hcs, hcs', hrest⟩ := dropBlanks_concat hb cs
  · obtain ⟨fault, hfault⟩ := h.nil_eq_error
    rw [Json.optional, Json.optional, hcs, hcs']
    dsimp only
    rw [hfault]
    exact .fault _ _
  · rw [optional_of_dropBlanks read hcs, optional_of_dropBlanks read hcs']
    split
    · exact (expect_concat hb rfl rest).bind_longer fun _ hleft => .leaves none _ (by omega)
    · exact (h (c :: rest)).bind_leaves fun a left hleft =>
        .leaves (some a) left (by simp only [List.length_cons] at hleft; omega)

theorem readColon_concat (cs : List Char) :
    Alike (Leaves b (cs.length + 1)) (readColon cs) (readColon (cs ++ [b])) := by
  rw [readColon, readColon]
  obtain ⟨hcs, hcs'⟩ | ⟨c, rest, hcs, hcs', hrest⟩ := dropBlanks_concat hb cs <;> rw [hcs, hcs']
  · exact .fault _ _
  · dsimp only
    split
    · exact .leaves _ _ (by omega)
    · exact .fault _ _

/-! ## Containers -/

theorem nextItem_concat (first : Bool) (cs : List Char) :
    Alike (Leaves b (cs.length + 1)) (nextItem first cs) (nextItem first (cs ++ [b])) := by
  rw [nextItem, nextItem]
  obtain ⟨hcs, hcs'⟩ | ⟨c, rest, hcs, hcs', hrest⟩ := dropBlanks_concat hb cs <;> rw [hcs, hcs']
  · exact .fault _ _
  dsimp only
  split
  · exact .leaves _ _ (by omega)
  split
  · exact .leaves _ (c :: rest) (by simp only [List.length_cons]; omega)
  split
  · obtain ⟨hrest, hrest'⟩ | ⟨d, more, hrest, hrest', hmore⟩ := dropBlanks_concat hb rest <;>
      rw [hrest, hrest']
    · exact .fault _ _
    dsimp only
    split
    · exact .fault _ _
    · exact .leaves _ (d :: more) (by simp only [List.length_cons]; omega)
  · exact .fault _ _

theorem nextMember_concat (first : Bool) (cs : List Char) :
    Alike (Leaves b cs.length) (nextMember first cs) (nextMember first (cs ++ [b])) := by
  rw [nextMember, nextMember]
  obtain ⟨hcs, hcs'⟩ | ⟨c, rest, hcs, hcs', hrest⟩ := dropBlanks_concat hb cs <;> rw [hcs, hcs']
  · exact .fault _ _
  dsimp only
  split
  · exact .leaves _ _ hrest
  split
  · split
    · exact ((unquoteOnto_concat hb [] rest).map_leaves some).leaves_mono (by omega)
    · exact .fault _ _
  split
  · obtain ⟨hrest, hrest'⟩ | ⟨d, more, hrest, hrest', hmore⟩ := dropBlanks_concat hb rest <;>
      rw [hrest, hrest']
    · exact .fault _ _
    dsimp only
    split
    · exact ((unquoteOnto_concat hb [] more).map_leaves some).leaves_mono (by omega)
    · exact .fault _ _
  · exact .fault _ _

/-- The text that bounds the loop gets longer too. There is nothing left to read where it ends. -/
theorem readItems_concat {read : Read α} (hread : Steady b read) {bound cs : List Char}
    (hbound : cs.length ≤ bound.length) (first : Bool) (done : List α) :
    Alike (Leaves b (cs.length + 1)) (readItems read bound first done cs)
      (readItems read (bound ++ [b]) first done (cs ++ [b])) := by
  induction bound generalizing first done cs with
  | nil =>
    obtain rfl := List.eq_nil_of_length_eq_zero (Nat.le_zero.mp hbound)
    have hdrop : dropBlanks [b] = [] := dropBlanks_blank hb []
    have hlater : readItems read [b] first done [b] = .error .truncated := by
      rw [readItems_cons, nextItem, hdrop]
      rfl
    exact hlater ▸ .fault _ _
  | cons d bound ih =>
    rw [List.length_cons] at hbound
    rw [List.cons_append, readItems_cons, readItems_cons]
    refine (nextItem_concat hb first cs).bind_leaves fun more rest hrest => ?_
    dsimp only
    split
    · refine (hread rest).bind_leaves fun a left hleft => ?_
      dsimp only
      exact (ih (by omega) false (a :: done)).leaves_mono (by omega)
    · exact .leaves _ _ hrest

theorem readMembers_concat {step : σ → String → Read σ}
    (hstep : ∀ s name cs, Alike (Leaves b (cs.length + 1)) (step s name cs)
      (step s name (cs ++ [b])))
    {bound cs : List Char} (hbound : cs.length ≤ bound.length) (first : Bool) (s : σ) :
    Alike (Leaves b (cs.length + 1)) (readMembers step bound first s cs)
      (readMembers step (bound ++ [b]) first s (cs ++ [b])) := by
  induction bound generalizing first s cs with
  | nil =>
    obtain rfl := List.eq_nil_of_length_eq_zero (Nat.le_zero.mp hbound)
    have hdrop : dropBlanks [b] = [] := dropBlanks_blank hb []
    have hlater : readMembers step [b] first s [b] = .error .truncated := by
      rw [readMembers_cons, nextMember, hdrop]
      rfl
    exact hlater ▸ .fault _ _
  | cons d bound ih =>
    rw [List.length_cons] at hbound
    rw [List.cons_append, readMembers_cons, readMembers_cons]
    refine (nextMember_concat hb first cs).bind_leaves fun name rest hrest => ?_
    cases name with
    | none => exact .leaves _ _ (by omega)
    | some name =>
      refine (hstep s name rest).bind_leaves fun s left hleft => ?_
      exact (ih (by omega) false s).leaves_mono (by omega)

/-! ## Values of any shape -/

theorem skipName_concat (container : Container) (cs : List Char) :
    Alike (Longer b (cs.length + 1)) (skipName container cs)
      (skipName container (cs ++ [b])) := by
  unfold skipName
  cases container with
  | array => exact .longer _ (Nat.lt_succ_self _)
  | object =>
    dsimp only
    obtain ⟨hcs, hcs'⟩ | ⟨c, rest, hcs, hcs', hrest⟩ := dropBlanks_concat hb cs <;> rw [hcs, hcs']
    · exact .fault _ _
    dsimp only
    split
    · refine (skipQuoted_concat hb rest).bind_longer fun left hleft => ?_
      refine (readColon_concat hb left).bind_leaves fun _ left' hleft' => ?_
      exact .longer left' (by omega)
    · exact .fault _ _

theorem skipFrom_concat {bound cs : List Char} (hbound : cs.length < bound.length) (place : Place)
    (outer : List Container) :
    Alike (Longer b (cs.length + 1)) (skipFrom bound place outer cs)
      (skipFrom (bound ++ [b]) place outer (cs ++ [b])) := by
  induction bound generalizing place outer cs with
  | nil => exact (Nat.not_lt_zero _ hbound).elim
  | cons d bound ih =>
    rw [List.length_cons] at hbound
    rw [List.cons_append]
    cases place with
    | follow =>
      cases outer with
      | nil => exact .longer _ (Nat.lt_succ_self _)
      | cons container outer =>
        rw [skipFrom, skipFrom]
        obtain ⟨hcs, hcs'⟩ | ⟨c, rest, hcs, hcs', hrest⟩ := dropBlanks_concat hb cs <;>
          rw [hcs, hcs']
        · exact .fault _ _
        dsimp only
        split
        · exact (ih (by omega) .follow outer).longer_mono (by omega)
        split
        · refine (skipName_concat hb container rest).bind_longer fun left hleft => ?_
          exact (ih (by omega) .value (container :: outer)).longer_mono (by omega)
        · exact .fault _ _
    | value =>
      rw [skipFrom, skipFrom]
      obtain ⟨hcs, hcs'⟩ | ⟨c, rest, hcs, hcs', hrest⟩ := dropBlanks_concat hb cs <;>
        rw [hcs, hcs']
      · exact .fault _ _
      dsimp only
      split
      · obtain ⟨hrest, hrest'⟩ | ⟨e, more, hrest, hrest', hmore⟩ := dropBlanks_concat hb rest <;>
          rw [hrest, hrest']
        · exact .fault _ _
        dsimp only
        generalize (if c = '[' then Container.array else Container.object) = container
        split
        · exact (ih (by omega) .follow outer).longer_mono (by omega)
        · refine (skipName_concat hb container (e :: more)).bind_longer fun left hleft => ?_
          simp only [List.length_cons] at hleft
          exact (ih (by omega) .value (container :: outer)).longer_mono (by omega)
      · refine (skipScalar_concat hb (c :: rest)).bind_longer fun left hleft => ?_
        simp only [List.length_cons] at hleft
        exact (ih (by omega) .follow outer).longer_mono (by omega)

theorem skipValue_concat (cs : List Char) :
    Alike (Leaves b (cs.length + 1)) (skipValue cs) (skipValue (cs ++ [b])) :=
  (@skipFrom_concat _ hb (' ' :: cs) _ (Nat.lt_succ_self _) .value []).bind_longer
    fun _ hrest => .leaves () _ hrest

theorem after_colon_concat {f : Read α}
    (h : ∀ cs, Alike (Leaves b (cs.length + 1)) (f cs) (f (cs ++ [b]))) (cs : List Char) :
    Alike (Leaves b (cs.length + 1)) ((readColon >>= fun _ => f) cs)
      ((readColon >>= fun _ => f) (cs ++ [b])) :=
  (readColon_concat hb cs).bind_leaves fun _ rest hrest =>
    (h rest).leaves_mono hrest

/-- Values may nest to any depth, by induction on it. -/
theorem steady_readValue (depth : Nat) : Steady b (readValue depth) := by
  induction depth with
  | zero =>
    intro cs
    rw [readValue]
    dsimp only
    obtain ⟨hcs, hcs'⟩ | ⟨c, rest, hcs, hcs', hrest⟩ := dropBlanks_concat hb cs <;> rw [hcs, hcs']
    · exact .fault _ _
    · have hopens : opens (c :: (rest ++ [b])) = opens (c :: rest) := rfl
      rw [hopens]
      split
      · exact .fault _ _
      · exact (readScalar_concat hb (c :: rest)).leaves_mono hrest
  | succ depth ih =>
    intro cs
    rw [readValue]
    dsimp only
    obtain ⟨hcs, hcs'⟩ | ⟨c, rest, hcs, hcs', hrest⟩ := dropBlanks_concat hb cs <;> rw [hcs, hcs']
    · exact .fault _ _
    have hmember (done : List (String × Value)) (name : String) (cs : List Char) :=
      after_colon_concat hb (fun cs =>
        ((ih.map fun v => (name, v) :: done) cs).leaves_mono (Nat.le_succ _)) cs
    have hbound : rest.length ≤ (c :: rest).length := Nat.le_succ _
    dsimp only
    split
    · refine (readItems_concat hb ih hbound true []).bind_leaves fun items left hleft => ?_
      exact .leaves _ left (by omega)
    split
    · refine (readMembers_concat hb hmember hbound true []).bind_leaves
        fun members left hleft => ?_
      exact .leaves _ left (by omega)
    · exact (readScalar_concat hb (c :: rest)).leaves_mono hrest

/-! ## Records -/

variable {fields : List (Field σ)} (hfields : ∀ field ∈ fields, Steady b field.read)
include hfields

theorem readField_concat (s : σ × List String) (name : String) (cs : List Char) :
    Alike (Leaves b (cs.length + 1)) (readField fields s name cs)
      (readField fields s name (cs ++ [b])) := by
  rw [readField]
  cases hfield : fields.find? (·.name == name) with
  | none =>
    exact after_colon_concat hb (fun cs =>
      (skipValue_concat hb cs).bind_leaves fun _ rest hrest => .leaves s rest hrest) cs
  | some field =>
    have hread := hfields field (List.mem_of_find?_eq_some hfield)
    dsimp only
    split
    · exact .fault _ _
    · exact after_colon_concat hb (fun cs =>
        ((hread.map fun set => (set s.1, name :: s.2)) cs).leaves_mono (Nat.le_succ _)) cs

theorem readFields_concat (first : Bool) (s : σ) (cs : List Char) :
    Alike (Leaves b (cs.length + 1)) (readFields fields first s cs)
      (readFields fields first s (cs ++ [b])) := by
  induction fields generalizing first s cs with
  | nil =>
    rw [readFields]
    dsimp only
    obtain ⟨hcs, hcs'⟩ | ⟨c, rest, hcs, hcs', hrest⟩ := dropBlanks_concat hb cs <;> rw [hcs, hcs']
    · exact .fault _ _
    dsimp only
    split
    · exact .leaves s rest (by omega)
    · exact .fault _ _
  | cons field fields ih =>
    rw [List.forall_mem_cons] at hfields
    rw [readFields]
    refine (nextItem_concat hb first cs).bind_leaves fun more rest hrest => ?_
    dsimp only
    split
    · refine (hfields.1 rest).bind_leaves fun set left hleft => ?_
      exact (ih hfields.2 false (set s) left).leaves_mono (by omega)
    split
    · exact .fault _ _
    · exact .leaves s rest hrest

theorem steady_record (blank : σ) : Steady b (record fields blank) := by
  intro cs
  rw [record, record]
  obtain ⟨hcs, hcs'⟩ | ⟨c, rest, hcs, hcs', hrest⟩ := dropBlanks_concat hb cs <;> rw [hcs, hcs']
  · exact .fault _ _
  have hbound : rest.length ≤ (c :: rest).length := Nat.le_succ _
  dsimp only
  split
  · refine (readMembers_concat hb (readField_concat hb hfields) hbound true
      (blank, [])).bind_leaves fun s left hleft => ?_
    dsimp only
    split
    · exact .leaves _ left (by omega)
    · exact .fault _ _
  split
  · exact (readFields_concat hb hfields true blank rest).leaves_mono (by omega)
  · exact .fault _ _

omit hfields

/-! ## Whole texts -/

omit hb in
theorem Read.whole_of_ok {read : Read α} {text rest : List Char} {a : α}
    (h : read text = .ok (a, rest)) :
    read.whole text = if (dropBlanks rest).isEmpty then .ok a else .error .malformed := by
  rw [Read.whole, h]
  dsimp only [bind, Except.bind]
  cases dropBlanks rest <;> rfl

omit hb in
theorem Read.whole_of_error {read : Read α} {text : List Char} {fault : Fault}
    (h : read text = .error fault) : read.whole text = .error fault := by
  rw [Read.whole, h]
  rfl

/-- A text is read as a whole with a blank behind it as it is without. -/
theorem Steady.whole_concat {read : Read α} (h : Steady b read) (text : List Char) (a : α) :
    read.whole (text ++ [b]) = .ok a ↔ read.whole text = .ok a := by
  have htext := h text
  cases hx : read text with
  | error fault =>
    rw [hx] at htext
    generalize hy : read (text ++ [b]) = y at htext
    cases htext with
    | fault _ fault' =>
      rw [Read.whole_of_error hx, Read.whole_of_error hy]
      constructor <;> intro h <;> cases h
  | ok p =>
    rw [hx] at htext
    generalize hy : read (text ++ [b]) = y at htext
    cases htext with
    | value h =>
      cases h with
      | intro a' rest _ =>
        rw [Read.whole_of_ok hx, Read.whole_of_ok hy]
        obtain ⟨hrest, hrest'⟩ | ⟨c, left, hrest, hrest', -⟩ := dropBlanks_concat hb rest <;>
          rw [hrest, hrest']
        rfl

end ScriptFeatures.Json
