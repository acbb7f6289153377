import Mathlib.Data.Bool.AllAny
import Mathlib.Data.List.Basic
import Mathlib.Data.List.Find
import Mathlib.Tactic.SplitIfs
import ScriptFeatures.Proofs.Nesting.Gap
import ScriptFeatures.Proofs.Nesting.Steps

/-! How far a scan looks ahead. A token, a blank or a comment that ends before a certain place has
been read without a look behind the byte at that place, and of that byte only its kind matters: a
mark, a word, a number or a comment before it must not go on with it. So a text can be exchanged for
another one that begins alike (`Alike`), and the steps up to it stay the same (`Steps.alike`). In
particular they stay the same when more is put behind a semicolon (`Steps.append`). -/

namespace ScriptFeatures.Nesting

/-! ## Texts that begin alike -/

/-- Bytes at which a scan stops whatever it reads: they go on no mark, no word and no number. They
begin a string, a template, a comment or a regular expression, or end a statement. -/
def stopBytes : List UInt8 := [0x22, 0x27, 0x2F, 0x3B, 0x60]

/-- Whether a byte begins a word. -/
def isWordStart (b : UInt8) : Bool :=
  isWordByte b && !isDigitByte b

/-- What stands before a byte is not read differently when it is exchanged for the other byte. -/
inductive Alike : UInt8 → UInt8 → Prop
  | same {c : UInt8} (hc : c ∈ stopBytes) : Alike c c
  | word {c c' : UInt8} (hc : isWordStart c = true) (hc' : isWordStart c' = true) : Alike c c'

/-- A byte that ends no line and goes on no mark. -/
structure Stops (c : UInt8) : Prop where
  unbroken : isBreakByte c = false
  unmarked : ∀ m ∈ marks, Char.ofNat c.toNat ∉ m.tail

theorem isWordByte_of_isWordStart {c : UInt8} (hc : isWordStart c = true) : isWordByte c = true :=
  (Bool.and_eq_true_iff.mp hc).1

theorem isDigitByte_of_isWordStart {c : UInt8} (hc : isWordStart c = true) :
    isDigitByte c = false := by
  simpa using (Bool.and_eq_true_iff.mp hc).2

/-- Bytes are not equal when a test tells them apart. -/
theorem ne_of_test {test : UInt8 → Bool} {c k : UInt8} (hc : test c = true)
    (hk : test k = false) : c ≠ k := by
  rintro rfl
  rw [hc] at hk
  exact nomatch hk

theorem toNat_ofNat_toNat (c : UInt8) : (Char.ofNat c.toNat).toNat = c.toNat := by
  have hvalid : c.toNat.isValidChar := .inl (Nat.lt_trans c.toNat_lt (by decide))
  rw [Char.ofNat, dif_pos hvalid]
  rfl

theorem char_notMem_of_isWordStart {c : UInt8} (hc : isWordStart c = true) :
    ∀ m ∈ marks, Char.ofNat c.toNat ∉ m.tail := by
  intro m hm hmem
  have hmarks : ∀ m ∈ marks, m.tail.all (fun k => isWordStart (UInt8.ofNat k.toNat) = false) := by
    decide
  have hk := List.all_iff_forall_prop.mp (hmarks m hm) _ hmem
  rw [toNat_ofNat_toNat, UInt8.ofNat_toNat, hc] at hk
  exact nomatch hk

namespace Alike

variable {c c' : UInt8}

theorem symm (h : Alike c c') : Alike c' c := by
  cases h with
  | same hc => exact .same hc
  | word hc hc' => exact .word hc' hc

theorem stops (h : Alike c c') : Stops c := by
  cases h with
  | same hc =>
    have hall : ∀ c ∈ stopBytes, isBreakByte c = false ∧
        ∀ m ∈ marks, Char.ofNat c.toNat ∉ m.tail := List.all_iff_forall_prop.mp (by decide)
    exact ⟨(hall c hc).1, (hall c hc).2⟩
  | word hc =>
    refine ⟨?_, char_notMem_of_isWordStart hc⟩
    have hfeed := beq_false_of_ne (ne_of_test hc (k := 0x0A) (by decide))
    have hreturn := beq_false_of_ne (ne_of_test hc (k := 0x0D) (by decide))
    rw [isBreakByte, hfeed, hreturn, Bool.or_false]

/-- A test that cannot tell the starts of words from one another cannot tell the bytes. -/
theorem test_eq (h : Alike c c') {test : UInt8 → Bool} {value : Bool}
    (htest : ∀ b, isWordStart b = true → test b = value) : test c = test c' := by
  cases h with
  | same => rfl
  | word hc hc' => rw [htest c hc, htest c' hc']

theorem isWordByte_eq (h : Alike c c') : isWordByte c = isWordByte c' :=
  h.test_eq fun _ => isWordByte_of_isWordStart

theorem isDigitByte_eq (h : Alike c c') : isDigitByte c = isDigitByte c' :=
  h.test_eq fun _ => isDigitByte_of_isWordStart

theorem beq_eq (h : Alike c c') {k : UInt8} (hk : isWordStart k = false) :
    (c == k) = (c' == k) :=
  h.test_eq fun _ hb => beq_false_of_ne (ne_of_test hb hk)

theorem head?_isDigitByte_eq (h : Alike c c') (p after after' : List UInt8) :
    (p ++ c :: after).head?.any isDigitByte = (p ++ c' :: after').head?.any isDigitByte := by
  cases p with
  | nil => exact h.isDigitByte_eq
  | cons => rfl

theorem head?_beq_eq (h : Alike c c') {k : UInt8} (hk : isWordStart k = false)
    (p after after' : List UInt8) :
    ((p ++ c :: after).head? == some k) = ((p ++ c' :: after').head? == some k) := by
  cases p with
  | nil =>
    show (some c == some k) = (some c' == some k)
    rw [Option.some_beq_some, Option.some_beq_some]
    exact h.beq_eq hk
  | cons => rfl

end Alike

/-! ## What is left of a text -/

section

variable {b c c' : UInt8} {text rest after after' p r w : List UInt8}

/-- What is left behind a byte does not reach back before it. -/
theorem ne_append_cons_of_suffix (h : text <:+ after) : text ≠ r ++ c :: after := by
  rintro rfl
  have := h.length_le
  rw [List.length_append, List.length_cons] at this
  omega

theorem suffix_of_append_suffix (h : r ++ w <:+ text) : ∃ q, text = q ++ w := by
  obtain ⟨q, rfl⟩ := (List.suffix_append r w).trans h
  exact ⟨q, rfl⟩

theorem skipString_suffix (quote : UInt8) (text : List UInt8) : skipString quote text <:+ text := by
  obtain ⟨stop, -, -, hrest⟩ := leaves_stringEnd text quote 0
  rw [List.drop_zero] at hrest
  rw [← hrest]
  exact List.drop_suffix stop text

theorem skipTemplate_suffix (text : List UInt8) : (skipTemplate text).2 <:+ text := by
  obtain ⟨stop, -, -, hrest⟩ := leaves_templateEnd text 0
  rw [List.drop_zero] at hrest
  rw [← hrest]
  exact List.drop_suffix stop text

theorem skipRegExpBody_suffix (inClass : Bool) (text : List UInt8) :
    (skipRegExpBody inClass text).1 <:+ text := by
  obtain ⟨stop, -, -, hrest⟩ := leaves_regExpBodyEnd text inClass 0
  rw [List.drop_zero] at hrest
  rw [← hrest]
  exact List.drop_suffix stop text

theorem skipGap_suffix (gap : Gap) (newline : Bool) (text : List UInt8) :
    (skipGap gap newline text).2 <:+ text := by
  obtain ⟨stop, -, -, hrest⟩ := leaves_gapEnd text gap newline 0
  rw [List.drop_zero] at hrest
  rw [← hrest]
  exact List.drop_suffix stop text

theorem skipString_cons_suffix (quote : UInt8) (hc : isBreakByte c = false) :
    skipString quote (c :: after) <:+ after := by
  rw [skipString_cons, hc, if_neg Bool.false_ne_true]
  split_ifs
  · exact (skipString_suffix quote _).trans (List.tail_suffix after)
  · exact List.suffix_rfl
  · exact skipString_suffix quote after

theorem skipTemplate_cons_suffix : (skipTemplate (c :: after)).2 <:+ after := by
  rw [skipTemplate_cons]
  split_ifs
  · exact (skipTemplate_suffix _).trans (List.tail_suffix after)
  · exact List.suffix_rfl
  · exact List.tail_suffix after
  · exact skipTemplate_suffix after

theorem skipRegExpBody_cons_suffix (inClass : Bool) (hc : isBreakByte c = false) :
    (skipRegExpBody inClass (c :: after)).1 <:+ after := by
  rw [skipRegExpBody_cons, hc, if_neg Bool.false_ne_true]
  split_ifs
  · exact (skipRegExpBody_suffix inClass _).trans (List.tail_suffix after)
  · exact skipRegExpBody_suffix true after
  · exact skipRegExpBody_suffix false after
  · exact List.suffix_rfl
  · exact skipRegExpBody_suffix inClass after

/-! ## Literals and words -/

theorem skipString_alike (h : Alike c c') (quote : UInt8) (p : List UInt8)
    (hread : skipString quote (p ++ c :: after) = r ++ c :: after) :
    skipString quote (p ++ c' :: after') = r ++ c' :: after' := by
  cases p with
  | nil =>
    exact absurd hread (ne_append_cons_of_suffix (skipString_cons_suffix quote h.stops.unbroken))
  | cons b p =>
    rw [List.cons_append, skipString_cons] at hread ⊢
    split_ifs at hread ⊢
    · cases p with
      | nil => exact absurd hread (ne_append_cons_of_suffix (skipString_suffix quote after))
      | cons d p => exact skipString_alike h quote p hread
    · rw [← List.cons_append] at hread ⊢
      rw [List.append_cancel_right hread]
    · rw [List.append_cancel_right hread]
    · exact skipString_alike h quote p hread
termination_by p.length

theorem skipTemplate_alike (h : Alike c c') (p : List UInt8) {e : TemplateEnd}
    (hread : skipTemplate (p ++ c :: after) = (e, r ++ c :: after)) :
    skipTemplate (p ++ c' :: after') = (e, r ++ c' :: after') := by
  cases p with
  | nil =>
    exact absurd (congrArg Prod.snd hread) (ne_append_cons_of_suffix skipTemplate_cons_suffix)
  | cons b p =>
    rw [List.cons_append, skipTemplate_cons] at hread ⊢
    rw [← h.head?_beq_eq (k := 0x7B) (by decide) p after after']
    split_ifs at hread ⊢
    · cases p with
      | nil =>
        exact absurd (congrArg Prod.snd hread)
          (ne_append_cons_of_suffix (skipTemplate_suffix after))
      | cons d p => exact skipTemplate_alike h p hread
    · obtain ⟨rfl, hrest⟩ := Prod.mk.inj hread
      rw [List.append_cancel_right hrest]
    · obtain ⟨rfl, hrest⟩ := Prod.mk.inj hread
      cases p with
      | nil => exact absurd hrest (ne_append_cons_of_suffix List.suffix_rfl)
      | cons d p =>
        rw [List.cons_append, List.tail_cons] at hrest
        rw [List.cons_append, List.tail_cons, List.append_cancel_right hrest]
    · exact skipTemplate_alike h p hread
termination_by p.length

theorem skipRegExpBody_alike (h : Alike c c') (inClass : Bool) (p : List UInt8) {closed : Bool}
    (hread : skipRegExpBody inClass (p ++ c :: after) = (r ++ c :: after, closed)) :
    skipRegExpBody inClass (p ++ c' :: after') = (r ++ c' :: after', closed) := by
  cases p with
  | nil =>
    exact absurd (congrArg Prod.fst hread)
      (ne_append_cons_of_suffix (skipRegExpBody_cons_suffix inClass h.stops.unbroken))
  | cons b p =>
    rw [List.cons_append, skipRegExpBody_cons] at hread ⊢
    split_ifs at hread ⊢
    · cases p with
      | nil =>
        exact absurd (congrArg Prod.fst hread)
          (ne_append_cons_of_suffix (skipRegExpBody_suffix inClass after))
      | cons d p => exact skipRegExpBody_alike h inClass p hread
    · obtain ⟨hrest, rfl⟩ := Prod.mk.inj hread
      rw [← List.cons_append] at hrest ⊢
      rw [List.append_cancel_right hrest]
    · exact skipRegExpBody_alike h true p hread
    · exact skipRegExpBody_alike h false p hread
    · obtain ⟨hrest, rfl⟩ := Prod.mk.inj hread
      rw [List.append_cancel_right hrest]
    · exact skipRegExpBody_alike h inClass p hread
termination_by p.length

theorem dropWhile_alike {test : UInt8 → Bool} (htest : test c = test c')
    (hread : (p ++ c :: after).dropWhile test = r ++ c :: after) (after' : List UInt8) :
    (p ++ c' :: after').dropWhile test = r ++ c' :: after' ∧
    (p ++ c' :: after').takeWhile test = (p ++ c :: after).takeWhile test := by
  induction p with
  | nil =>
    rw [List.nil_append, List.dropWhile_cons] at hread
    split_ifs at hread with hc
    · exact absurd hread (ne_append_cons_of_suffix (List.dropWhile_suffix test))
    · obtain rfl : [] = r := List.append_cancel_right hread
      rw [htest] at hc
      simp only [List.nil_append]
      rw [List.dropWhile_cons, if_neg hc, List.takeWhile_cons, if_neg hc, List.takeWhile_cons,
        htest, if_neg hc]
      exact ⟨rfl, rfl⟩
  | cons b p ih =>
    rw [List.cons_append, List.dropWhile_cons] at hread
    rw [List.cons_append, List.cons_append, List.dropWhile_cons, List.takeWhile_cons,
      List.takeWhile_cons]
    split_ifs at hread ⊢
    · exact ⟨(ih hread).1, congrArg (b :: ·) (ih hread).2⟩
    · rw [← List.cons_append] at hread ⊢
      rw [List.append_cancel_right hread]
      exact ⟨rfl, rfl⟩

theorem skipRegExp_alike (h : Alike c c') (hread : skipRegExp (p ++ c :: after) = r ++ c :: after) :
    skipRegExp (p ++ c' :: after') = r ++ c' :: after' := by
  rw [skipRegExp] at hread ⊢
  cases hbody : skipRegExpBody false (p ++ c :: after) with
  | mk text closed =>
    rw [hbody] at hread
    cases closed with
    | true =>
      have hsuffix : r ++ c :: after <:+ text := hread ▸ List.dropWhile_suffix isWordByte
      obtain ⟨q, rfl⟩ := suffix_of_append_suffix hsuffix
      rw [skipRegExpBody_alike h false p hbody]
      exact (dropWhile_alike h.isWordByte_eq hread after').1
    | false =>
      obtain rfl : text = r ++ c :: after := hread
      rw [skipRegExpBody_alike h false p hbody]

/-! ## Marks -/

/-- No mark goes on with a character that is not in its tail. -/
theorem prefix_append_cons_iff {m head more : List Char} {k : Char} (hk : k ∉ m.tail)
    (hne : head ≠ []) : m <+: head ++ k :: more ↔ m <+: head := by
  refine ⟨fun h => ?_, fun h => h.trans (List.prefix_append head _)⟩
  obtain hbegins | ⟨t, rfl⟩ :=
    List.prefix_or_prefix_of_prefix h (List.prefix_append head (k :: more))
  · exact hbegins
  · cases t with
    | nil =>
      exact ⟨[], by rw [List.append_nil, List.append_nil]⟩
    | cons d t =>
      rw [List.prefix_append_right_inj, List.cons_prefix_cons] at h
      refine absurd ?_ hk
      rw [List.tail_append_of_ne_nil hne, h.1]
      exact List.mem_append_right _ List.mem_cons_self

/-- The first mark that a text begins with. -/
def firstMark (text : List UInt8) : Option (List Char) :=
  marks.find? (·.isPrefixOf ((text.take 4).map fun b => Char.ofNat b.toNat))

theorem readMark_of_some {m : List Char} (h : firstMark text = some m) :
    readMark text = (some (.of (String.ofList m)), text.drop m.length) := by
  rw [firstMark] at h
  rw [readMark, h]

theorem readMark_of_none (h : firstMark text = none) : readMark text = (none, text.drop 1) := by
  rw [firstMark] at h
  rw [readMark, h]

theorem length_le_of_firstMark {m : List Char} (h : firstMark text = some m) :
    m.length ≤ text.length := by
  rw [firstMark] at h
  have hbegins := List.find?_some h
  have hle := (List.isPrefixOf_iff_prefix.mp hbegins).length_le
  rw [List.length_map, List.length_take] at hle
  omega

theorem firstMark_append (hc : Stops c) (hne : text ≠ []) (after : List UInt8) :
    firstMark (text ++ c :: after) = firstMark text := by
  refine List.find?_congr fun m hm => ?_
  rw [Bool.eq_iff_iff, List.isPrefixOf_iff_prefix, List.isPrefixOf_iff_prefix, List.map_take,
    List.map_take, List.prefix_take_iff, List.prefix_take_iff, List.map_append, List.map_cons,
    prefix_append_cons_iff (hc.unmarked m hm) (mt List.map_eq_nil_iff.mp hne)]

/-- The mark at the head of a text is found whatever follows such a byte. -/
theorem readMark_append (hc : Stops c) (hne : text ≠ []) (after : List UInt8) :
    readMark (text ++ c :: after) = ((readMark text).1, (readMark text).2 ++ c :: after) := by
  have happend := firstMark_append hc hne after
  cases hmark : firstMark text with
  | none =>
    rw [hmark] at happend
    have hlength : 1 ≤ text.length := List.length_pos_iff.mpr hne
    rw [readMark_of_none happend, readMark_of_none hmark, List.drop_append_of_le_length hlength]
  | some m =>
    rw [hmark] at happend
    have hlength := length_le_of_firstMark hmark
    rw [readMark_of_some happend, readMark_of_some hmark, List.drop_append_of_le_length hlength]

/-! ## White space and comments -/

theorem Gaps.alike (h : Alike c c') {newline newline' : Bool}
    (hgaps : Gaps newline (p ++ c :: after) newline' (r ++ c :: after)) (after' : List UInt8) :
    Gaps newline (p ++ c' :: after') newline' (r ++ c' :: after') := by
  generalize htext : p ++ c :: after = text at hgaps
  generalize hrest : r ++ c :: after = rest at hgaps
  induction hgaps generalizing p with
  | refl newline text =>
    subst hrest
    rw [List.append_cancel_right htext]
    exact .refl _ _
  | @blank _ _ b text rest hb others ih =>
    have hsuffix := others.suffix
    subst hrest
    cases p with
    | nil =>
      obtain ⟨rfl, rfl⟩ := List.cons.inj htext
      exact absurd rfl (ne_append_cons_of_suffix hsuffix)
    | cons d p =>
      obtain ⟨rfl, htail⟩ := List.cons.inj htext
      exact .blank hb (ih htail rfl)
  | @line _ _ comment text rest hcomment hend others ih =>
    obtain ⟨q, rfl⟩ := suffix_of_append_suffix (hrest ▸ others.suffix)
    have hp : p = 0x2F :: 0x2F :: (comment ++ q) := by
      refine List.append_cancel_right (htext.trans ?_)
      rw [List.cons_append, List.cons_append, List.append_assoc]
    rw [hp, List.cons_append, List.cons_append, List.append_assoc]
    refine .line hcomment ?_ (ih rfl hrest)
    cases q with
    | nil =>
      have hbreak : isBreakByte c = true := hend c rfl
      rw [h.stops.unbroken] at hbreak
      exact nomatch hbreak
    | cons d q => exact hend
  | @block _ _ comment text rest hcomment others ih =>
    obtain ⟨q, rfl⟩ := suffix_of_append_suffix (hrest ▸ others.suffix)
    have hp : p = 0x2F :: 0x2A :: (comment ++ (endMark ++ q)) := by
      refine List.append_cancel_right (htext.trans ?_)
      simp only [List.cons_append, List.append_assoc]
    rw [hp]
    simp only [List.cons_append, List.append_assoc]
    exact .block hcomment (ih rfl hrest)

/-- White space and comments before a token. -/
theorem skipGap_alike (h : Alike c c') {newline newline' : Bool}
    (hread : skipGap .between newline (p ++ c :: after) = (newline', b :: (r ++ c :: after))) :
    skipGap .between newline (p ++ c' :: after') = (newline', b :: (r ++ c' :: after')) := by
  have hgaps := gaps_of_skipGap hread (List.cons_ne_nil _ _)
  have hthere : skipGap .between newline' (b :: (r ++ c :: after)) =
      (newline', b :: (r ++ c :: after)) := hgaps.skipGap_eq.symm.trans hread
  rw [← List.cons_append] at hgaps
  rw [(hgaps.alike h after').skipGap_eq, List.cons_append, skipGap_between_cons]
  rw [skipGap_between_cons, h.head?_beq_eq (by decide) r after after',
    h.head?_beq_eq (by decide) r after after'] at hthere
  -- The byte begins a token in front of the one text, so it does in front of the other.
  have hshort (gap : Gap) (newline : Bool) (text : List UInt8) (htext : text <:+ r ++ c :: after) :
      skipGap gap newline text ≠ (newline', b :: (r ++ c :: after)) := by
    intro heq
    have hlength := ((skipGap_suffix gap newline text).trans htext).length_le
    rw [heq, List.length_cons] at hlength
    omega
  split_ifs at hthere ⊢
  · exact absurd hthere (hshort _ _ _ (List.tail_suffix _))
  · exact absurd hthere (hshort _ _ _ (List.tail_suffix _))
  · exact absurd hthere (hshort _ _ _ List.suffix_rfl)
  · exact absurd hthere (hshort _ _ _ List.suffix_rfl)
  · rfl

/-! ## Semicolons -/

theorem alike_semicolon : Alike 0x3B 0x3B :=
  .same (by decide)

/-- White space and comments before a semicolon. -/
theorem skipGap_append {newline : Bool} (hgap : (skipGap .between newline text).2 = 0x3B :: after)
    (more : List UInt8) :
    (skipGap .between newline (text ++ more)).2 = 0x3B :: (after ++ more) := by
  cases hskip : skipGap .between newline text with
  | mk newline' rest =>
    rw [hskip] at hgap
    obtain rfl : rest = 0x3B :: after := hgap
    have hgaps := gaps_of_skipGap hskip (List.cons_ne_nil _ _)
    obtain ⟨p, rfl⟩ := hgaps.suffix
    rw [← List.nil_append (0x3B :: after)] at hgaps
    rw [List.append_assoc, List.cons_append,
      (hgaps.alike alike_semicolon (after ++ more)).skipGap_eq]
    rfl

end

namespace Scan

variable {s t : Scan} {b c c' : UInt8} {text rest after after' w w' : List UInt8}

/-! ## Tokens -/

/-- What is read off two texts is the same, if the reading of the first text ends before `w`; then
that of the second one ends before `w'`. -/
def Agrees (w w' : List UInt8) (x x' : Scan × List UInt8) : Prop :=
  ∀ t r, x = (t, r ++ w) → x' = (t, r ++ w')

namespace Agrees

theorem same (s : Scan) (p : List UInt8) : Agrees w w' (s, p ++ w) (s, p ++ w') := by
  intro t r h
  obtain ⟨rfl, hrest⟩ := Prod.mk.inj h
  rw [List.append_cancel_right hrest]

theorem of_rest (s : Scan) {x x' : List UInt8} (h : ∀ r, x = r ++ w → x' = r ++ w') :
    Agrees w w' (s, x) (s, x') := by
  intro t r hread
  obtain ⟨rfl, hrest⟩ := Prod.mk.inj hread
  rw [h r hrest]

theorem ite {k : Prop} [Decidable k] {x x' y y' : Scan × List UInt8} (hx : k → Agrees w w' x x')
    (hy : ¬k → Agrees w w' y y') :
    Agrees w w' (if k then x else y) (if k then x' else y') := by
  by_cases hk : k
  · rw [if_pos hk, if_pos hk]
    exact hx hk
  · rw [if_neg hk, if_neg hk]
    exact hy hk

end Agrees

theorem agrees_template (h : Alike c c') (s : Scan) (p : List UInt8) :
    Agrees (c :: after) (c' :: after') (s.template (p ++ c :: after))
      (s.template (p ++ c' :: after')) := by
  intro t r hread
  rw [template] at hread ⊢
  cases hend : skipTemplate (p ++ c :: after) with
  | mk e rest =>
    rw [hend] at hread
    cases e with
    | closed | expression =>
      obtain ⟨rfl, rfl⟩ := Prod.mk.inj hread
      rw [skipTemplate_alike h p hend]

theorem agrees_closeBrace (h : Alike c c') (s : Scan) (p : List UInt8) :
    Agrees (c :: after) (c' :: after') (s.closeBrace (p ++ c :: after))
      (s.closeBrace (p ++ c' :: after')) := by
  rw [closeBrace, closeBrace]
  cases s.pop with
  | mk opening t =>
    cases opening with
    | none => exact .same _ _
    | some opening =>
      cases opening with
      | template => exact agrees_template h t p
      | block => exact .same _ _
      | root | paren | arguments | array | object => exact .same _ _

theorem agrees_token (h : Alike c c') (s : Scan) (b : UInt8) (p : List UInt8) :
    Agrees (c :: after) (c' :: after') (s.token b (p ++ c :: after))
      (s.token b (p ++ c' :: after')) := by
  unfold token
  rw [h.head?_isDigitByte_eq p after after']
  refine .ite (fun _ => .of_rest _ fun _ => skipString_alike h b p) fun _ => ?_
  refine .ite (fun _ => agrees_template h _ p) fun _ => ?_
  refine .ite (fun _ => .of_rest _ fun r hread => ?_) fun _ => ?_
  · have htest : (isWordByte c || c == 0x2E) = (isWordByte c' || c' == 0x2E) := by
      rw [h.isWordByte_eq, h.beq_eq (by decide)]
    exact (dropWhile_alike htest hread after').1
  refine .ite (fun _ => .same _ _) fun _ => ?_
  refine .ite (fun _ => .same _ _) fun _ => ?_
  refine .ite (fun _ => .same _ _) fun _ => ?_
  refine .ite (fun _ => .same _ _) fun _ => ?_
  refine .ite (fun _ => agrees_closeBrace h _ p) fun _ => ?_
  refine .ite (fun _ => .of_rest _ fun _ => skipRegExp_alike h) fun _ => ?_
  refine .ite (fun _ => ?_) fun _ => ?_
  · intro t r hread
    obtain ⟨rfl, hrest⟩ := Prod.mk.inj hread
    obtain ⟨hdrop, htake⟩ := dropWhile_alike h.isWordByte_eq hrest after'
    rw [hdrop, htake]
  · rw [← List.cons_append, ← List.cons_append, readMark_append h.stops (List.cons_ne_nil b p),
      readMark_append h.symm.stops (List.cons_ne_nil b p)]
    cases readMark (b :: p) with
    | mk mark rest =>
      cases mark with
      | none => exact .same _ _
      | some mark => exact .same _ _

theorem Balanced.token_suffix (h : s.Balanced) : (s.token b rest).2 <:+ rest := by
  have hdrop : (b :: rest).drop 0 = b :: rest := rfl
  obtain ⟨stop, -, hstop, hrest⟩ := h.token_machine hdrop
  obtain ⟨stop, rfl⟩ := Nat.exists_eq_add_of_le' hstop
  rw [← hrest]
  exact List.drop_suffix stop rest

/-! ## Steps -/

/-- A step that ends before a text is the same step before a text that begins alike. -/
theorem Balanced.step_alike (h : s.Balanced) (halike : Alike c c') {p r : List UInt8}
    (hstep : s.step (p ++ c :: after) = some (t, r ++ c :: after)) :
    s.step (p ++ c' :: after') = some (t, r ++ c' :: after') := by
  obtain ⟨newline, b, between, hgap, htoken⟩ := gap_of_step hstep
  obtain ⟨ht, hrest⟩ := Prod.mk.inj htoken
  have hnewline : Balanced { s with newline } := h
  obtain ⟨q, rfl⟩ := suffix_of_append_suffix (hrest ▸ hnewline.token_suffix)
  have hagrees : Scan.token { s with newline } b (q ++ c' :: after') =
      ((Scan.token { s with newline } b (q ++ c :: after)).1, r ++ c' :: after') :=
    agrees_token halike { s with newline } b q _ r (Prod.ext rfl hrest)
  rw [step_of_gap (skipGap_alike halike hgap), hagrees, ← ht]

theorem Steps.alike (h : Steps s text t rest) (hs : s.Balanced) (halike : Alike c c')
    {p r : List UInt8} (htext : text = p ++ c :: after) (hrest : rest = r ++ c :: after)
    (after' : List UInt8) : Steps s (p ++ c' :: after') t (r ++ c' :: after') := by
  induction h generalizing p with
  | refl =>
    rw [List.append_cancel_right (htext.symm.trans hrest)]
    exact .refl _ _
  | next hstep hothers ih =>
    obtain ⟨ht, -⟩ := hs.step hstep
    obtain ⟨q, hbetween⟩ := suffix_of_append_suffix (hrest ▸ hothers.suffix ht)
    rw [htext, hbetween] at hstep
    exact .next (hs.step_alike halike hstep) (ih ht hbetween hrest)

/-- Steps that leave a semicolon are the same steps when more follows. -/
theorem Steps.append (h : Steps s text t rest) (hs : s.Balanced) (more : List UInt8)
    (hsemicolon : 0x3B ∈ rest) : Steps s (text ++ more) t (rest ++ more) := by
  obtain ⟨r, after, rfl⟩ := List.append_of_mem hsemicolon
  obtain ⟨p, rfl⟩ := suffix_of_append_suffix (h.suffix hs)
  rw [List.append_assoc, List.append_assoc]
  exact h.alike hs alike_semicolon rfl rfl (after ++ more)

end Scan

end ScriptFeatures.Nesting
