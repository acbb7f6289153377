import Mathlib.Algebra.BigOperators.Group.List.Lemmas
import Mathlib.Data.List.Basic
import ScriptFeatures.Text.Tally

/-! Occurrences that are taken from left to right are as many as can be taken.

* `Holds word text n`: the text holds `n` copies of the word that do not overlap. A text can hold
  them at several places, and a word that begins as it ends can be taken at places that exclude one
  another.
* `holds_iff_le_occurrences`: the leftmost occurrences are the most that a text holds. If any
  copies are given, the first of them can be exchanged for the leftmost occurrence.
* `occurrences_append`: of two texts side by side, the copies in the one and in the other are copies
  in both, and at most one more lies over the join. -/

namespace ScriptFeatures.Text

variable {word text a b : List Char} {n m : Nat}

/-! ## One step of counting -/

theorem occurrencesOnto_eq_add (word : List Char) (found skip : Nat) (text : List Char) :
    occurrencesOnto word found skip text = found + occurrencesOnto word 0 skip text := by
  induction text generalizing found skip with
  | nil => simp [occurrencesOnto]
  | cons c rest ih =>
    cases skip with
    | succ skip =>
      rw [occurrencesOnto, occurrencesOnto, ih]
    | zero =>
      rw [occurrencesOnto, occurrencesOnto]
      split
      · rw [ih (found + 1), ih (0 + 1)]
        omega
      · exact ih found 0

theorem occurrencesOnto_eq_drop (word : List Char) (found skip : Nat) (text : List Char) :
    occurrencesOnto word found skip text = occurrencesOnto word found 0 (text.drop skip) := by
  induction text generalizing skip with
  | nil => simp [occurrencesOnto]
  | cons c rest ih =>
    cases skip with
    | zero => simp
    | succ skip => rw [occurrencesOnto, ih, List.drop_succ_cons]

theorem occurrences_cons_of_miss {c : Char} (h : ¬word <+: c :: text) :
    occurrences word (c :: text) = occurrences word text := by
  have hcheck : ¬word.isPrefixOf (c :: text) = true := by
    rwa [List.isPrefixOf_iff_prefix]
  rw [occurrences, occurrencesOnto, if_neg hcheck, occurrences]

theorem occurrences_word_append (hne : word ≠ []) (text : List Char) :
    occurrences word (word ++ text) = occurrences word text + 1 := by
  obtain ⟨c, rest, rfl⟩ := List.exists_cons_of_ne_nil hne
  have hcheck : (c :: rest).isPrefixOf (c :: (rest ++ text)) = true := by
    rw [List.isPrefixOf_iff_prefix]
    exact List.prefix_append (c :: rest) text
  rw [occurrences, List.cons_append, occurrencesOnto, if_pos hcheck, occurrencesOnto_eq_add,
    occurrencesOnto_eq_drop]
  simp [occurrences, Nat.add_comm]

/-- Induction along the count: where the text starts with the word, over the word; otherwise over
one character. -/
theorem occurrences_induction (hne : word ≠ []) {motive : List Char → Prop} (nil : motive [])
    (hit : ∀ text, motive text → motive (word ++ text))
    (miss : ∀ c text, ¬word <+: c :: text → motive text → motive (c :: text))
    (text : List Char) : motive text := by
  induction hlength : text.length using Nat.strongRecOn generalizing text with
  | _ n ih =>
    by_cases hprefix : word <+: text
    · obtain ⟨rest, rfl⟩ := hprefix
      have hpos := List.length_pos_of_ne_nil hne
      rw [List.length_append] at hlength
      exact hit rest (ih rest.length (by omega) rest rfl)
    · cases text with
      | nil => exact nil
      | cons c rest =>
        rw [List.length_cons] at hlength
        exact miss c rest hprefix (ih rest.length (by omega) rest rfl)

/-! ## Copies that do not overlap -/

/-- `Holds word text n`: the text can be cut into single characters and `n` copies of the word. -/
inductive Holds (word : List Char) : List Char → Nat → Prop
  | nil : Holds word [] 0
  | pass (c : Char) {text : List Char} {n : Nat} (h : Holds word text n) : Holds word (c :: text) n
  | copy {text : List Char} {n : Nat} (h : Holds word text n) : Holds word (word ++ text) (n + 1)

namespace Holds

theorem behind (h : Holds word text n) (front : List Char) : Holds word (front ++ text) n := by
  induction front with
  | nil => exact h
  | cons c front ih => exact .pass c ih

theorem zero (text : List Char) : Holds word text 0 := by
  have h := (Holds.nil : Holds word [] 0).behind text
  rwa [List.append_nil] at h

theorem append (ha : Holds word a m) (hb : Holds word b n) : Holds word (a ++ b) (m + n) := by
  induction ha with
  | nil => rwa [List.nil_append, Nat.zero_add]
  | pass c _ ih => exact .pass c ih
  | copy _ ih =>
    rw [List.append_assoc, Nat.add_right_comm]
    exact .copy ih

/-- What is cut off at the front costs one copy, if it is no longer than the word. -/
theorem drop (h : Holds word text (n + 1)) {k : Nat} (hk : k ≤ word.length) :
    Holds word (text.drop k) n := by
  generalize hcount : n + 1 = total at h
  induction h generalizing k with
  | nil => cases hcount
  | pass c _ ih =>
    cases k with
    | zero => exact .pass c (ih hk hcount)
    | succ k => exact ih (by omega) hcount
  | copy h _ =>
    cases hcount
    rw [List.drop_append_of_le_length hk]
    exact h.behind _

theorem of_cons {c : Char} (h : Holds word (c :: text) n) (hmiss : ¬word <+: c :: text) :
    Holds word text n := by
  generalize hcons : c :: text = whole at h
  cases h with
  | nil => cases hcons
  | pass _ h =>
    cases hcons
    exact h
  | copy h => exact (hmiss (hcons ▸ List.prefix_append _ _)).elim

theorem count_le (h : Holds word text n) {c : Char} (hc : c ∈ word) : n ≤ text.count c := by
  induction h with
  | nil => exact Nat.zero_le _
  | pass d _ ih => exact ih.trans List.count_le_count_cons
  | copy _ ih =>
    have hpos := List.count_pos_iff.mpr hc
    rw [List.count_append]
    omega

end Holds

theorem holds_occurrences (hne : word ≠ []) (text : List Char) :
    Holds word text (occurrences word text) := by
  induction text using occurrences_induction hne with
  | nil => exact .nil
  | hit text ih =>
    rw [occurrences_word_append hne]
    exact .copy ih
  | miss c text hmiss ih =>
    rw [occurrences_cons_of_miss hmiss]
    exact .pass c ih

theorem Holds.le_occurrences (hne : word ≠ []) (h : Holds word text n) :
    n ≤ occurrences word text := by
  induction text using occurrences_induction hne generalizing n with
  | nil =>
    generalize hnil : ([] : List Char) = whole at h
    cases h with
    | nil => exact Nat.zero_le _
    | pass => cases hnil
    | copy => exact (hne (List.append_eq_nil_iff.mp hnil.symm).1).elim
  | hit text ih =>
    rw [occurrences_word_append hne]
    cases n with
    | zero => exact Nat.zero_le _
    | succ n =>
      -- the first copy is given up for the one at the front
      have hrest := h.drop (Nat.le_refl _)
      rw [List.drop_left] at hrest
      exact Nat.succ_le_succ (ih hrest)
  | miss c text hmiss ih =>
    rw [occurrences_cons_of_miss hmiss]
    exact ih (h.of_cons hmiss)

/-- A text holds as many copies of a word as are found from left to right, and no more. -/
theorem holds_iff_le_occurrences (hne : word ≠ []) :
    Holds word text n ↔ n ≤ occurrences word text := by
  refine ⟨Holds.le_occurrences hne, fun hle => ?_⟩
  induction hle' : occurrences word text - n generalizing n with
  | zero =>
    have : n = occurrences word text := by omega
    exact this ▸ holds_occurrences hne text
  | succ k ih =>
    have h := (ih (n := n + 1) (by omega) (by omega)).drop (Nat.zero_le _)
    rwa [List.drop_zero] at h

theorem occurrences_le_count (hne : word ≠ []) {c : Char} (hc : c ∈ word) (text : List Char) :
    occurrences word text ≤ text.count c :=
  (holds_occurrences hne text).count_le hc

/-! ## Two texts side by side -/

/-- Whether a word stands over the join of two texts: some of it, but not all, ends the first. -/
def Straddles (word a b : List Char) : Prop :=
  ∃ i < word.length, 0 < i ∧ word.take i <:+ a ∧ word.drop i <+: b

instance (word a b : List Char) : Decidable (Straddles word a b) := by
  unfold Straddles
  infer_instance

theorem Straddles.cons {c : Char} (h : Straddles word a b) : Straddles word (c :: a) b := by
  obtain ⟨i, hi, hpos, ha, hb⟩ := h
  exact ⟨i, hi, hpos, ha.trans (List.suffix_cons c a), hb⟩

theorem Straddles.append_left (front : List Char) (h : Straddles word a b) :
    Straddles word (front ++ a) b := by
  induction front with
  | nil => exact h
  | cons c front ih => exact ih.cons

theorem straddles_append {front back : List Char} (hfront : front ≠ []) (hback : back ≠ [])
    (rest : List Char) : Straddles (front ++ back) front (back ++ rest) := by
  have hpos := List.length_pos_of_ne_nil hfront
  have hpos' := List.length_pos_of_ne_nil hback
  refine ⟨front.length, ?_, hpos, ?_, ?_⟩
  · rw [List.length_append]
    omega
  · rw [List.take_left]
  · rw [List.drop_left]
    exact List.prefix_append back rest

/-- Copies in two texts side by side are copies in the one, copies in the other, and at most one
that stands over the join. -/
theorem Holds.split (h : Holds word (a ++ b) n) :
    ∃ i j, Holds word a i ∧ Holds word b j ∧ n ≤ i + j + 1 ∧
      (¬Straddles word a b → n ≤ i + j) := by
  generalize htext : a ++ b = text at h
  induction h generalizing a with
  | nil =>
    obtain ⟨rfl, rfl⟩ := List.append_eq_nil_iff.mp htext
    exact ⟨0, 0, .nil, .nil, by omega, fun _ => by omega⟩
  | @pass c text n h ih =>
    cases a with
    | nil =>
      rw [List.nil_append] at htext
      exact ⟨0, n, .nil, htext ▸ .pass c h, by omega, fun _ => by omega⟩
    | cons d a =>
      obtain ⟨rfl, hrest⟩ := List.cons.inj htext
      obtain ⟨i, j, ha, hb, hle, hjoin⟩ := ih hrest
      exact ⟨i, j, .pass d ha, hb, hle, fun hapart => hjoin (mt Straddles.cons hapart)⟩
  | @copy text n h ih =>
    obtain ⟨back, rfl, rfl⟩ | ⟨back, rfl, rfl⟩ := List.append_eq_append_iff.mp htext
    · -- the copy begins in the first text and ends behind it
      by_cases hfront : a = []
      · subst hfront
        rw [List.nil_append]
        exact ⟨0, n + 1, .nil, .copy h, by omega, fun _ => by omega⟩
      · by_cases hback : back = []
        · subst hback
          rw [List.append_nil] at h ⊢
          have ha := (Holds.nil : Holds a [] 0).copy
          rw [List.append_nil] at ha
          exact ⟨1, n, ha, h, by omega, fun _ => by omega⟩
        · refine ⟨0, n, .zero a, h.behind back, by omega, fun hapart => ?_⟩
          exact (hapart (straddles_append hfront hback text)).elim
    · -- the copy lies in the first text
      obtain ⟨i, j, ha, hb, hle, hjoin⟩ := ih rfl
      refine ⟨i + 1, j, .copy ha, hb, by omega, fun hapart => ?_⟩
      have := hjoin (mt (Straddles.append_left word) hapart)
      omega

/-- The occurrences in two texts side by side: at least those of both, at most one more, and no more
if the word does not stand over the join. -/
theorem occurrences_append (hne : word ≠ []) (a b : List Char) :
    occurrences word a + occurrences word b ≤ occurrences word (a ++ b) ∧
      occurrences word (a ++ b) ≤ occurrences word a + occurrences word b + 1 ∧
      (¬Straddles word a b →
        occurrences word (a ++ b) = occurrences word a + occurrences word b) := by
  have hlow := ((holds_occurrences hne a).append (holds_occurrences hne b)).le_occurrences hne
  obtain ⟨i, j, ha, hb, hle, hjoin⟩ := (holds_occurrences hne (a ++ b)).split
  have hi := ha.le_occurrences hne
  have hj := hb.le_occurrences hne
  refine ⟨hlow, by omega, fun hapart => ?_⟩
  have := hjoin hapart
  omega

end ScriptFeatures.Text
