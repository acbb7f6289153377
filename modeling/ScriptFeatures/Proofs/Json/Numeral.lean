import Mathlib.Data.List.TakeWhile
import ScriptFeatures.Json.Numeral
import ScriptFeatures.Proofs.Outcome

/-! Numbers are read up to their end. A number is read in pieces, each of which stops where the next
character does not go on with it; so what is read from a text alone is read from the front of any
longer one that goes on with another character (`Number.take_append`). Natural numbers are read back
from their digits (`Number.take_toDigits`). -/

namespace ScriptFeatures.Json

open Outcome

/-- Whether a character can go on a number after a digit. -/
def goesOn (c : Char) : Bool :=
  isDigit c || c == '.' || c == 'e' || c == 'E'

/-- A text that does not go on a number that stands before it. -/
def Ends (rest : List Char) : Prop :=
  ∀ c ∈ rest.head?, goesOn c = false

theorem Ends.nil : Ends [] := nofun

theorem Ends.cons {c : Char} (h : goesOn c = false) (cs : List Char) : Ends (c :: cs) := by
  rintro _ ⟨⟩
  exact h

theorem isDigit_eq (c : Char) : isDigit c = c.isDigit := by
  rw [Bool.eq_iff_iff]
  simp [isDigit, Char.isDigit, Char.le_def]

theorem takeDigits_cons (c : Char) (cs : List Char) :
    takeDigits (c :: cs) =
      if isDigit c then ((c.toNat - 48) :: (takeDigits cs).1, (takeDigits cs).2)
      else ([], c :: cs) := by
  by_cases h : isDigit c <;> simp [takeDigits, h]

theorem takeDigits_of_ends {rest : List Char} (h : Ends rest) : takeDigits rest = ([], rest) := by
  cases rest with
  | nil => rfl
  | cons c cs =>
    have hc : isDigit c = false := by
      have hgoes := h c rfl
      simp only [goesOn, Bool.or_eq_false_iff] at hgoes
      exact hgoes.1.1.1
    rw [takeDigits_cons, if_neg (by simp [hc])]

theorem takeDigits_append {rest : List Char} (h : Ends rest) (cs : List Char) :
    takeDigits (cs ++ rest) = ((takeDigits cs).1, (takeDigits cs).2 ++ rest) := by
  induction cs with
  | nil => exact takeDigits_of_ends h
  | cons c cs ih =>
    rw [List.cons_append, takeDigits_cons, takeDigits_cons, ih]
    split <;> rfl

namespace Numeral

variable {rest : List Char} (unfinished : Fault)

theorem takeSome_append (h : Ends rest) {cs left : List Char} {ds : List Nat}
    (hcs : takeSome unfinished cs = .ok (ds, left)) :
    takeSome unfinished (cs ++ rest) = .ok (ds, left ++ rest) := by
  rw [takeSome] at hcs ⊢
  rw [takeDigits_append h]
  generalize takeDigits cs = found at hcs ⊢
  obtain ⟨_ | ⟨d, ds'⟩, left'⟩ := found
  · cases hcs
  · cases hcs
    rfl

/-- Digits of which the first is a zero and more follow. -/
def Padded : List Nat → Prop
  | 0 :: _ :: _ => True
  | _ => False

theorem takeWhole_eq_ok_iff {cs left : List Char} {ds : List Nat} :
    takeWhole unfinished cs = .ok (ds, left) ↔
      takeSome unfinished cs = .ok (ds, left) ∧ ¬ Padded ds := by
  rw [takeWhole]
  split
  · next h =>
    rw [h]
    refine ⟨nofun, fun ⟨he, hp⟩ => ?_⟩
    cases he
    exact (hp trivial).elim
  · next h =>
    refine ⟨fun he => ⟨he, fun hp => ?_⟩, And.left⟩
    match ds, hp with
    | 0 :: d :: ds, _ => exact h d ds left he

theorem takeWhole_append (h : Ends rest) {cs left : List Char} {ds : List Nat}
    (hcs : takeWhole unfinished cs = .ok (ds, left)) :
    takeWhole unfinished (cs ++ rest) = .ok (ds, left ++ rest) := by
  rw [takeWhole_eq_ok_iff] at hcs ⊢
  exact ⟨takeSome_append unfinished h hcs.1, hcs.2⟩

theorem takeFraction_cons (c : Char) (cs : List Char) :
    takeFraction unfinished (c :: cs) =
      if c = '.' then takeSome unfinished cs else .ok ([], c :: cs) := by
  by_cases hc : c = '.'
  · subst hc
    rfl
  · rw [takeFraction, if_neg hc]
    rintro cs' ⟨⟩
    exact hc rfl

theorem takeFraction_append (h : Ends rest) {cs left : List Char} {ds : List Nat}
    (hcs : takeFraction unfinished cs = .ok (ds, left)) :
    takeFraction unfinished (cs ++ rest) = .ok (ds, left ++ rest) := by
  cases cs with
  | nil =>
    cases hcs
    cases rest with
    | nil => rfl
    | cons c rest =>
      have hc : c ≠ '.' := by
        rintro rfl
        exact nomatch h _ rfl
      rw [List.nil_append, takeFraction_cons, if_neg hc]
  | cons c cs =>
    rw [takeFraction_cons] at hcs
    rw [List.cons_append, takeFraction_cons]
    split at hcs
    · next hc =>
      rw [if_pos hc]
      exact takeSome_append unfinished h hcs
    · next hc =>
      cases hcs
      exact if_neg hc

theorem takeSign_append (c : Char) (cs : List Char) :
    takeSign (c :: cs ++ rest) = ((takeSign (c :: cs)).1, (takeSign (c :: cs)).2 ++ rest) := by
  unfold takeSign
  split <;> simp_all

theorem takeExponent_append (h : Ends rest) {cs left : List Char} {e : Option (Bool × Nat)}
    (hcs : takeExponent unfinished cs = .ok (e, left)) :
    takeExponent unfinished (cs ++ rest) = .ok (e, left ++ rest) := by
  cases cs with
  | nil =>
    cases hcs
    cases rest with
    | nil => rfl
    | cons c rest =>
      have hc : ¬ (c = 'e' ∨ c = 'E') := by
        rintro (rfl | rfl) <;> exact nomatch h _ rfl
      exact if_neg hc
  | cons c cs =>
    rw [takeExponent] at hcs
    rw [List.cons_append, takeExponent]
    split at hcs
    · next hc =>
      rw [if_pos hc]
      obtain ⟨⟨ds, left'⟩, hsome, hpure⟩ := bind_eq_ok_iff.mp hcs
      cases hpure
      cases cs with
      | nil => exact nomatch hsome
      | cons d cs =>
        rw [takeSign_append]
        exact bind_eq_ok_iff.mpr ⟨_, takeSome_append unfinished h hsome, rfl⟩
    · next hc =>
      cases hcs
      exact if_neg hc

/-- Reads a numeral after its sign. -/
def takeUnsigned (negative : Bool) (cs : List Char) : Except Fault (Numeral × List Char) := do
  let (whole, cs) ← takeWhole unfinished cs
  let (fraction, cs) ← takeFraction unfinished cs
  let (exponent, cs) ← takeExponent unfinished cs
  return (⟨negative, whole, fraction, exponent⟩, cs)

theorem take_cons (c : Char) (cs : List Char) :
    take unfinished (c :: cs) =
      if c = '-' then takeUnsigned unfinished true cs
      else takeUnsigned unfinished false (c :: cs) := by
  by_cases hc : c = '-'
  · subst hc
    rfl
  · rw [if_neg hc, take]
    · rfl
    · rintro cs' ⟨⟩
      exact hc rfl

theorem takeUnsigned_append (h : Ends rest) {negative : Bool} {cs left : List Char} {n : Numeral}
    (hcs : takeUnsigned unfinished negative cs = .ok (n, left)) :
    takeUnsigned unfinished negative (cs ++ rest) = .ok (n, left ++ rest) := by
  obtain ⟨⟨whole, cs₁⟩, hwhole, hcs⟩ := bind_eq_ok_iff.mp hcs
  obtain ⟨⟨fraction, cs₂⟩, hfraction, hcs⟩ := bind_eq_ok_iff.mp hcs
  obtain ⟨⟨exponent, cs₃⟩, hexponent, hcs⟩ := bind_eq_ok_iff.mp hcs
  cases hcs
  refine bind_eq_ok_iff.mpr ⟨_, takeWhole_append unfinished h hwhole, ?_⟩
  refine bind_eq_ok_iff.mpr ⟨_, takeFraction_append unfinished h hfraction, ?_⟩
  exact bind_eq_ok_iff.mpr ⟨_, takeExponent_append unfinished h hexponent, rfl⟩

theorem take_append (h : Ends rest) {cs left : List Char} {n : Numeral}
    (hcs : take unfinished cs = .ok (n, left)) :
    take unfinished (cs ++ rest) = .ok (n, left ++ rest) := by
  cases cs with
  | nil => exact nomatch hcs
  | cons c cs =>
    rw [take_cons] at hcs
    rw [List.cons_append, take_cons]
    split at hcs
    · next hc =>
      rw [if_pos hc]
      exact takeUnsigned_append unfinished h hcs
    · next hc =>
      rw [if_neg hc]
      exact takeUnsigned_append unfinished h hcs

/-! ## The fault of an unfinished text -/

variable {unfinished} (unfinished' : Fault) {cs : List Char}

theorem takeSome_of_takeSome {r : List Nat × List Char} (h : takeSome unfinished cs = .ok r) :
    takeSome unfinished' cs = .ok r := by
  rw [takeSome] at h ⊢
  split at h
  · cases h
  · exact h

theorem takeFraction_of_takeFraction {r : List Nat × List Char}
    (h : takeFraction unfinished cs = .ok r) : takeFraction unfinished' cs = .ok r := by
  unfold takeFraction at h ⊢
  split at h
  · exact takeSome_of_takeSome unfinished' h
  · exact h

theorem takeExponent_of_takeExponent {r : Option (Bool × Nat) × List Char}
    (h : takeExponent unfinished cs = .ok r) : takeExponent unfinished' cs = .ok r := by
  unfold takeExponent at h ⊢
  split at h
  · exact h
  · split at h
    · next hc =>
      obtain ⟨found, hsome, hreturn⟩ := bind_eq_ok_iff.mp h
      rw [if_pos hc]
      exact bind_eq_ok_iff.mpr ⟨found, takeSome_of_takeSome unfinished' hsome, hreturn⟩
    · next hc =>
      rw [if_neg hc]
      exact h

/-- A numeral is read alike whatever the fault would be of a text that ends in it. -/
theorem take_of_take {r : Numeral × List Char} (h : take unfinished cs = .ok r) :
    take unfinished' cs = .ok r := by
  obtain ⟨⟨whole, cs₁⟩, hwhole, h⟩ := bind_eq_ok_iff.mp h
  obtain ⟨⟨fraction, cs₂⟩, hfraction, h⟩ := bind_eq_ok_iff.mp h
  obtain ⟨⟨exponent, cs₃⟩, hexponent, h⟩ := bind_eq_ok_iff.mp h
  rw [takeWhole_eq_ok_iff] at hwhole
  refine bind_eq_ok_iff.mpr ⟨(whole, cs₁), ?_, ?_⟩
  · rw [takeWhole_eq_ok_iff]
    exact ⟨takeSome_of_takeSome unfinished' hwhole.1, hwhole.2⟩
  refine bind_eq_ok_iff.mpr ⟨_, takeFraction_of_takeFraction unfinished' hfraction, ?_⟩
  exact bind_eq_ok_iff.mpr ⟨_, takeExponent_of_takeExponent unfinished' hexponent, h⟩

end Numeral

namespace Number

/-- A number that a text alone is read as is read from its front as well. -/
theorem take_append {rest : List Char} (h : Ends rest) {cs : List Char} {n : Number}
    (hcs : take cs = .ok (n, [])) : take (cs ++ rest) = .ok (n, rest) := by
  obtain ⟨⟨numeral, left⟩, hnumeral, hcs⟩ := bind_eq_ok_iff.mp hcs
  refine bind_eq_ok_iff.mpr ⟨_, Numeral.take_append .truncated h hnumeral, ?_⟩
  dsimp only at hcs ⊢
  cases hn : numeral.number? with
  | none =>
    rw [hn] at hcs
    cases hcs
  | some n' =>
    rw [hn] at hcs
    cases hcs
    rfl

theorem exists_cons_of_take {cs left : List Char} {n : Number} (h : take cs = .ok (n, left)) :
    ∃ c cs', cs = c :: cs' ∧ (c = '-' ∨ isDigit c = true) := by
  obtain ⟨⟨numeral, left'⟩, hnumeral, -⟩ := bind_eq_ok_iff.mp h
  cases cs with
  | nil => exact nomatch hnumeral
  | cons c cs =>
    refine ⟨c, cs, rfl, Classical.or_iff_not_imp_left.mpr fun hc => ?_⟩
    rw [Numeral.take_cons, if_neg hc] at hnumeral
    obtain ⟨⟨whole, cs₁⟩, hwhole, -⟩ := bind_eq_ok_iff.mp hnumeral
    have hsome := ((Numeral.takeWhole_eq_ok_iff _).mp hwhole).1
    refine Decidable.byContradiction fun hdigit => ?_
    rw [Numeral.takeSome, takeDigits_cons, if_neg hdigit] at hsome
    cases hsome

/-! ## Natural numbers -/

theorem isDigit_of_mem_toDigits {n : Nat} {c : Char} (h : c ∈ Nat.toDigits 10 n) :
    isDigit c = true :=
  (isDigit_eq c).trans (Nat.isDigit_of_mem_toDigits (by decide) (by decide) h)

theorem takeDigits_toDigits (n : Nat) :
    takeDigits (Nat.toDigits 10 n) = ((Nat.toDigits 10 n).map fun c => c.toNat - 48, []) := by
  have hall : ∀ c ∈ Nat.toDigits 10 n, isDigit c = true := fun _ => isDigit_of_mem_toDigits
  have hdrop : (Nat.toDigits 10 n).dropWhile isDigit = [] := List.dropWhile_eq_nil_iff.mpr hall
  have htake : (Nat.toDigits 10 n).takeWhile isDigit = Nat.toDigits 10 n :=
    List.takeWhile_eq_self_iff.mpr hall
  rw [takeDigits, hdrop, htake]

theorem ofDigits_toDigits (n : Nat) :
    ofDigits ((Nat.toDigits 10 n).map fun c => c.toNat - 48) = n := by
  have h : Nat.ofDigitChars 10 (Nat.toDigits 10 n) 0 = n := Nat.ofDigitChars_ten_toDigits
  rw [Nat.ofDigitChars_eq_foldl] at h
  rw [ofDigits, List.foldl_map]
  simp only [Nat.mul_comm] at h ⊢
  exact h

theorem not_padded_singleton (d : Nat) : ¬ Numeral.Padded [d] := by
  cases d <;> exact id

theorem padded_concat {ds : List Nat} {d : Nat} (hne : ds ≠ [])
    (h : Numeral.Padded (ds ++ [d])) : ds = [0] ∨ Numeral.Padded ds := by
  match ds, h with
  | [0], _ => exact .inl rfl
  | 0 :: _ :: _, _ => exact .inr trivial

/-- Only zero has digits that start with a zero. -/
theorem not_padded_toDigits (n : Nat) :
    ¬ Numeral.Padded ((Nat.toDigits 10 n).map fun c => c.toNat - 48) := by
  induction n using Nat.strongRecOn with
  | _ n ih =>
    by_cases hn : n < 10
    · rw [Nat.toDigits_of_lt_base hn]
      exact not_padded_singleton _
    · rw [Nat.toDigits_of_base_le (by decide) (by omega), List.map_append]
      intro hpadded
      have hne : (Nat.toDigits 10 (n / 10)).map (fun c => c.toNat - 48) ≠ [] := by
        simp [Nat.toDigits_ne_nil]
      obtain hzero | hpadded := padded_concat hne hpadded
      · have hdiv := ofDigits_toDigits (n / 10)
        rw [hzero] at hdiv
        have : 0 = n / 10 := hdiv
        omega
      · exact ih (n / 10) (by omega) hpadded

theorem take_toDigits {n : Nat} (h : n < UInt64.size) :
    take (Nat.toDigits 10 n) = .ok (.integer n, []) := by
  have hwhole : Numeral.takeWhole .truncated (Nat.toDigits 10 n) =
      .ok ((Nat.toDigits 10 n).map fun c => c.toNat - 48, []) := by
    refine (Numeral.takeWhole_eq_ok_iff _).mpr ⟨?_, not_padded_toDigits n⟩
    rw [Numeral.takeSome, takeDigits_toDigits]
    split
    · next hnil =>
      have hmap := congrArg Prod.fst hnil
      simp [Nat.toDigits_ne_nil] at hmap
    · rfl
  obtain ⟨c, cs, hcons⟩ := List.exists_cons_of_ne_nil (Nat.toDigits_ne_nil (n := n) (b := 10))
  have hsign : c ≠ '-' := by
    rintro rfl
    have hdigit := isDigit_of_mem_toDigits (hcons ▸ List.mem_cons_self)
    exact nomatch hdigit
  have hnumeral : Numeral.take .truncated (Nat.toDigits 10 n) =
      .ok (⟨false, (Nat.toDigits 10 n).map fun c => c.toNat - 48, [], none⟩, []) := by
    rw [hcons, Numeral.take_cons, if_neg hsign, ← hcons]
    exact bind_eq_ok_iff.mpr ⟨_, hwhole, rfl⟩
  refine bind_eq_ok_iff.mpr ⟨_, hnumeral, ?_⟩
  have hnumber : Numeral.number? ⟨false, (Nat.toDigits 10 n).map fun c => c.toNat - 48, [], none⟩ =
      some (.integer n) := by
    rw [Numeral.number?, ofDigits_toDigits]
    simp [h]
  dsimp only
  rw [hnumber]
  rfl

end Number

end ScriptFeatures.Json
