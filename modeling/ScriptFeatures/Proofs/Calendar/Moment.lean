import Mathlib.Algebra.Group.Nat.Defs
import Mathlib.Data.List.TakeWhile
import ScriptFeatures.Calendar.Moment

/-! The text of a moment is read back. A field has a fixed number of digits, so reading takes all of
them and stops; a moment in universal time is not moved. -/

namespace ScriptFeatures.Calendar

/-! ## Padded numbers -/

theorem isDigit_eq (c : Char) : isDigit c = c.isDigit := by
  rw [Bool.eq_iff_iff]
  simp [isDigit, Char.isDigit, Char.le_def]

theorem isBlank_of_isDigit {c : Char} (h : isDigit c = true) : Text.isBlank c = false := by
  have hrange : 48 ≤ c.toNat ∧ c.toNat ≤ 57 := by
    simpa [isDigit, Char.le_def, UInt32.le_iff_toNat_le] using h
  simp [Text.isBlank]
  omega

theorem length_padded {width n : Nat} (hwidth : 0 < width) (h : n < 10 ^ width) :
    (padded width n).length = width := by
  have hdigits : (Nat.toDigits 10 n).length ≤ width :=
    (Nat.length_toDigits_le_iff (by decide) hwidth).mpr h
  simp only [padded, List.length_append, List.length_replicate]
  omega

theorem isDigit_of_mem_padded {width n : Nat} {c : Char} (h : c ∈ padded width n) :
    isDigit c = true := by
  rw [padded, List.mem_append] at h
  obtain h | h := h
  · rw [List.eq_of_mem_replicate h]
    rfl
  · rw [isDigit_eq]
    exact Nat.isDigit_of_mem_toDigits (by decide) (by decide) h

theorem ofDigits_padded (width n : Nat) : ofDigits (padded width n) = n := by
  have h : Nat.ofDigitChars 10 (Nat.toDigits 10 n) 0 = n := Nat.ofDigitChars_ten_toDigits
  have hzeros (k : Nat) :
      (List.replicate k '0').foldl (fun n d => n * 10 + (d.toNat - 48)) 0 = 0 := by
    induction k with
    | zero => rfl
    | succ k ih => exact ih
  rw [Nat.ofDigitChars_eq_foldl] at h
  rw [ofDigits, padded, List.foldl_append, hzeros]
  simp only [Nat.mul_comm] at h ⊢
  exact h

section

variable {width n : Nat} (hwidth : 0 < width) (h : n < 10 ^ width)
include hwidth h

theorem exists_cons_padded : ∃ c cs, padded width n = c :: cs ∧ isDigit c = true := by
  have hlength := length_padded hwidth h
  obtain ⟨c, cs, hcs⟩ := List.exists_cons_of_length_pos (l := padded width n) (by omega)
  exact ⟨c, cs, hcs, isDigit_of_mem_padded (hcs ▸ List.mem_cons_self)⟩

theorem dropBlanks_padded (rest : List Char) :
    dropBlanks (padded width n ++ rest) = padded width n ++ rest := by
  obtain ⟨c, cs, hcs, hdigit⟩ := exists_cons_padded hwidth h
  rw [hcs, List.cons_append]
  exact List.dropWhile_cons_of_neg (by simp [isBlank_of_isDigit hdigit])

theorem takeDigits?_padded (rest : List Char) :
    takeDigits? width (padded width n ++ rest) = some (n, rest) := by
  have hlength := length_padded hwidth h
  have htake : (padded width n ++ rest).take width = padded width n :=
    List.take_left' hlength
  have hdigits : (padded width n).takeWhile isDigit = padded width n :=
    List.takeWhile_eq_self_iff.mpr fun _ => isDigit_of_mem_padded
  rw [takeDigits?, htake, hdigits]
  split
  · next hnil =>
    rw [hnil] at hlength
    exact absurd hlength (by simp; omega)
  · rw [ofDigits_padded, List.drop_left]

end

theorem takeField?_padded {n : Nat} (h : n < 100) (rest : List Char) :
    takeField? (padded 2 n ++ rest) = some (n, rest) := by
  rw [takeField?, dropBlanks_padded (by decide) h]
  exact takeDigits?_padded (by decide) h rest

theorem takeYear?_yearText {year : Int} (hlow : 0 ≤ year) (hhigh : year ≤ 9999)
    (rest : List Char) : takeYear? (yearText year ++ rest) = some (year, rest) := by
  have h : year.toNat < 10 ^ 4 := by omega
  have hdigits := takeDigits?_padded (by decide) h rest
  obtain ⟨c, cs, hcs, hc⟩ := exists_cons_padded (by decide) h
  rw [yearText, if_pos ⟨hlow, hhigh⟩, takeYear?, dropBlanks_padded (by decide) h]
  split
  · next heq =>
    rw [hcs] at heq
    cases heq
    exact nomatch hc
  · next heq =>
    rw [hcs] at heq
    cases heq
    exact nomatch hc
  · rw [hdigits]
    exact congrArg some (Prod.ext (Int.toNat_of_nonneg hlow) rfl)

/-! ## Fractions of a second -/

theorem takeFraction?_padded {width n : Nat} (hwidth : 0 < width) (hnine : width ≤ 9)
    (h : n < 10 ^ width) {c : Char} (hc : isDigit c = false) (rest : List Char) :
    takeFraction? ('.' :: (padded width n ++ c :: rest)) =
      some (n * 10 ^ (9 - width), c :: rest) := by
  have hlength := length_padded hwidth h
  have hdigits : (padded width n ++ c :: rest).takeWhile isDigit = padded width n := by
    rw [List.takeWhile_append_of_pos fun _ => isDigit_of_mem_padded,
      List.takeWhile_cons_of_neg (by simp [hc]), List.append_nil]
  rw [takeFraction?, hdigits]
  split
  · next hnil =>
    rw [hnil] at hlength
    exact absurd hlength (by simp; omega)
  · have hall : (padded width n).take 9 = padded width n := List.take_of_length_le (by omega)
    simp only [hall, ofDigits_padded, hlength]
    rw [List.drop_left' hlength]
    rfl

theorem takeFraction?_fractionText {nanosecond : Nat} (h : nanosecond < 1000000000) {c : Char}
    (hpoint : c ≠ '.') (hdigit : isDigit c = false) (rest : List Char) :
    takeFraction? (fractionText nanosecond ++ c :: rest) = some (nanosecond, c :: rest) := by
  rw [fractionText]
  split
  · next hzero =>
    rw [hzero, List.nil_append, takeFraction?]
    rintro cs ⟨⟩
    exact hpoint rfl
  split
  · next hmillis =>
    have hscale : nanosecond / 1000000 * 10 ^ (9 - 3) = nanosecond :=
      Nat.div_mul_cancel (Nat.dvd_of_mod_eq_zero hmillis)
    rw [List.cons_append, takeFraction?_padded (by decide) (by decide) (by omega) hdigit, hscale]
  split
  · next hmicros =>
    have hscale : nanosecond / 1000 * 10 ^ (9 - 6) = nanosecond :=
      Nat.div_mul_cancel (Nat.dvd_of_mod_eq_zero hmicros)
    rw [List.cons_append, takeFraction?_padded (by decide) (by decide) (by omega) hdigit, hscale]
  · have hscale : nanosecond * 10 ^ (9 - 9) = nanosecond := Nat.mul_one nanosecond
    rw [List.cons_append, takeFraction?_padded (by decide) (by decide) h hdigit, hscale]

/-! ## Moments -/

theorem takeMark?_cons {mark : Char} (h : Text.isBlank mark = false) (rest : List Char) :
    takeMark? mark (mark :: rest) = some rest := by
  rw [takeMark?, dropBlanks, List.dropWhile_cons_of_neg (by simp [h])]
  exact if_pos rfl

theorem Moment.earlier_zero {m : Moment} (hhour : m.hour ≤ 23) (hminute : m.minute ≤ 59) :
    m.earlier 0 = m := by
  have htime : ((m.hour * 60 + m.minute : Nat) - 0 : Int).toNat = m.hour * 60 + m.minute := by
    omega
  rw [earlier, if_neg (by omega), if_pos (by omega)]
  dsimp only
  rw [htime, show (m.hour * 60 + m.minute) / 60 = m.hour by omega,
    show (m.hour * 60 + m.minute) % 60 = m.minute by omega]

/-- A moment of a year with four digits is read back from its text. -/
theorem Moment.parse?_text {m : Moment} (hvalid : m.isValid = true) (hlow : 0 ≤ m.year)
    (hhigh : m.year ≤ 9999) : Moment.parse? (m.text "Z") = some m := by
  have hfields := hvalid
  simp only [isValid, Bool.and_eq_true, decide_eq_true_eq] at hfields
  obtain ⟨⟨⟨⟨⟨⟨⟨⟨hrange, -⟩, hmonth⟩, -⟩, hday⟩, hhour⟩, hminute⟩, hsecond⟩, hnano⟩ := hfields
  have hdays : daysIn m.year m.month ≤ 31 := by
    unfold daysIn
    split_ifs <;> omega
  rw [Moment.parse?, Moment.text, String.toList_ofList]
  simp only [List.append_assoc, List.cons_append]
  refine Option.bind_eq_some_iff.mpr ⟨_, takeYear?_yearText hlow hhigh _, ?_⟩
  refine Option.bind_eq_some_iff.mpr ⟨_, takeMark?_cons rfl _, ?_⟩
  refine Option.bind_eq_some_iff.mpr ⟨_, takeField?_padded (by omega) _, ?_⟩
  refine Option.bind_eq_some_iff.mpr ⟨_, takeMark?_cons rfl _, ?_⟩
  refine Option.bind_eq_some_iff.mpr ⟨_, takeField?_padded (by omega) _, ?_⟩
  dsimp only
  rw [if_pos (.inl rfl), Option.bind_eq_bind, Option.bind_some]
  refine Option.bind_eq_some_iff.mpr ⟨_, takeField?_padded (by omega) _, ?_⟩
  refine Option.bind_eq_some_iff.mpr ⟨_, takeMark?_cons rfl _, ?_⟩
  refine Option.bind_eq_some_iff.mpr ⟨_, takeField?_padded (by omega) _, ?_⟩
  refine Option.bind_eq_some_iff.mpr ⟨_, takeMark?_cons rfl _, ?_⟩
  refine Option.bind_eq_some_iff.mpr ⟨_, takeField?_padded (by omega) _, ?_⟩
  refine Option.bind_eq_some_iff.mpr
    ⟨_, takeFraction?_fractionText hnano (c := 'Z') (by decide) rfl [], ?_⟩
  refine Option.bind_eq_some_iff.mpr ⟨(0, []), rfl, ?_⟩
  change (if (!m.isValid) = true then _ else
    if (m.earlier 0).inRange = true then some (m.earlier 0) else none) = some m
  rw [earlier_zero hhour hminute, if_pos hrange, hvalid]
  rfl

end ScriptFeatures.Calendar
