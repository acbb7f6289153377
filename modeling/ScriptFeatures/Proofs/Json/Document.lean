import ScriptFeatures.Proofs.Json.Members

/-! Objects on one line are read back as they are. The text of a binary64 number has a point or an
exponent, so it is never read as an integer; where its digits give the number back, the value is the
same. -/

namespace ScriptFeatures.Json

open Outcome

/-! ## Numerals that are integers -/

namespace Numeral

variable {unfinished : Fault} {cs : List Char}

theorem takeSome_ne_nil {ds : List Nat} {left : List Char}
    (h : takeSome unfinished cs = .ok (ds, left)) : ds ≠ [] := by
  rw [takeSome] at h
  split at h
  · cases h
  · next hnil =>
    rintro rfl
    exact hnil left (Except.ok.inj h)

theorem eq_nil_of_takeFraction (h : takeFraction unfinished cs = .ok ([], [])) : cs = [] := by
  cases cs with
  | nil => rfl
  | cons c cs =>
    rw [takeFraction_cons] at h
    split at h
    · exact (takeSome_ne_nil h rfl).elim
    · cases h

theorem eq_nil_of_takeExponent (h : takeExponent unfinished cs = .ok (none, [])) : cs = [] := by
  cases cs with
  | nil => rfl
  | cons c cs =>
    rw [takeExponent] at h
    split at h
    · obtain ⟨_, -, hreturn⟩ := bind_eq_ok_iff.mp h
      cases hreturn
    · cases h

theorem isDigit_of_takeWhole {ds : List Nat} (h : takeWhole unfinished cs = .ok (ds, [])) :
    ∀ c ∈ cs, isDigit c = true := by
  have hsome := ((takeWhole_eq_ok_iff _).mp h).1
  rw [takeSome] at hsome
  split at hsome
  · cases hsome
  · have hrest := congrArg Prod.snd (Except.ok.inj hsome)
    exact List.dropWhile_eq_nil_iff.mp hrest

theorem isDigit_of_takeUnsigned {negative : Bool} {n : Numeral}
    (h : takeUnsigned unfinished negative cs = .ok (n, [])) (hfraction : n.fraction = [])
    (hexponent : n.exponent = none) : ∀ c ∈ cs, isDigit c = true := by
  obtain ⟨⟨whole, cs₁⟩, hwhole, h⟩ := bind_eq_ok_iff.mp h
  obtain ⟨⟨fraction, cs₂⟩, hcs₁, h⟩ := bind_eq_ok_iff.mp h
  obtain ⟨⟨exponent, cs₃⟩, hcs₂, h⟩ := bind_eq_ok_iff.mp h
  cases h
  dsimp only at hfraction hexponent hcs₁ hcs₂
  rw [hexponent] at hcs₂
  rw [hfraction, eq_nil_of_takeExponent hcs₂] at hcs₁
  rw [eq_nil_of_takeFraction hcs₁] at hwhole
  exact isDigit_of_takeWhole hwhole

/-- A numeral without fraction and exponent has a sign and digits only. -/
theorem isDigit_of_take {n : Numeral} (h : take unfinished cs = .ok (n, []))
    (hfraction : n.fraction = []) (hexponent : n.exponent = none) :
    ∀ c ∈ cs, c = '-' ∨ isDigit c = true := by
  cases cs with
  | nil => exact fun c hc => nomatch hc
  | cons c cs =>
    rw [take_cons] at h
    split at h
    · next hsign =>
      refine List.forall_mem_cons.mpr ⟨.inl hsign, fun c hc => .inr ?_⟩
      exact isDigit_of_takeUnsigned h hfraction hexponent c hc
    · exact fun c hc => .inr (isDigit_of_takeUnsigned h hfraction hexponent c hc)

theorem integer_of_number? {n : Numeral} {i : Int} (h : n.number? = some (.integer i)) :
    n.fraction = [] ∧ n.exponent = none := by
  by_cases hwhole : (n.fraction.isEmpty && n.exponent.isNone) = true
  · simpa using hwhole
  · simp [number?, hwhole] at h

end Numeral

/-! ## Numbers of binary64 -/

namespace Number

theorem exists_mark_place (ds : List Char) (point : Int) :
    ∃ c ∈ place ds point, c ≠ '-' ∧ isDigit c = false := by
  have hpoint : '.' ≠ '-' ∧ isDigit '.' = false := by decide
  have hletter : 'e' ≠ '-' ∧ isDigit 'e' = false := by decide
  unfold place
  extract_lets size exponent power
  split
  · exact ⟨'.', by simp, hpoint⟩
  split
  · exact ⟨'.', by simp, hpoint⟩
  split
  · exact ⟨'.', by simp, hpoint⟩
  split
  · exact ⟨'e', by simp, hletter⟩
  · exact ⟨'e', by simp, hletter⟩
  · exact ⟨'e', by simp, hletter⟩

theorem exists_mark_realText (x : Float) :
    ∃ c ∈ realText x, c ≠ '-' ∧ isDigit c = false := by
  unfold realText
  split
  · next negative significand exponent narrow _ =>
    extract_lets text
    have htext : ∃ c ∈ text, c ≠ '-' ∧ isDigit c = false := by
      unfold text
      split
      · exact ⟨'.', by simp, by decide⟩
      · exact exists_mark_place _ _
    split
    · obtain ⟨c, hc, hmark⟩ := htext
      exact ⟨c, List.mem_cons_of_mem _ hc, hmark⟩
    · exact htext
  · exact ⟨'n', by simp, by decide⟩

/-- What the text of a binary64 number is read as is no integer. -/
theorem exists_real_of_take {x : Float} {n : Number} (h : take (realText x) = .ok (n, [])) :
    ∃ y, n = .real y := by
  cases n with
  | real y => exact ⟨y, rfl⟩
  | integer i =>
    obtain ⟨⟨numeral, rest⟩, hnumeral, hvalue⟩ := bind_eq_ok_iff.mp h
    dsimp only at hvalue
    cases hnumber : numeral.number? with
    | none =>
      rw [hnumber] at hvalue
      cases hvalue
    | some n =>
      rw [hnumber] at hvalue
      cases hvalue
      obtain ⟨hfraction, hexponent⟩ := Numeral.integer_of_number? hnumber
      obtain ⟨c, hc, hsign, hdigit⟩ := exists_mark_realText x
      obtain hminus | hc := Numeral.isDigit_of_take hnumeral hfraction hexponent c hc
      · exact (hsign hminus).elim
      · exact nomatch hdigit.symm.trans hc

/-- Up to the largest power of ten in binary64 one division is made. -/
theorem lower_of_le (f : Float) {n : Nat} (h : n ≤ 308) :
    Decimal.lower f n = f / Float.ofScientific 1 false n := by
  rw [Decimal.lower, if_pos h]

theorem ReadsBack.of_numeral {x : Float} {n : Numeral}
    (htake : Numeral.take .truncated (realText x) = .ok (n, []))
    (hx : n.number? = some (.real x)) : ReadsBack x := by
  have hread : take (realText x) = .ok (.real x, []) := by
    refine bind_eq_ok_iff.mpr ⟨_, htake, ?_⟩
    dsimp only
    rw [hx]
    rfl
  exact ⟨_, hread, rfl⟩

theorem readsBack_half : ReadsBack 0.5 := by
  refine .of_numeral (n := ⟨false, [0], [5], none⟩) rfl ?_
  have hlower : Decimal.lower (5 : Nat).toUInt64.toFloat 1 = 0.5 :=
    (lower_of_le _ (by decide)).trans (by decide +kernel)
  exact congrArg (fun x => some (real x)) hlower

theorem ReadsBack.take_eq {x : Float} (h : ReadsBack x) :
    take (realText x) = .ok (.real x, []) := by
  obtain ⟨n, hn, hx⟩ := h
  obtain ⟨y, rfl⟩ := exists_real_of_take hn
  rw [hn, ← hx]
  rfl

end Number

/-- A number that is read back is the same value again, and what is no number is `null` again. -/
theorem Scalar.real {x : Float} (h : x.isFinite = true → Number.ReadsBack x) :
    Scalar (.real x) (.real x) := by
  rw [Value.real]
  split
  · next hfinite => exact .number (fun _ => rfl) (h hfinite).take_eq
  · exact .null

/-- An object of scalars on one line is read back. -/
theorem Value.parse_object {members : List (String × Value)}
    (h : ∀ m ∈ members, Scalar m.2 m.2) :
    Value.parse (Value.object members).compact = .ok (.object members) := by
  have hreads : Reads (readValue depthLimit) (.object members) (.object members) :=
    Reads.object fun m hm => Reads.value (h m hm) _
  rw [parse, compact, String.toList_ofList]
  exact hreads.whole .line

end ScriptFeatures.Json
