import ScriptFeatures.Json.Skip
import ScriptFeatures.Proofs.Json.Reads

/-! What is read as a scalar can be run over, and the same text is left. Running over a value looks
at less of it: at no halves of characters, and at no size of numbers. -/

namespace ScriptFeatures.Json

open Outcome

/-! ## Quoted texts -/

theorem skipQuoted_end (cs : List Char) : skipQuoted ('"' :: cs) = .ok cs := by
  rw [skipQuoted.eq_def]
  exact if_pos rfl

theorem skipQuoted_short {e x : Char} (hu : e ≠ 'u') (hx : unescape? e = some x)
    (cs : List Char) : skipQuoted ('\\' :: e :: cs) = skipQuoted cs := by
  rw [skipQuoted.eq_def]
  simp [hu, hx]

theorem skipQuoted_plain {c : Char} (hquote : c ≠ '"') (hbackslash : c ≠ '\\')
    (hcontrol : ¬c.toNat < 32) (cs : List Char) : skipQuoted (c :: cs) = skipQuoted cs := by
  rw [skipQuoted.eq_def]
  simp [hquote, hbackslash, hcontrol]

theorem skipQuoted_unit {h₁ h₂ h₃ h₄ : Char} (h : (hexUnit? h₁ h₂ h₃ h₄).isSome = true)
    (cs : List Char) : skipQuoted ('\\' :: 'u' :: h₁ :: h₂ :: h₃ :: h₄ :: cs) = skipQuoted cs := by
  rw [skipQuoted.eq_def]
  simp [h]

/-- What is read up to a closing quote is run over up to the same one. The induction follows the
reading; where that takes two escapes for one character, both are run over. -/
theorem skipQuoted_of_unquoteOnto {done cs rest : List Char} {s : String}
    (h : unquoteOnto done cs = .ok (s, rest)) : skipQuoted cs = .ok rest := by
  fun_induction unquoteOnto done cs
  case case2 =>
    cases h
    exact skipQuoted_end rest
  case case17 done e cs hu x hx _ ih =>
    rw [skipQuoted_short hu hx]
    exact ih h
  case case19 done c cs hquote hbackslash hcontrol ih =>
    rw [skipQuoted_plain hquote hbackslash hcontrol]
    exact ih h
  all_goals simp_all [skipQuoted]

/-! ## Scalars -/

theorem expect_of_constant {v w : Value} {word cs rest : List Char}
    (h : constant v word cs = .ok (w, rest)) : expect word cs = .ok rest := by
  obtain ⟨rest', hexpect, hreturn⟩ := bind_eq_ok_iff.mp h
  cases hreturn
  exact hexpect

theorem skipScalar_of_readScalar {cs rest : List Char} {v : Value}
    (h : readScalar cs = .ok (v, rest)) : skipScalar cs = .ok rest := by
  cases cs with
  | nil => exact nomatch h
  | cons c cs =>
    rw [readScalar] at h
    rw [skipScalar]
    split at h
    · next hc =>
      obtain ⟨⟨s, rest'⟩, hquoted, hreturn⟩ := map_eq_ok_iff.mp h
      cases hreturn
      rw [if_pos hc]
      exact skipQuoted_of_unquoteOnto hquoted
    split at h
    · next hc =>
      subst hc
      exact expect_of_constant h
    split at h
    · next hc =>
      subst hc
      exact expect_of_constant h
    split at h
    · next hc =>
      subst hc
      exact expect_of_constant h
    split at h
    · next hquote hn ht hf hnumber =>
      obtain ⟨⟨n, rest'⟩, htake, hreturn⟩ := map_eq_ok_iff.mp h
      cases hreturn
      obtain ⟨⟨numeral, rest''⟩, hnumeral, hvalue⟩ := bind_eq_ok_iff.mp htake
      have hrest : rest'' = rest := by
        dsimp only at hvalue
        split at hvalue
        · cases hvalue
          rfl
        · cases hvalue
      rw [if_neg hquote, if_neg hn, if_neg ht, if_neg hf, if_pos hnumber,
        Numeral.take_of_take .malformed hnumeral, hrest]
      rfl
    · cases h

/-- A scalar is run over where the value of any member may stand. -/
theorem Reads.skip {v w : Value} (h : Scalar v w) : Reads skipValue v () where
  starts layout _ hrest := h.starts layout hrest
  reads layout rest cs hrest hcs := by
    have hread := h layout hrest
    have hskip := skipScalar_of_readScalar hread
    obtain ⟨c, cs', hwrite, -, -, hopens⟩ := exists_cons_of_readScalar hread
    rw [hwrite] at hskip hcs hopens
    have hbracket : ¬(c = '[' ∨ c = '{') := by simpa [opens] using hopens
    have hne : cs ≠ [] := by
      rintro rfl
      exact List.cons_ne_nil c cs' hcs.symm
    -- two steps: over the scalar, and to the end since nothing is open
    obtain ⟨b, bound, hbound⟩ := List.exists_cons_of_ne_nil hne
    have hfrom : skipFrom (' ' :: cs) .value [] cs = .ok rest := by
      rw [skipFrom, hcs]
      dsimp only
      rw [if_neg hbracket, hskip, hbound]
      rfl
    rw [skipValue, hfrom]
    rfl

end ScriptFeatures.Json
