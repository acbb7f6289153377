import ScriptFeatures.Json.Quoted

/-! Quoted texts are read back. The induction follows the text: `unquoteOnto_escape` reads what
stands for one character, which is the character itself, a short escape, or for the other control
characters an escape by number. -/

namespace ScriptFeatures.Json

/-! ## Escapes by number -/

theorem hexValue?_hexDigit {n : Nat} (h : n < 16) : hexValue? (hexDigit n) = some n := by
  decide +revert

/-- The number of a control character, written with four hexadecimal digits. -/
theorem hexUnit?_control {n : Nat} (h : n < 32) :
    hexUnit? '0' '0' (hexDigit (n / 16)) (hexDigit (n % 16)) = some n := by
  have hzero : hexValue? '0' = some 0 := rfl
  have hhigh : hexValue? (hexDigit (n / 16)) = some (n / 16) := hexValue?_hexDigit (by omega)
  have hlow : hexValue? (hexDigit (n % 16)) = some (n % 16) := hexValue?_hexDigit (by omega)
  rw [hexUnit?, hzero, hhigh, hlow]
  exact congrArg some (by omega)

/-! ## One step of reading -/

variable (done : List Char)

theorem unquoteOnto_end (cs : List Char) :
    unquoteOnto done ('"' :: cs) = .ok (String.ofList done.reverse, cs) := by
  rw [unquoteOnto.eq_def]
  exact if_pos rfl

theorem unquoteOnto_plain {c : Char} (hquote : c ≠ '"') (hbackslash : c ≠ '\\')
    (hcontrol : ¬ c.toNat < 32) (cs : List Char) :
    unquoteOnto done (c :: cs) = unquoteOnto (c :: done) cs := by
  rw [unquoteOnto.eq_def]
  simp [hquote, hbackslash, hcontrol]

theorem unquoteOnto_short {e x : Char} (hu : e ≠ 'u') (hx : unescape? e = some x)
    (cs : List Char) : unquoteOnto done ('\\' :: e :: cs) = unquoteOnto (x :: done) cs := by
  rw [unquoteOnto.eq_def]
  simp [hu, hx]

section

variable {h₁ h₂ h₃ h₄ : Char} {n : Nat} (hn : hexUnit? h₁ h₂ h₃ h₄ = some n)
include hn

theorem unquoteOnto_trailing (htrailing : isTrailing n = true) (cs : List Char) :
    unquoteOnto done ('\\' :: 'u' :: h₁ :: h₂ :: h₃ :: h₄ :: cs) = .error .malformed := by
  rw [unquoteOnto.eq_def]
  simp [hn, htrailing]

theorem unquoteOnto_single (htrailing : ¬isTrailing n = true) (hleading : ¬isLeading n = true)
    (cs : List Char) :
    unquoteOnto done ('\\' :: 'u' :: h₁ :: h₂ :: h₃ :: h₄ :: cs) =
      unquoteOnto (Char.ofNat n :: done) cs := by
  rw [unquoteOnto.eq_def]
  simp [hn, htrailing, hleading]

theorem unquoteOnto_number (hsmall : n < 32) (cs : List Char) :
    unquoteOnto done ('\\' :: 'u' :: h₁ :: h₂ :: h₃ :: h₄ :: cs) =
      unquoteOnto (Char.ofNat n :: done) cs := by
  refine unquoteOnto_single done hn ?_ ?_ cs
  · simp [isTrailing]
    omega
  · simp [isLeading]
    omega

variable (htrailing : ¬isTrailing n = true) (hleading : isLeading n = true)
include htrailing hleading

theorem unquoteOnto_pair {l₁ l₂ l₃ l₄ : Char} {m : Nat} (hm : hexUnit? l₁ l₂ l₃ l₄ = some m)
    (cs : List Char) :
    unquoteOnto done ('\\' :: 'u' :: h₁ :: h₂ :: h₃ :: h₄ ::
        '\\' :: 'u' :: l₁ :: l₂ :: l₃ :: l₄ :: cs) =
      if isTrailing m then unquoteOnto (joined n m :: done) cs else .error .malformed := by
  rw [unquoteOnto.eq_def]
  simp [hn, htrailing, hleading, hm]

theorem unquoteOnto_leading_plain {x : Char} (hx : x ≠ '\\') (cs : List Char) :
    unquoteOnto done ('\\' :: 'u' :: h₁ :: h₂ :: h₃ :: h₄ :: x :: cs) = .error .malformed := by
  rw [unquoteOnto.eq_def]
  simp [hn, htrailing, hleading, hx]

theorem unquoteOnto_leading_short {x : Char} (hx : x ≠ 'u') (cs : List Char) :
    unquoteOnto done ('\\' :: 'u' :: h₁ :: h₂ :: h₃ :: h₄ :: '\\' :: x :: cs) =
      .error .malformed := by
  rw [unquoteOnto.eq_def]
  simp [hn, htrailing, hleading, hx]

end

theorem unquoteOnto_escape (c : Char) (cs : List Char) :
    unquoteOnto done (escape c ++ cs) = unquoteOnto (c :: done) cs := by
  unfold escape
  split
  case h_8 hquote hbackslash _ _ _ _ _ =>
    split
    · next hcontrol =>
      have hn := hexUnit?_control hcontrol
      have hstep := unquoteOnto_number done hn hcontrol cs
      rwa [Char.ofNat_toNat] at hstep
    · next hcontrol => exact unquoteOnto_plain done hquote hbackslash hcontrol cs
  all_goals exact unquoteOnto_short done (by decide) rfl cs

theorem unquoteOnto_escapes (text rest : List Char) :
    unquoteOnto done (text.foldr (fun c rest => escape c ++ rest) ('"' :: rest)) =
      .ok (String.ofList (done.reverse ++ text), rest) := by
  induction text generalizing done with
  | nil => rw [List.foldr_nil, unquoteOnto_end, List.append_nil]
  | cons c text ih =>
    rw [List.foldr_cons, unquoteOnto_escape, ih, List.reverse_cons, List.append_assoc]
    rfl

/-- A quoted text is read back, whatever stands after it. -/
theorem unquote_quote (s : String) (rest : List Char) :
    unquote (s.toList.foldr (fun c rest => escape c ++ rest) ('"' :: rest)) = .ok (s, rest) := by
  rw [unquote, unquoteOnto_escapes, List.reverse_nil, List.nil_append, String.ofList_toList]

end ScriptFeatures.Json
