import ScriptFeatures.Json.Write

/-! A value on one line holds no control character, so no line break: the characters of texts that
are control characters are escaped, and the layout adds none. The induction follows the value, with
what is written after it as the rest. -/

namespace ScriptFeatures.Json

/-- No character of a text is a control character. -/
def Visible (cs : List Char) : Prop :=
  ∀ c ∈ cs, 32 ≤ c.toNat

instance (cs : List Char) : Decidable (Visible cs) :=
  decidable_of_iff (cs.all fun c => 32 ≤ c.toNat) <| by
    simp only [Visible, List.all_eq_true, decide_eq_true_eq]

namespace Visible

theorem nil : Visible [] := fun _ h => nomatch h

theorem cons {c : Char} {cs : List Char} (hc : 32 ≤ c.toNat) (h : Visible cs) :
    Visible (c :: cs) :=
  List.forall_mem_cons.mpr ⟨hc, h⟩

theorem append {cs ds : List Char} (hc : Visible cs) (hd : Visible ds) : Visible (cs ++ ds) :=
  List.forall_mem_append.mpr ⟨hc, hd⟩

theorem replicate (n : Nat) {c : Char} (hc : 32 ≤ c.toNat) : Visible (List.replicate n c) :=
  fun _ h => List.eq_of_mem_replicate h ▸ hc

theorem of_subset {cs ds : List Char} (hd : Visible ds) (h : cs ⊆ ds) : Visible cs :=
  fun c hc => hd c (h hc)

/-! ## Numbers -/

theorem toDigits (n : Nat) : Visible (Nat.toDigits 10 n) := by
  intro c hc
  have hdigit := Nat.isDigit_of_mem_toDigits (by decide) (by decide) hc
  have hlow : '0' ≤ c := by
    simp only [Char.isDigit, Bool.and_eq_true, decide_eq_true_eq] at hdigit
    exact hdigit.1
  have : 48 ≤ c.toNat := hlow
  omega

theorem place {ds : List Char} (h : Visible ds) (point : Int) :
    Visible (Number.place ds point) := by
  unfold Number.place
  extract_lets size exponent power
  have hpower : Visible power := by
    refine append ?_ (toDigits _)
    split
    · exact cons (by decide) nil
    · exact nil
  split
  · exact (h.append (replicate _ (by decide))).append (by decide)
  split
  · exact (h.of_subset (List.take_subset _ _)).append
      (cons (by decide) (h.of_subset (List.drop_subset _ _)))
  split
  · exact cons (by decide) (cons (by decide) ((replicate _ (by decide)).append h))
  split
  · exact cons (by decide) hpower
  · exact (cons (h _ List.mem_cons_self) (cons (by decide) hpower))
  · have hrest := (List.forall_mem_cons.mp h).2
    exact cons (h _ List.mem_cons_self) (cons (by decide) (append hrest (cons (by decide) hpower)))

theorem significant (d : Decimal.Digits) : Visible (Number.significant d).1 := by
  refine (toDigits d.digits).of_subset fun c hc => ?_
  exact List.mem_reverse.mp ((List.dropWhile_sublist _).subset (List.mem_reverse.mp hc))

theorem realText (x : Float) : Visible (Number.realText x) := by
  unfold Number.realText
  split
  · next negative significand exponent narrow _ =>
    extract_lets text
    have htext : Visible text := by
      unfold text
      split
      · decide
      · exact place (significant _) _
    split
    · exact cons (by decide) htext
    · exact htext
  · decide

theorem number (n : Number) {rest : List Char} (h : Visible rest) : Visible (n.write rest) := by
  unfold Number.write
  split
  · exact (toDigits _).append h
  · exact cons (by decide) ((toDigits _).append h)
  · exact (realText _).append h

/-! ## Texts -/

theorem hexDigit {n : Nat} (h : n < 16) : 32 ≤ (Json.hexDigit n).toNat := by
  decide +revert

theorem escape (c : Char) : Visible (Json.escape c) := by
  unfold Json.escape
  split
  case h_8 =>
    split
    · next hcontrol =>
      have hhigh := hexDigit (show c.toNat / 16 < 16 by omega)
      have hlow := hexDigit (show c.toNat % 16 < 16 by omega)
      have hdigits := cons hhigh (cons hlow nil)
      exact append (show Visible ['\\', 'u', '0', '0'] by decide) hdigits
    · next hcontrol => exact cons (Nat.not_lt.mp hcontrol) nil
  all_goals decide

theorem quote (s : String) {rest : List Char} (h : Visible rest) :
    Visible (Json.quote s rest) := by
  rw [Json.quote]
  refine cons (by decide) ?_
  induction s.toList with
  | nil => exact cons (by decide) h
  | cons c cs ih => exact (escape c).append ih

end Visible

/-! ## Values -/

mutual

theorem Value.visible_write : (v : Value) → {rest : List Char} → Visible rest →
    Visible (v.write .line rest)
  | .null, _, h => .append (show Visible ['n', 'u', 'l', 'l'] by decide) h
  | .boolean true, _, h => .append (show Visible ['t', 'r', 'u', 'e'] by decide) h
  | .boolean false, _, h => .append (show Visible ['f', 'a', 'l', 's', 'e'] by decide) h
  | .number n, _, h => .number n h
  | .text s, _, h => .quote s h
  | .array [], _, h => .cons (by decide) (.cons (by decide) h)
  | .array (v :: vs), _, h =>
    .cons (by decide) (v.visible_write (Value.visible_writeItems vs (.cons (by decide) h)))
  | .object [], _, h => .cons (by decide) (.cons (by decide) h)
  | .object ((name, v) :: ms), _, h =>
    .cons (by decide) (.quote name (.cons (by decide)
      (v.visible_write (Value.visible_writeMembers ms (.cons (by decide) h)))))

theorem Value.visible_writeItems : (vs : List Value) → {rest : List Char} → Visible rest →
    Visible (Value.writeItems .line vs rest)
  | [], _, h => h
  | v :: vs, _, h => .cons (by decide) (v.visible_write (Value.visible_writeItems vs h))

theorem Value.visible_writeMembers : (ms : List (String × Value)) → {rest : List Char} →
    Visible rest → Visible (Value.writeMembers .line ms rest)
  | [], _, h => h
  | (name, v) :: ms, _, h =>
    .cons (by decide) (.quote name (.cons (by decide)
      (v.visible_write (Value.visible_writeMembers ms h))))

end

/-- A value on one line holds no control character. -/
theorem Value.visible_compact (v : Value) : Visible v.compact.toList := by
  rw [compact, String.toList_ofList]
  exact v.visible_write .nil

end ScriptFeatures.Json
