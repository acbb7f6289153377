import ScriptFeatures.Text.Lowercase

/-! What lowercasing does to a text. A capital sigma is the only character whose lower case depends
on its neighbours, so a text without one is lowercased character by character
(`lowercase_eq_flatMap`), and an ASCII text by `Char.toLower` (`lowercase_ascii`). -/

namespace ScriptFeatures.Text

theorem lowercaseOnto_eq_flatMap {text : List Char} (h : 'Σ' ∉ text) (done before : List Char) :
    lowercaseOnto done before text = done.reverse ++ text.flatMap lowerChar := by
  induction text generalizing done before with
  | nil => rw [lowercaseOnto, List.flatMap_nil, List.append_nil]
  | cons c rest ih =>
    rw [List.mem_cons, not_or] at h
    obtain ⟨hc, hrest⟩ := h
    have himage : ∀ sigma, (if c = 'Σ' then sigma else lowerChar c) = lowerChar c := fun _ =>
      if_neg fun hsigma => hc hsigma.symm
    rw [lowercaseOnto, himage, ih hrest, List.reverse_append, List.reverse_reverse,
      List.append_assoc, List.flatMap_cons]

theorem lowercase_eq_flatMap {text : String} (h : 'Σ' ∉ text.toList) :
    (lowercase text).toList = text.toList.flatMap lowerChar := by
  rw [lowercase, String.toList_ofList, lowercaseOnto_eq_flatMap h]
  rfl

theorem lowerChar_ascii {c : Char} (h : c.toNat < 0x80) : lowerChar c = [c.toLower] :=
  if_pos h

theorem lowercase_ascii {text : String} (h : ∀ c ∈ text.toList, c.toNat < 0x80) :
    (lowercase text).toList = text.toList.map Char.toLower := by
  have hsigma : 'Σ' ∉ text.toList := fun hmem => absurd (h 'Σ' hmem) (by decide)
  rw [lowercase_eq_flatMap hsigma, List.flatMap_def,
    List.map_congr_left fun c hc => lowerChar_ascii (h c hc), ← List.flatMap_def]
  exact List.map_eq_flatMap.symm

end ScriptFeatures.Text
