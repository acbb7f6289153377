import ScriptFeatures.Proofs.Text.Bytes

/-! The lines of a text. Lines are split at bytes, and a byte below 128 stands for its own character
in UTF-8 and for nothing else, so they are the lines that the characters make: what stands before a
line feed, less one carriage return at its end. -/

namespace ScriptFeatures.Text

/-! ## ASCII in UTF-8 -/

theorem le_ofNat {n : Nat} (hlow : 0x80 ≤ n) (hhigh : n < 0x100) : 0x80 ≤ UInt8.ofNat n := by
  rw [UInt8.le_iff_toNat_le, UInt8.toNat_ofNat_of_lt' hhigh]
  exact hlow

theorem le_of_mem_utf8EncodeChar {c : Char} (hc : 0x80 ≤ c.toNat) {b : UInt8}
    (hb : b ∈ String.utf8EncodeChar c) : 0x80 ≤ b := by
  have hlarge : ¬c.val.toNat ≤ 0x7F := Nat.not_le.mpr hc
  rw [String.utf8EncodeChar] at hb
  simp only [hlarge, if_false] at hb
  split at hb
  · simp only [List.mem_cons, List.not_mem_nil, or_false] at hb
    obtain rfl | rfl := hb <;> exact le_ofNat (by omega) (by omega)
  split at hb
  · simp only [List.mem_cons, List.not_mem_nil, or_false] at hb
    obtain rfl | rfl | rfl := hb <;> exact le_ofNat (by omega) (by omega)
  · simp only [List.mem_cons, List.not_mem_nil, or_false] at hb
    obtain rfl | rfl | rfl | rfl := hb <;> exact le_ofNat (by omega) (by omega)

theorem utf8EncodeChar_ascii {c : Char} (hc : c.toNat < 0x80) :
    String.utf8EncodeChar c = [UInt8.ofNat c.toNat] := by
  have hsmall : c.val.toNat ≤ 0x7F := Nat.le_of_lt_succ hc
  rw [String.utf8EncodeChar]
  exact if_pos hsmall

/-- A byte below 128 belongs to the character of its number only. -/
theorem mem_utf8EncodeChar_iff {b : UInt8} (hb : b < 0x80) (c : Char) :
    b ∈ String.utf8EncodeChar c ↔ c.toNat = b.toNat := by
  have hbyte : b.toNat < 0x80 := UInt8.lt_iff_toNat_lt.mp hb
  by_cases hc : c.toNat < 0x80
  · rw [utf8EncodeChar_ascii hc, List.mem_singleton]
    constructor
    · rintro rfl
      exact (UInt8.toNat_ofNat_of_lt' (Nat.lt_trans hc (by decide))).symm
    · intro h
      rw [h, UInt8.ofNat_toNat]
  · constructor
    · intro hmem
      exact absurd hb (UInt8.not_lt.mpr (le_of_mem_utf8EncodeChar (Nat.not_lt.mp hc) hmem))
    · intro h
      omega

theorem lineFeed_mem_iff (cs : List Char) : 10 ∈ cs.flatMap String.utf8EncodeChar ↔ '\n' ∈ cs := by
  rw [List.mem_flatMap]
  constructor
  · rintro ⟨c, hc, hmem⟩
    have : c = '\n' := Char.toNat_inj.mp ((mem_utf8EncodeChar_iff (by decide) c).mp hmem)
    rwa [← this]
  · exact fun h => ⟨'\n', h, by decide⟩

/-- A text has as many bytes that are line feeds as it has line feeds. -/
theorem count_lineFeed (cs : List Char) :
    (cs.flatMap String.utf8EncodeChar).count 10 = cs.count '\n' := by
  induction cs with
  | nil => rfl
  | cons c cs ih =>
    rw [List.flatMap_cons, List.count_append, ih, List.count_cons]
    by_cases hc : c = '\n'
    · have hfeed : String.utf8EncodeChar '\n' = [10] := rfl
      rw [hc, hfeed, Nat.add_comm]
      rfl
    · have hmem : 10 ∉ String.utf8EncodeChar c := fun hmem =>
        hc (Char.toNat_inj.mp ((mem_utf8EncodeChar_iff (by decide) c).mp hmem))
      simp [List.count_eq_zero_of_not_mem hmem, hc]

/-! ## Lines -/

/-- A line without the carriage return at its end, if there is one. -/
def withoutReturn (line : List Char) : List Char :=
  if line.getLast? = some '\r' then line.dropLast else line

theorem withoutReturn_concat (line : List Char) : withoutReturn (line ++ ['\r']) = line := by
  simp [withoutReturn]

theorem withoutReturn_of_ne {line : List Char} (h : line.getLast? ≠ some '\r') :
    withoutReturn line = line :=
  if_neg h

theorem withoutReturn_subset (line : List Char) : withoutReturn line ⊆ line := by
  rw [withoutReturn]
  split
  · exact List.dropLast_subset line
  · exact List.Subset.refl line

theorem ended_of_ne {b : UInt8} (h : b ≠ 13) (rest : List UInt8) :
    ended (b :: rest) = (b :: rest).reverse :=
  if_neg h

theorem ended_encode (line : List Char) :
    ended (line.flatMap String.utf8EncodeChar).reverse =
      (withoutReturn line).flatMap String.utf8EncodeChar := by
  obtain rfl | ⟨init, c, rfl⟩ := List.eq_nil_or_concat line
  · rfl
  rw [List.concat_eq_append, List.flatMap_append, List.flatMap_singleton, List.reverse_append]
  by_cases hc : c = '\r'
  · subst hc
    have hreturn : (String.utf8EncodeChar '\r').reverse = [13] := rfl
    rw [withoutReturn_concat, hreturn, List.singleton_append, ended, if_pos rfl,
      List.reverse_reverse]
  · have hlast : (init ++ [c]).getLast? ≠ some '\r' := by simpa using hc
    have hmem : 13 ∉ String.utf8EncodeChar c := fun hmem =>
      hc (Char.toNat_inj.mp ((mem_utf8EncodeChar_iff (by decide) c).mp hmem))
    obtain ⟨b, rest, hbytes⟩ := List.exists_cons_of_ne_nil
      (List.reverse_ne_nil_iff.mpr (String.utf8EncodeChar_ne_nil (c := c)))
    have hb : b ≠ 13 := by
      rintro rfl
      exact hmem (List.mem_reverse.mp (hbytes ▸ List.mem_cons_self))
    rw [withoutReturn_of_ne hlast, hbytes, List.cons_append, ended_of_ne hb, ← List.cons_append,
      ← hbytes, List.reverse_append, List.reverse_reverse, List.reverse_reverse,
      List.flatMap_append, List.flatMap_singleton]

/-- What is read up to a line feed makes one line. -/
theorem linesOnto_line {line : List UInt8} (h : 10 ∉ line) (done : List (List UInt8))
    (before rest : List UInt8) :
    linesOnto done before (line ++ 10 :: rest) =
      linesOnto (ended (line.reverse ++ before) :: done) [] rest := by
  induction line generalizing before with
  | nil => rfl
  | cons b line ih =>
    rw [List.mem_cons, not_or] at h
    rw [List.cons_append, linesOnto, if_neg (Ne.symm h.1), ih h.2, List.reverse_cons,
      List.append_assoc]
    rfl

theorem linesOnto_done (done : List (List UInt8)) (line rest : List UInt8) :
    linesOnto done line rest = done.reverse ++ linesOnto [] line rest := by
  induction rest generalizing done line with
  | nil => cases line <;> simp [linesOnto]
  | cons b rest ih =>
    rw [linesOnto, linesOnto]
    split
    · rw [ih, ih [_], List.reverse_cons, List.append_assoc]
      rfl
    · exact ih _ _

theorem lines_encode_nil : lines (encode (String.ofList [])) = [] := by
  rw [encode, toUTF8_ofList]
  rfl

/-- The first line of a text, and the lines of what follows it. -/
theorem lines_encode {line : List Char} (h : '\n' ∉ line) (rest : List Char) :
    lines (encode (String.ofList (line ++ '\n' :: rest))) =
      encode (String.ofList (withoutReturn line)) :: lines (encode (String.ofList rest)) := by
  have hline : 10 ∉ line.flatMap String.utf8EncodeChar := mt (lineFeed_mem_iff line).mp h
  have hfeed : String.utf8EncodeChar '\n' = [10] := rfl
  simp only [encode, toUTF8_ofList, lines]
  rw [List.flatMap_append, List.flatMap_cons, hfeed, List.singleton_append, linesOnto_line hline,
    linesOnto_done, List.append_nil, ended_encode]
  rfl

end ScriptFeatures.Text
