import ScriptFeatures.Proofs.Nesting.Interchange
import ScriptFeatures.Proofs.Text.Lines
import ScriptFeatures.Script.Lexer

/-! Names of scripts as words of a scan. A scan takes bytes for a word where a script has the
characters of a name, and the backslash among them so that escapes belong to the word. The braces of
an escape such as `\u{61}` are no word bytes, so a scan sees a name as a script does when it is
written without them (`Name.holds`). -/

namespace ScriptFeatures.Nesting

open Text

/-- The bytes of a text. -/
def utf8 (text : List Char) : List UInt8 :=
  text.flatMap String.utf8EncodeChar

theorem utf8_cons (c : Char) (text : List Char) :
    utf8 (c :: text) = String.utf8EncodeChar c ++ utf8 text :=
  List.flatMap_cons

theorem utf8_append (x y : List Char) : utf8 (x ++ y) = utf8 x ++ utf8 y :=
  List.flatMap_append

/-- A name that counts for nothing: the reader of scripts takes all of its text as one word, and the
text is none of the words that are counted. -/
structure Name where
  text : List Char
  read : ∃ word escaped,
    Script.readWord (text.length + 1) [] false text = some (word, escaped, [])
  plain : WordClass.of (String.ofList text) = .plain

namespace Name

def bytes (n : Name) : List UInt8 :=
  utf8 n.text

/-- Whether the name is written without braces, which only escapes have. -/
def Unbraced (n : Name) : Prop :=
  '\x7b' ∉ n.text

instance (n : Name) : Decidable n.Unbraced :=
  inferInstanceAs (Decidable ('\x7b' ∉ n.text))

end Name

/-! ## Characters of names -/

theorem isWordByte_of_le {b : UInt8} (hb : 0x80 ≤ b) : isWordByte b = true := by
  rw [isWordByte, decide_eq_true hb, Bool.or_true]

theorem isWordStart_of_le {b : UInt8} (hb : 0x80 ≤ b) : isWordStart b = true := by
  have hdigit : isDigitByte b = false := by
    have hlarge : ¬b ≤ 0x39 := UInt8.not_le.mpr (UInt8.lt_of_lt_of_le (by decide) hb)
    rw [isDigitByte, decide_eq_false hlarge, Bool.and_false]
  rw [isWordStart, isWordByte_of_le hb, hdigit]
  rfl

/-- What a test of characters says of the bytes, when it does so up to the last ASCII character. -/
theorem forall_mem_utf8EncodeChar {charTest : Char → Bool} {test : UInt8 → Bool}
    (hlarge : ∀ b, 0x80 ≤ b → test b = true)
    (hsmall : ∀ n < 0x80, charTest (.ofNat n) = true → test (.ofNat n) = true) {c : Char}
    (hc : charTest c = true) : ∀ b ∈ String.utf8EncodeChar c, test b = true := by
  intro b hb
  by_cases hascii : c.toNat < 0x80
  · rw [utf8EncodeChar_ascii hascii, List.mem_singleton] at hb
    rw [hb]
    exact hsmall c.toNat hascii (by rwa [Char.ofNat_toNat])
  · exact hlarge b (le_of_mem_utf8EncodeChar (Nat.not_lt.mp hascii) hb)

theorem isWordByte_of_isIdentifierPart {c : Char} :
    isIdentifierPart c = true → ∀ b ∈ String.utf8EncodeChar c, isWordByte b = true :=
  forall_mem_utf8EncodeChar (fun _ => isWordByte_of_le) (by decide)

theorem isWordStart_of_isIdentifierStart {c : Char} :
    isIdentifierStart c = true → ∀ b ∈ String.utf8EncodeChar c, isWordStart b = true :=
  forall_mem_utf8EncodeChar (fun _ => isWordStart_of_le) (by decide)

theorem isWordByte_of_isHexDigit {c : Char} :
    Script.isHexDigit c = true → ∀ b ∈ String.utf8EncodeChar c, isWordByte b = true :=
  forall_mem_utf8EncodeChar (fun _ => isWordByte_of_le) (by decide)

theorem isWordByte_of_extendsWord {read : List Char} {c : Char}
    (hc : Script.extendsWord read c = true) :
    ∀ b ∈ String.utf8EncodeChar c, isWordByte b = true := by
  rw [Script.extendsWord] at hc
  split at hc
  · exact fun b hb => isWordByte_of_isWordStart (isWordStart_of_isIdentifierStart hc b hb)
  · exact isWordByte_of_isIdentifierPart hc

/-! ## The bytes of a word -/

/-- An escape without braces is four digits. -/
theorem readUnicodeEscape_eq_some {text rest : List Char} {code : Nat}
    (h : Script.readUnicodeEscape text = some (code, rest)) (hbrace : '\x7b' ∉ text) :
    ∃ digits, text = digits ++ rest ∧ ∀ c ∈ digits, Script.isHexDigit c = true := by
  unfold Script.readUnicodeEscape at h
  split at h
  · exact absurd List.mem_cons_self hbrace
  · rename_i a b c d rest' _
    split at h
    · rename_i hdigits
      obtain ⟨-, rfl⟩ := Prod.mk.inj (Option.some.inj h)
      simp only [Bool.and_eq_true] at hdigits
      obtain ⟨⟨⟨ha, hb⟩, hc⟩, hd⟩ := hdigits
      refine ⟨[a, b, c, d], rfl, ?_⟩
      simp only [List.forall_mem_cons, List.not_mem_nil, false_implies, implies_true, and_true]
      exact ⟨ha, hb, hc, hd⟩
    · cases h
  · cases h

/-- All bytes of what is read as a word without braces are word bytes. -/
theorem isWordByte_of_readWord {fuel : Nat} {read text : List Char} {escaped escaped' : Bool}
    {word : String} (h : Script.readWord fuel read escaped text = some (word, escaped', []))
    (hbrace : '\x7b' ∉ text) : ∀ b ∈ utf8 text, isWordByte b = true := by
  fun_induction Script.readWord fuel read escaped text with
  -- Nothing is read, or a character is left.
  | case1 | case3 | case4 | case5 | case7 | case8 | case9 => simp at h
  -- An escape is a backslash, a letter and digits, and all of these are word bytes.
  | case2 fuel read escaped rest code left hescape hextends ih =>
    rw [List.mem_cons, List.mem_cons, not_or, not_or] at hbrace
    obtain ⟨digits, rfl, hdigits⟩ := readUnicodeEscape_eq_some hescape hbrace.2.2
    have hleft := ih h (mt (List.mem_append_right digits) hbrace.2.2)
    rw [utf8_cons, utf8_cons, utf8_append]
    simp only [List.forall_mem_append]
    have hslash : ∀ b ∈ String.utf8EncodeChar '\\', isWordByte b = true :=
      List.all_eq_true.mp (by decide)
    have hletter : ∀ b ∈ String.utf8EncodeChar 'u', isWordByte b = true :=
      List.all_eq_true.mp (by decide)
    refine ⟨hslash, hletter, fun b hb => ?_, hleft⟩
    obtain ⟨d, hd, hb⟩ := List.mem_flatMap.mp hb
    exact isWordByte_of_isHexDigit (hdigits d hd) b hb
  | case6 fuel read escaped c rest hslash hextends ih =>
    rw [utf8_cons, List.forall_mem_append]
    exact ⟨isWordByte_of_extendsWord hextends, ih h (mt (List.mem_cons_of_mem c) hbrace)⟩
  | case10 => exact fun b hb => absurd hb List.not_mem_nil

theorem exists_utf8EncodeChar_eq_cons (c : Char) :
    ∃ b rest, String.utf8EncodeChar c = b :: rest := by
  refine List.exists_cons_of_length_pos ?_
  rw [String.length_utf8EncodeChar]
  exact c.utf8Size_pos

/-- What is read as a word begins with a byte that begins a word. -/
theorem exists_isWordStart_of_readWord {fuel : Nat} {text : List Char} {escaped : Bool}
    {r : String × Bool × List Char} (h : Script.readWord fuel [] escaped text = some r) :
    ∃ b rest, utf8 text = b :: rest ∧ isWordStart b = true := by
  obtain ⟨c, rest, rfl, hc⟩ : ∃ c rest, text = c :: rest ∧
      ∀ b ∈ String.utf8EncodeChar c, isWordStart b = true := by
    cases fuel with
    | zero => cases h
    | succ fuel =>
      cases text with
      | nil => cases h
      | cons c rest =>
        refine ⟨c, rest, rfl, ?_⟩
        by_cases hslash : c = '\\'
        · subst hslash
          exact List.all_eq_true.mp (by decide)
        · rw [Script.readWord] at h
          split at h
          · rename_i hextends
            exact isWordStart_of_isIdentifierStart hextends
          · cases h
          · exact hslash
  obtain ⟨b, more, hb⟩ := exists_utf8EncodeChar_eq_cons c
  rw [hb] at hc
  refine ⟨b, more ++ utf8 rest, ?_, hc b List.mem_cons_self⟩
  rw [utf8_cons, hb, List.cons_append]

/-! ## The class of a word -/

/-- No word that is counted has a character beyond ASCII. -/
theorem class_of_mem {word : String} {c : Char} (hmem : c ∈ word.toList) (hc : 0x80 ≤ c.toNat) :
    WordClass.of word = .plain := by
  have hne (w : String) (hw : w.toList.all fun c => c.toNat < 0x80) : ¬word = w := by
    rintro rfl
    exact absurd (List.all_iff_forall_prop.mp hw c hmem) (Nat.not_lt.mpr hc)
  rw [WordClass.of]
  all_goals exact hne _ (by decide)

/-- The bytes of an ASCII text stand for its characters. -/
theorem textOf_utf8 {text : List Char} (hascii : ∀ c ∈ text, c.toNat < 0x80) :
    textOf (utf8 text) = String.ofList text := by
  rw [textOf]
  congr 1
  induction text with
  | nil => rfl
  | cons c text ih =>
    rw [List.forall_mem_cons] at hascii
    rw [utf8_cons, List.map_append, ih hascii.2, utf8EncodeChar_ascii hascii.1,
      List.map_singleton, UInt8.toNat_ofNat_of_lt' (Nat.lt_trans hascii.1 (by decide)),
      Char.ofNat_toNat, List.singleton_append]

/-- A word is of the class of its bytes. -/
theorem class_textOf (text : List Char) :
    WordClass.of (textOf (utf8 text)) = WordClass.of (String.ofList text) := by
  by_cases hascii : ∀ c ∈ text, c.toNat < 0x80
  · rw [textOf_utf8 hascii]
  · simp only [not_forall, Nat.not_lt] at hascii
    obtain ⟨c, hmem, hc⟩ := hascii
    obtain ⟨b, more, hb⟩ := exists_utf8EncodeChar_eq_cons c
    have hbmem : b ∈ String.utf8EncodeChar c := hb ▸ List.mem_cons_self
    have hlarge : 0x80 ≤ (Char.ofNat b.toNat).toNat := by
      rw [toNat_ofNat_toNat]
      exact UInt8.le_iff_toNat_le.mp (le_of_mem_utf8EncodeChar hc hbmem)
    have hin : Char.ofNat b.toNat ∈ (textOf (utf8 text)).toList := by
      rw [textOf, String.toList_ofList]
      exact List.mem_map_of_mem (List.mem_flatMap.mpr ⟨c, hmem, hbmem⟩)
    have hword : c ∈ (String.ofList text).toList := by
      rwa [String.toList_ofList]
    rw [class_of_mem hin hlarge, class_of_mem hword hc]

/-- A name without braces is a word of a scan. -/
theorem Name.holds {n : Name} (h : n.Unbraced) {after : List UInt8}
    (hafter : after.takeWhile isWordByte = []) : Kind.word.Holds after n.bytes := by
  obtain ⟨word, escaped, hread⟩ := n.read
  obtain ⟨b, rest, hbytes, hb⟩ := exists_isWordStart_of_readWord hread
  have hall := isWordByte_of_readWord hread h
  rw [hbytes, List.forall_mem_cons] at hall
  refine ⟨b, rest, hbytes, hb, hall.2, ?_⟩
  rw [hafter, List.append_nil, ← hbytes, class_textOf, n.plain]

end ScriptFeatures.Nesting
