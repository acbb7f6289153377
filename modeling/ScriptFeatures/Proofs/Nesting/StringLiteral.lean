import ScriptFeatures.Nesting.Estimate
import ScriptFeatures.Proofs.Nesting.Literal
import ScriptFeatures.Proofs.Text.Lines
import ScriptFeatures.Script.Character

/-! String literals in a scan. A literal holds characters, escapes and line continuations; the scan
sees its bytes, and a backslash hides one byte of what follows it. The bytes behind the first byte
of a character are no quote, backslash or line break, so it does no harm that they are not hidden,
and the scan ends behind the closing quote. The one exception is a continuation by a carriage return
and a line feed: only the carriage return is hidden, and the scan takes the line feed for the end of
the literal. -/

namespace ScriptFeatures.Nesting

/-! ## Literals -/

def Quote.char : Quote → Char
  | single => '\''
  | double => '"'

/-- How a line can end. -/
inductive LineEnd
  | lineFeed
  | carriageReturn
  | carriageReturnLineFeed
  | lineSeparator
  | paragraphSeparator

def LineEnd.text : LineEnd → List Char
  | lineFeed => ['\n']
  | carriageReturn => ['\r']
  | carriageReturnLineFeed => ['\r', '\n']
  | lineSeparator => ['\u2028']
  | paragraphSeparator => ['\u2029']

/-- A part of a string literal: a character that stands for itself, the backslash of an escape with
the character behind it, or a line continuation. More characters of an escape, such as hexadecimal
digits, are parts of their own. -/
inductive StringPart (q : Quote)
  | plain (c : Char) (hquote : c ≠ q.char) (hslash : c ≠ '\\') (hfeed : c ≠ '\n')
      (hreturn : c ≠ '\r')
  | escape (c : Char) (hc : Script.isLineBreak c = false)
  | continuation (e : LineEnd)

namespace StringPart

variable {q : Quote}

def text : StringPart q → List Char
  | plain c _ _ _ _ => [c]
  | escape c _ => ['\\', c]
  | continuation e => '\\' :: e.text

/-- The bytes of parts in order. -/
def bytes (parts : List (StringPart q)) : List UInt8 :=
  (parts.flatMap text).flatMap String.utf8EncodeChar

end StringPart

/-- The bytes of a literal. -/
def literalBytes {q : Quote} (parts : List (StringPart q)) : List UInt8 :=
  q.byte :: (StringPart.bytes parts ++ [q.byte])

/-! ## The bytes of a part -/

section

variable {c : Char} {q : Quote} {b : UInt8}

theorem ne_of_mem_utf8EncodeChar {k : Char} (hk : k.toNat < 0x80) (hc : c ≠ k)
    (hb : b ∈ String.utf8EncodeChar c) : b ≠ UInt8.ofNat k.toNat := by
  rintro rfl
  have hbyte : (UInt8.ofNat k.toNat).toNat = k.toNat :=
    UInt8.toNat_ofNat_of_lt' (Nat.lt_trans hk (by decide))
  have hlow : UInt8.ofNat k.toNat < 0x80 := by
    rw [UInt8.lt_iff_toNat_lt, hbyte]
    exact hk
  have hnat := (Text.mem_utf8EncodeChar_iff hlow c).mp hb
  rw [hbyte] at hnat
  exact hc (Char.toNat_inj.mp hnat)

theorem stringText_utf8EncodeChar (hquote : c ≠ q.char) (hslash : c ≠ '\\') (hfeed : c ≠ '\n')
    (hreturn : c ≠ '\r') : StringText q.byte (String.utf8EncodeChar c) := by
  refine .of_forall fun b hb => ?_
  have hbreak : isBreakByte b = false := by
    have hlineFeed : b ≠ 0x0A := ne_of_mem_utf8EncodeChar (by decide) hfeed hb
    have hcarriageReturn : b ≠ 0x0D := ne_of_mem_utf8EncodeChar (by decide) hreturn hb
    rw [isBreakByte, beq_false_of_ne hlineFeed, beq_false_of_ne hcarriageReturn, Bool.or_false]
  have hquoteByte : b ≠ q.byte := by
    cases q with
    | single => exact ne_of_mem_utf8EncodeChar (k := '\'') (by decide) hquote hb
    | double => exact ne_of_mem_utf8EncodeChar (k := '"') (by decide) hquote hb
  exact ⟨ne_of_mem_utf8EncodeChar (by decide) hslash hb, hquoteByte, hbreak⟩

/-- A backslash hides the first byte of a character, and the others need not be hidden. -/
theorem stringText_escape (quote : Quote) (c : Char) :
    StringText quote.byte (0x5C :: String.utf8EncodeChar c) := by
  by_cases hc : c.toNat < 0x80
  · rw [Text.utf8EncodeChar_ascii hc]
    exact .hidden _ .nil
  · have hbytes : ∀ b ∈ String.utf8EncodeChar c,
        b ≠ 0x5C ∧ b ≠ quote.byte ∧ isBreakByte b = false := by
      intro b hb
      have hlarge := Text.le_of_mem_utf8EncodeChar (Nat.not_lt.mp hc) hb
      have hne (k : UInt8) (hk : k < 0x80) : b ≠ k := by
        rintro rfl
        exact absurd hk (UInt8.not_lt.mpr hlarge)
      have hquote : quote.byte < 0x80 := by cases quote <;> decide
      refine ⟨hne _ (by decide), hne _ hquote, ?_⟩
      rw [isBreakByte, beq_false_of_ne (hne 0x0A (by decide)),
        beq_false_of_ne (hne 0x0D (by decide)), Bool.or_false]
    cases hencoded : String.utf8EncodeChar c with
    | nil => exact absurd hencoded (String.utf8EncodeChar_ne_nil)
    | cons b others =>
      rw [hencoded, List.forall_mem_cons] at hbytes
      exact .hidden b (.of_forall hbytes.2)

end

namespace StringPart

variable {q : Quote}

theorem bytes_cons (part : StringPart q) (parts : List (StringPart q)) :
    bytes (part :: parts) = part.text.flatMap String.utf8EncodeChar ++ bytes parts := by
  rw [bytes, List.flatMap_cons, List.flatMap_append, bytes]

theorem bytes_append (front back : List (StringPart q)) :
    bytes (front ++ back) = bytes front ++ bytes back := by
  rw [bytes, List.flatMap_append, List.flatMap_append, bytes, bytes]

/-- The continuation of which a backslash hides only one half. -/
def pair : StringPart q :=
  .continuation .carriageReturnLineFeed

theorem stringText (part : StringPart q) (h : part ≠ pair) :
    StringText q.byte (part.text.flatMap String.utf8EncodeChar) := by
  cases part with
  | plain c hquote hslash hfeed hreturn =>
    rw [text, List.flatMap_singleton]
    exact stringText_utf8EncodeChar hquote hslash hfeed hreturn
  | escape c =>
    rw [text, List.flatMap_cons, List.flatMap_singleton]
    exact stringText_escape q c
  | continuation e =>
    cases e with
    | lineFeed | carriageReturn | lineSeparator | paragraphSeparator =>
      rw [text, LineEnd.text, List.flatMap_cons, List.flatMap_singleton]
      exact stringText_escape q _
    | carriageReturnLineFeed => exact absurd rfl h

theorem skipString_bytes {parts : List (StringPart q)} (h : pair ∉ parts) (rest : List UInt8) :
    skipString q.byte (bytes parts ++ rest) = skipString q.byte rest := by
  induction parts with
  | nil => rfl
  | cons part parts ih =>
    rw [List.mem_cons, not_or] at h
    rw [bytes_cons, List.append_assoc, (part.stringText (Ne.symm h.1)).skipString_append, ih h.2]

theorem skipString_pair (back : List (StringPart q)) (rest : List UInt8) :
    skipString q.byte (bytes (pair :: back) ++ rest) = 0x0A :: (bytes back ++ rest) := by
  cases q <;> rfl

end StringPart

open StringPart (bytes pair)

/-! ## Where a literal ends -/

/-- A scan inside a literal ends behind the closing quote if and only if no line of the literal is
continued by a carriage return and a line feed; then the literal is one token, whatever follows it.
Else it ends before the line feed of the first such continuation, and what comes after that in the
literal is scanned as if it were code. -/
theorem skipString_literal {q : Quote} (parts : List (StringPart q)) (rest : List UInt8) :
    (skipString q.byte (bytes parts ++ q.byte :: rest) = rest ↔ pair ∉ parts) ∧
    (pair ∉ parts → ∀ s : Scan, s.step (literalBytes parts ++ rest) =
      some ({ s.startOperand.expecting .operator with newline := false }, rest)) ∧
    ∀ front back, parts = front ++ pair :: back → pair ∉ front →
      skipString q.byte (bytes parts ++ q.byte :: rest) =
        0x0A :: (bytes back ++ q.byte :: rest) := by
  have hwhole (h : pair ∉ parts) :
      skipString q.byte (bytes parts ++ q.byte :: rest) = rest := by
    rw [StringPart.skipString_bytes h, skipString_quote]
  have hbroken (front back : List (StringPart q)) (hparts : parts = front ++ pair :: back)
      (hfront : pair ∉ front) : skipString q.byte (bytes parts ++ q.byte :: rest) =
        0x0A :: (bytes back ++ q.byte :: rest) := by
    rw [hparts, StringPart.bytes_append, List.append_assoc, StringPart.skipString_bytes hfront,
      StringPart.skipString_pair]
  refine ⟨⟨fun hend hmem => ?_, hwhole⟩, fun h s => ?_, hbroken⟩
  · obtain ⟨front, back, hparts, hfront⟩ := List.eq_append_cons_of_mem hmem
    rw [hbroken front back hparts hfront] at hend
    have hlength := congrArg List.length hend
    rw [List.length_cons, List.length_append, List.length_cons] at hlength
    omega
  · have hend := hwhole h
    have htext : literalBytes parts ++ rest = q.byte :: (bytes parts ++ q.byte :: rest) := by
      rw [literalBytes, List.cons_append, List.append_assoc, List.singleton_append]
    have hstep : s.step (q.byte :: (bytes parts ++ q.byte :: rest)) =
        some ({ s.startOperand.expecting .operator with newline := false },
          skipString q.byte (bytes parts ++ q.byte :: rest)) := by
      cases q <;> rfl
    rw [htext, hstep, hend]

def StringPart.letter : StringPart .double :=
  .plain 'a' (by decide) (by decide) (by decide) (by decide)

def StringPart.bracket : StringPart .double :=
  .plain '(' (by decide) (by decide) (by decide) (by decide)

/-- In a literal of a letter, a continued line and a bracket it depends on the line break whether
the bracket is hidden. -/
theorem skipString_literal_continued :
    skipString 0x22 (bytes [.letter, .continuation .carriageReturn, .bracket] ++ 0x22 :: [0x3B]) =
      [0x3B] ∧
    skipString 0x22 (bytes [.letter, pair, .bracket] ++ 0x22 :: [0x3B]) =
      0x0A :: (bytes [StringPart.bracket] ++ 0x22 :: [0x3B]) := by
  have hwhole := skipString_literal [.letter, .continuation .carriageReturn, .bracket] [0x3B]
  have hbroken := skipString_literal [.letter, pair, .bracket] [0x3B]
  exact ⟨hwhole.1.mpr (by simp [StringPart.letter, StringPart.bracket, pair]),
    hbroken.2.2 [.letter] [.bracket] rfl (by simp [StringPart.letter, pair])⟩

/-- Not every literal is passed over whole. In the shortest one that is not, a line feed is left of
the continuation, and the closing quote begins another literal. -/
theorem not_skipString_literal :
    ¬∀ (q : Quote) (parts : List (StringPart q)) (rest : List UInt8),
      skipString q.byte (bytes parts ++ q.byte :: rest) = rest := by
  intro hall
  exact absurd (hall .double [pair] []) (by decide)

end ScriptFeatures.Nesting
