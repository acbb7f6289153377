import ScriptFeatures.Json.Document
import ScriptFeatures.Json.Numeral
import ScriptFeatures.Json.Quoted
import ScriptFeatures.Json.Read

/-! The grammar of JSON, as the trees that its texts stand for. A `Form` keeps how each number and
each text is written, whether or not there is a number or a text that it writes; so every tree is a
well-formed value, of any depth.

* `Form.tokens` are the tokens of a form in order; `Spaced` says that a text is these tokens with
  any blanks around them.
* `Form.value` is what reading makes of a form, with a bound on its depth. It depends on nothing but
  the depth, the numbers and the texts of the form (`Form.succeedsIff_value`). -/

namespace ScriptFeatures.Json

/-! ## Numbers -/

/-- A digit as it is written. -/
def digit (d : Fin 10) : Char :=
  Char.ofNat (48 + d)

/-- Digits, at least one. -/
structure Digits where
  first : Fin 10
  later : List (Fin 10)

namespace Digits

/-- All digits in order. -/
def toList (ds : Digits) : List (Fin 10) :=
  ds.first :: ds.later

/-- The digits as they are written. -/
def chars (ds : Digits) : List Char :=
  ds.toList.map digit

/-- The digits by value. -/
def values (ds : Digits) : List Nat :=
  ds.toList.map Fin.val

end Digits

/-- An exponent: its letter, its sign if it has one, and its digits. -/
structure Exponent where
  capital : Bool
  sign : Option Bool
  digits : Digits

namespace Exponent

/-- The sign as it is written; `true` is a minus. -/
def signChars : Option Bool → List Char
  | none => []
  | some true => ['-']
  | some false => ['+']

/-- The exponent as it is written. -/
def chars (e : Exponent) : List Char :=
  (if e.capital then 'E' else 'e') :: (signChars e.sign ++ e.digits.chars)

end Exponent

/-- A number as it is written. What stands before the point starts with a zero only if it is one. -/
structure Literal where
  negative : Bool
  whole : Digits
  unpadded : whole.first = 0 → whole.later = []
  fraction : Option Digits
  exponent : Option Exponent

namespace Literal

/-- The fraction with its point, if there is one. -/
def fractionChars (l : Literal) : List Char :=
  l.fraction.elim [] fun ds => '.' :: ds.chars

/-- The exponent, if there is one. -/
def exponentChars (l : Literal) : List Char :=
  l.exponent.elim [] Exponent.chars

/-- The number as it is written. -/
def chars (l : Literal) : List Char :=
  (if l.negative then ['-'] else []) ++ (l.whole.chars ++ (l.fractionChars ++ l.exponentChars))

/-- The parts of the number by value. -/
def numeral (l : Literal) : Numeral where
  negative := l.negative
  whole := l.whole.values
  fraction := l.fraction.elim [] Digits.values
  exponent := l.exponent.map fun e => (e.sign == some true, ofDigits e.digits.values)

end Literal

/-! ## Texts -/

/-- A hexadecimal digit; letters are small or capital. -/
structure HexDigit where
  value : Fin 16
  capital : Bool

/-- The digit as it is written. -/
def HexDigit.char (d : HexDigit) : Char :=
  if d.value.val < 10 then Char.ofNat (48 + d.value)
  else Char.ofNat ((if d.capital then 55 else 87) + d.value)

/-- The letters after a backslash with the characters they stand for. -/
def shortEscapes : List (Char × Char) :=
  [('"', '"'), ('\\', '\\'), ('/', '/'), ('b', '\x08'), ('f', '\x0c'), ('n', '\n'), ('r', '\r'),
    ('t', '\t')]

/-- What stands between quotes for one character, or for half of one. -/
inductive Mark
  | plain (c : Char) (quote : c ≠ '"') (backslash : c ≠ '\\') (visible : ¬c.toNat < 32)
  | short (letter c : Char) (known : (letter, c) ∈ shortEscapes)
  | unit (a b c d : HexDigit)

namespace Mark

/-- The mark as it is written. -/
def chars : Mark → List Char
  | .plain c .. => [c]
  | .short letter .. => ['\\', letter]
  | .unit a b c d => ['\\', 'u', a.char, b.char, c.char, d.char]

/-- The number that four hexadecimal digits write. -/
def number (a b c d : HexDigit) : Nat :=
  ((a.value * 16 + b.value) * 16 + c.value) * 16 + d.value

/-- The characters that marks stand for, if no half of a character stands alone. -/
def characters? : List Mark → Option (List Char)
  | [] => some []
  | .plain c .. :: rest => (characters? rest).map (c :: ·)
  | .short _ c _ :: rest => (characters? rest).map (c :: ·)
  | .unit a b c d :: rest =>
    if isTrailing (number a b c d) then none
    else if isLeading (number a b c d) then
      match rest with
      | .unit a' b' c' d' :: rest =>
        if isTrailing (number a' b' c' d') then
          (characters? rest).map (joined (number a b c d) (number a' b' c' d') :: ·)
        else none
      | _ => none
    else (characters? rest).map (Char.ofNat (number a b c d) :: ·)

/-- The mark of a character: itself where it may stand between quotes, else its number. -/
def ofChar (c : Char) : Mark :=
  if h : c ≠ '"' ∧ c ≠ '\\' ∧ ¬c.toNat < 32 then .plain c h.1 h.2.1 h.2.2
  else .unit ⟨0, false⟩ ⟨0, false⟩ ⟨Fin.ofNat 16 (c.toNat / 16), false⟩
    ⟨Fin.ofNat 16 c.toNat, false⟩

theorem characters?_ofChar (c : Char) (rest : List Mark) :
    characters? (ofChar c :: rest) = (characters? rest).map (c :: ·) := by
  rw [ofChar]
  split
  · rw [characters?]
  · next h =>
    have hsmall : c.toNat < 128 := by
      have hquote : '"'.toNat = 34 := rfl
      have hbackslash : '\\'.toNat = 92 := rfl
      by_cases hq : c = '"'
      · rw [hq]; omega
      by_cases hb : c = '\\'
      · rw [hb]; omega
      have hcontrol : c.toNat < 32 :=
        Nat.lt_of_not_le fun hle => h ⟨hq, hb, Nat.not_lt.mpr hle⟩
      omega
    have hnumber : number ⟨0, false⟩ ⟨0, false⟩ ⟨Fin.ofNat 16 (c.toNat / 16), false⟩
        ⟨Fin.ofNat 16 c.toNat, false⟩ = c.toNat := by
      simp only [number, Fin.val_ofNat, Fin.val_zero]
      omega
    have htrailing : ¬isTrailing c.toNat = true := by
      simp only [isTrailing, Bool.and_eq_true, decide_eq_true_eq]
      omega
    have hleading : ¬isLeading c.toNat = true := by
      simp only [isLeading, Bool.and_eq_true, decide_eq_true_eq]
      omega
    rw [characters?.eq_def]
    dsimp only
    rw [hnumber, if_neg htrailing, if_neg hleading, Char.ofNat_toNat]

theorem characters?_map_ofChar (cs : List Char) : characters? (cs.map ofChar) = some cs := by
  induction cs with
  | nil => rfl
  | cons c cs ih => rw [List.map_cons, characters?_ofChar, ih, Option.map_some]

end Mark

/-- A text as it is written between its quotes. -/
abbrev Marks : Type :=
  List Mark

namespace Marks

/-- The text with its quotes. -/
def chars (marks : Marks) : List Char :=
  '"' :: (marks.flatMap Mark.chars ++ ['"'])

/-- The text that is written, if there is one. -/
def string? (marks : Marks) : Option String :=
  (Mark.characters? marks).map String.ofList

/-- A text with one mark for each character. -/
def ofString (s : String) : Marks :=
  s.toList.map Mark.ofChar

theorem string?_ofString (s : String) : (ofString s).string? = some s := by
  rw [string?, ofString, Mark.characters?_map_ofChar, Option.map_some, String.ofList_toList]

end Marks

/-! ## Values -/

/-- A value that is no container, as it is written. -/
inductive Atom
  | null
  | boolean (b : Bool)
  | number (l : Literal)
  | text (marks : Marks)

/-- The value as it is written. -/
def Atom.chars : Atom → List Char
  | .null => ['n', 'u', 'l', 'l']
  | .boolean true => ['t', 'r', 'u', 'e']
  | .boolean false => ['f', 'a', 'l', 's', 'e']
  | .number l => l.chars
  | .text marks => marks.chars

/-- A value as it is written, blanks apart. -/
inductive Form
  | atom (a : Atom)
  | array (items : List Form)
  | object (members : List (Marks × Form))

namespace Form

mutual

/-- The tokens of a form. -/
def tokens : Form → List (List Char)
  | .atom a => [a.chars]
  | .array [] => [['['], [']']]
  | .array (f :: fs) => ['['] :: (f.tokens ++ itemTokens fs)
  | .object [] => [['{'], ['}']]
  | .object ((name, f) :: ms) =>
    ['{'] :: name.chars :: [':'] :: (f.tokens ++ memberTokens ms)

/-- The tokens from the second item of an array on. -/
def itemTokens : List Form → List (List Char)
  | [] => [[']']]
  | f :: fs => [','] :: (f.tokens ++ itemTokens fs)

/-- The tokens from the second member of an object on. -/
def memberTokens : List (Marks × Form) → List (List Char)
  | [] => [['}']]
  | (name, f) :: ms => [','] :: name.chars :: [':'] :: (f.tokens ++ memberTokens ms)

end

end Form

/-- A text that consists of tokens with any blanks before, between and after them. -/
def Spaced : List (List Char) → List Char → Prop
  | [], cs => cs.all isBlank = true
  | t :: ts, cs =>
    ∃ blanks rest, cs = blanks ++ (t ++ rest) ∧ blanks.all isBlank = true ∧ Spaced ts rest

/-! ## What a form is read as -/

/-- The value of what has one; anything else is malformed. -/
def orMalformed : Option α → Except Fault α
  | some a => .ok a
  | none => .error .malformed

@[simp]
theorem orMalformed_some (a : α) : orMalformed (some a) = .ok a := rfl

@[simp]
theorem orMalformed_none : orMalformed (none : Option α) = .error .malformed := rfl

theorem orMalformed_eq_ok_iff {o : Option α} {a : α} : orMalformed o = .ok a ↔ o = some a := by
  cases o <;> simp

/-- The binary64 number that a literal is read as, unless it is too large. -/
def Literal.number? (l : Literal) : Option Number :=
  l.numeral.number?

/-- What an atom is read as. -/
def Atom.value : Atom → Except Fault Value
  | .null => .ok .null
  | .boolean b => .ok (.boolean b)
  | .number l => (orMalformed l.number?).map .number
  | .text marks => (orMalformed marks.string?).map .text

namespace Form

mutual

/-- What a form is read as by a reader that opens at most `depth` containers at once. -/
def value : Form → Nat → Except Fault Value
  | .atom a, _ => a.value
  | .array _, 0 => .error .malformed
  | .array items, depth + 1 => (itemValues items depth).map .array
  | .object _, 0 => .error .malformed
  | .object members, depth + 1 => (memberValues members depth).map .object

/-- What forms are read as one after the other. -/
def itemValues : List Form → Nat → Except Fault (List Value)
  | [], _ => .ok []
  | f :: fs, depth => do
    let v ← f.value depth
    let vs ← itemValues fs depth
    return v :: vs

/-- What members are read as one after the other. -/
def memberValues : List (Marks × Form) → Nat → Except Fault (List (String × Value))
  | [], _ => .ok []
  | (name, f) :: ms, depth => do
    let name ← orMalformed name.string?
    let v ← f.value depth
    let rest ← memberValues ms depth
    return (name, v) :: rest

end

mutual

/-- How many containers are open at once in a form. -/
def height : Form → Nat
  | .atom _ => 0
  | .array items => itemHeight items + 1
  | .object members => memberHeight members + 1

/-- The largest height of several forms. -/
def itemHeight : List Form → Nat
  | [] => 0
  | f :: fs => max f.height (itemHeight fs)

/-- The largest height of several members. -/
def memberHeight : List (Marks × Form) → Nat
  | [] => 0
  | (_, f) :: ms => max f.height (memberHeight ms)

end

mutual

/-- Whether every number of a form has a value in binary64 and no text of it, names of members
included, has half a character. -/
def Meant : Form → Prop
  | .atom .null => True
  | .atom (.boolean _) => True
  | .atom (.number l) => l.number?.isSome = true
  | .atom (.text marks) => marks.string?.isSome = true
  | .array items => ItemsMeant items
  | .object members => MembersMeant members

/-- Whether every number and every text of several forms has a value. -/
def ItemsMeant : List Form → Prop
  | [] => True
  | f :: fs => f.Meant ∧ ItemsMeant fs

/-- Whether every number and every text of several members has a value. -/
def MembersMeant : List (Marks × Form) → Prop
  | [] => True
  | (name, f) :: ms => name.string?.isSome = true ∧ f.Meant ∧ MembersMeant ms

end

/-! ## Which forms can be read -/

/-- Whether a form is read by a reader that opens at most `depth` containers at once. -/
def Readable (depth : Nat) (f : Form) : Prop :=
  f.height ≤ depth ∧ f.Meant

end Form

/-- A computation that succeeds where `P` holds, and is malformed where it does not. -/
def SucceedsIff (P : Prop) (x : Except Fault α) : Prop :=
  (P ∧ ∃ a, x = .ok a) ∨ (¬P ∧ x = .error .malformed)

namespace SucceedsIff

variable {P Q : Prop} {x : Except Fault α}

theorem congr (h : SucceedsIff P x) (hPQ : P ↔ Q) : SucceedsIff Q x :=
  propext hPQ ▸ h

theorem map (h : SucceedsIff P x) (f : α → β) : SucceedsIff P (x.map f) := by
  obtain ⟨hP, a, rfl⟩ | ⟨hP, rfl⟩ := h
  · exact .inl ⟨hP, f a, rfl⟩
  · exact .inr ⟨hP, rfl⟩

theorem bind {f : α → Except Fault β} (h : SucceedsIff P x) (hf : ∀ a, SucceedsIff Q (f a)) :
    SucceedsIff (P ∧ Q) (x >>= f) := by
  obtain ⟨hP, a, rfl⟩ | ⟨hP, rfl⟩ := h
  · obtain ⟨hQ, b, hb⟩ | ⟨hQ, hb⟩ := hf a
    · exact .inl ⟨⟨hP, hQ⟩, b, hb⟩
    · exact .inr ⟨fun h => hQ h.2, hb⟩
  · exact .inr ⟨fun h => hP h.1, rfl⟩

theorem orMalformed (o : Option α) : SucceedsIff (o.isSome = true) (orMalformed o) := by
  cases o with
  | none => exact .inr ⟨Bool.false_ne_true, rfl⟩
  | some a => exact .inl ⟨rfl, a, rfl⟩

end SucceedsIff

namespace Form

theorem succeedsIff_value_atom (a : Atom) (depth : Nat) :
    SucceedsIff (Readable depth (.atom a)) ((Form.atom a).value depth) := by
  have hheight : (Form.atom a).height ≤ depth := Nat.zero_le depth
  rw [value]
  cases a with
  | null => exact .inl ⟨⟨hheight, trivial⟩, _, rfl⟩
  | boolean b => exact .inl ⟨⟨hheight, trivial⟩, _, rfl⟩
  | number l =>
    exact ((SucceedsIff.orMalformed _).map _).congr (iff_and_self.mpr fun _ => hheight)
  | text marks =>
    exact ((SucceedsIff.orMalformed _).map _).congr (iff_and_self.mpr fun _ => hheight)

mutual

/-- A form is read if it does not nest too deep and all in it means something, and is malformed
otherwise. -/
theorem succeedsIff_value : ∀ (f : Form) (depth : Nat),
    SucceedsIff (Readable depth f) (f.value depth)
  | .atom a, depth => succeedsIff_value_atom a depth
  | .array items, 0 => .inr ⟨fun h => Nat.not_succ_le_zero _ h.1, rfl⟩
  | .array items, depth + 1 => by
    refine ((succeedsIff_itemValues items depth).map Value.array).congr ?_
    rw [Readable, height, Meant, Nat.succ_le_succ_iff]
  | .object members, 0 => .inr ⟨fun h => Nat.not_succ_le_zero _ h.1, rfl⟩
  | .object members, depth + 1 => by
    refine ((succeedsIff_memberValues members depth).map Value.object).congr ?_
    rw [Readable, height, Meant, Nat.succ_le_succ_iff]

theorem succeedsIff_itemValues : ∀ (items : List Form) (depth : Nat),
    SucceedsIff (itemHeight items ≤ depth ∧ ItemsMeant items) (itemValues items depth)
  | [], depth => .inl ⟨⟨Nat.zero_le depth, trivial⟩, [], rfl⟩
  | f :: fs, depth => by
    refine ((succeedsIff_value f depth).bind fun v =>
      (succeedsIff_itemValues fs depth).map (v :: ·)).congr ?_
    rw [Readable, itemHeight, ItemsMeant, Nat.max_le, and_and_and_comm]

theorem succeedsIff_memberValues : ∀ (members : List (Marks × Form)) (depth : Nat),
    SucceedsIff (memberHeight members ≤ depth ∧ MembersMeant members)
      (memberValues members depth)
  | [], depth => .inl ⟨⟨Nat.zero_le depth, trivial⟩, [], rfl⟩
  | (name, f) :: ms, depth => by
    refine ((SucceedsIff.orMalformed name.string?).bind fun name =>
      (succeedsIff_value f depth).bind fun v =>
        (succeedsIff_memberValues ms depth).map ((name, v) :: ·)).congr ?_
    rw [Readable, memberHeight, MembersMeant, Nat.max_le, and_and_and_comm, and_left_comm]

end

end Form

end ScriptFeatures.Json
