/-! White space, and the lines of a file. A line ends with a line feed, which does not belong to it;
neither does one carriage return before the line feed. The last line need not end. -/

namespace ScriptFeatures.Text

/-- Whether a character is white space (the Unicode property `White_Space`). -/
def isBlank (c : Char) : Bool :=
  let n := c.toNat
  (0x09 ≤ n && n ≤ 0x0D) || n == 0x20 || n == 0x85 || n == 0xA0 || n == 0x1680 ||
    (0x2000 ≤ n && n ≤ 0x200A) || n == 0x2028 || n == 0x2029 || n == 0x202F || n == 0x205F ||
    n == 0x3000

/-- A text without the white space at its two ends. -/
def trim (cs : List Char) : List Char :=
  ((cs.dropWhile isBlank).reverse.dropWhile isBlank).reverse

/-! ## Lines -/

/-- The bytes of a line that was ended by a line feed, given in reverse. -/
def ended : List UInt8 → List UInt8
  | [] => []
  | b :: rest => if b = 13 then rest.reverse else (b :: rest).reverse

/-- The lines of the rest of a file. `line` is the line that it goes on with, reversed, and `done`
holds the lines before, the last first. -/
def linesOnto (done : List (List UInt8)) (line : List UInt8) : List UInt8 → List (List UInt8)
  | [] => (if line.isEmpty then done else line.reverse :: done).reverse
  | b :: rest =>
    if b = 10 then linesOnto (ended line :: done) [] rest
    else linesOnto done (b :: line) rest

def lines (bytes : List UInt8) : List (List UInt8) :=
  linesOnto [] [] bytes

/-- The text that bytes encode in UTF-8, if they do. -/
def decode? (bytes : List UInt8) : Option String :=
  String.fromUTF8? ⟨bytes.toArray⟩

/-- The bytes of a text in UTF-8. -/
def encode (text : String) : List UInt8 :=
  text.toUTF8.toList

end ScriptFeatures.Text
