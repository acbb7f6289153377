import ScriptFeatures.Json.Numeral
import ScriptFeatures.Json.Quoted

/-! Writing values. A writer puts the text of a value before a given rest, so that writing a
sequence takes no appending. -/

namespace ScriptFeatures.Json

/-- How a value is laid out: on one line, or one item a line with two blanks for each level. -/
inductive Layout
  | line
  | indented (level : Nat)
  deriving DecidableEq, Repr, Inhabited

namespace Layout

/-- The layout of the items of a container. -/
def inner : Layout → Layout
  | .line => .line
  | .indented level => .indented (level + 1)

/-- What stands before an item and before the end of a container that has items. -/
def newline : Layout → List Char → List Char
  | .line, rest => rest
  | .indented level, rest => '\n' :: (List.replicate (2 * level) ' ' ++ rest)

/-- What stands between the name and the value of a member. -/
def colon : Layout → List Char → List Char
  | .line, rest => ':' :: rest
  | .indented _, rest => ':' :: ' ' :: rest

end Layout

mutual

/-- Writes a value before `rest`. -/
def Value.write (layout : Layout) : Value → List Char → List Char
  | .null, rest => 'n' :: 'u' :: 'l' :: 'l' :: rest
  | .boolean true, rest => 't' :: 'r' :: 'u' :: 'e' :: rest
  | .boolean false, rest => 'f' :: 'a' :: 'l' :: 's' :: 'e' :: rest
  | .number n, rest => n.write rest
  | .text s, rest => quote s rest
  | .array [], rest => '[' :: ']' :: rest
  | .array (v :: vs), rest =>
    '[' :: layout.inner.newline (v.write layout.inner
      (Value.writeItems layout.inner vs (layout.newline (']' :: rest))))
  | .object [], rest => '{' :: '}' :: rest
  | .object ((name, v) :: ms), rest =>
    '{' :: layout.inner.newline (quote name (layout.colon (v.write layout.inner
      (Value.writeMembers layout.inner ms (layout.newline ('}' :: rest))))))

/-- Writes the items after the first one. -/
def Value.writeItems (layout : Layout) : List Value → List Char → List Char
  | [], rest => rest
  | v :: vs, rest => ',' :: layout.newline (v.write layout (Value.writeItems layout vs rest))

/-- Writes the members after the first one. -/
def Value.writeMembers (layout : Layout) : List (String × Value) → List Char → List Char
  | [], rest => rest
  | (name, v) :: ms, rest =>
    ',' :: layout.newline (quote name (layout.colon (v.write layout
      (Value.writeMembers layout ms rest))))

end

/-- A value on one line. -/
def Value.compact (v : Value) : String :=
  String.ofList (v.write .line [])

/-- A value with one item a line. -/
def Value.indented (v : Value) : String :=
  String.ofList (v.write (.indented 0) [])

end ScriptFeatures.Json
