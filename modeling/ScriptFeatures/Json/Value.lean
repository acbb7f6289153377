/-! JSON values, and why a text cannot be read as a value of some shape. A reader goes from left to
right and reports the first fault it meets. -/

namespace ScriptFeatures.Json

/-- A number: an integer written without point and exponent that fits 64 bits, signed or not, or any
other as binary64. -/
inductive Number
  | integer (n : Int)
  | real (x : Float)
  deriving Repr, Inhabited

/-- A value. The members of an object stand as written; of several with one name the last counts. -/
inductive Value
  | null
  | boolean (b : Bool)
  | number (n : Number)
  | text (s : String)
  | array (items : List Value)
  | object (members : List (String × Value))
  deriving Repr, Inhabited

namespace Number

/-- An unsigned integer of 64 bits as binary64. -/
def ofUnsigned (n : Nat) : Float :=
  n.toUInt64.toFloat

/-- The number as binary64, rounded to the nearest one. -/
def toFloat : Number → Float
  | .integer (.ofNat n) => ofUnsigned n
  | .integer (.negSucc n) => -ofUnsigned (n + 1)
  | .real x => x

end Number

namespace Value

def natural (n : Nat) : Value :=
  .number (.integer n)

/-- A binary64 number as a value; what is not finite has no number in JSON. -/
def real (x : Float) : Value :=
  if x.isFinite then .number (.real x) else .null

def member? (name : String) : Value → Option Value
  | .object members => (members.reverse.find? (·.1 == name)).map (·.2)
  | _ => none

/-- Sets a member of an object whose members stand in the order of their names: in the place of the
one that has its name, if there is one. -/
def insert (name : String) (v : Value) : List (String × Value) → List (String × Value)
  | [] => [(name, v)]
  | m :: members =>
    if name < m.1 then (name, v) :: m :: members
    else if name = m.1 then (name, v) :: members
    else m :: insert name v members

/-- The members of the object that the given ones make, set one after the other. -/
def collect (members : List (String × Value)) : List (String × Value) :=
  members.foldl (fun done m => insert m.1 m.2 done) []

end Value

/-! ## Faults -/

/-- The three ways in which reading fails: the text is not JSON, it is JSON of another shape than
the one asked for, or it ends too early. -/
inductive Fault
  | malformed
  | mismatch
  | truncated
  deriving DecidableEq, Repr, Inhabited

def Fault.category : Fault → String
  | .malformed => "syntax"
  | .mismatch => "data"
  | .truncated => "eof"

end ScriptFeatures.Json
