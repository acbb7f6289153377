import ScriptFeatures.Json.Skip

/-! Reading records. A record is written as an object, in any order and with members of other names
among the fields, or as an array of its fields in their order. Fields that are not required may be
missing: in an object anywhere, in an array at the end. -/

namespace ScriptFeatures.Json

/-- A field of a record `σ`: its name, whether it has to be there, and a reader of its value that
answers how to set it. -/
structure Field (σ : Type) where
  name : String
  required : Bool
  read : Read (σ → σ)

namespace Field

def needed (name : String) (read : Read α) (set : α → σ → σ) : Field σ :=
  ⟨name, true, set <$> read⟩

/-- A field that keeps what the blank record holds when it is missing. -/
def defaulted (name : String) (read : Read α) (set : α → σ → σ) : Field σ :=
  ⟨name, false, set <$> read⟩

end Field

/-- Reads one member of an object as a field of a record. The state is the record so far and the
names of the fields it has been given. -/
def readField (fields : List (Field σ)) (s : σ × List String) (name : String) :
    Read (σ × List String) :=
  match fields.find? (·.name == name) with
  | none => do
    readColon
    skipValue
    return s
  | some field =>
    if s.2.contains name then throw .mismatch
    else do
      readColon
      let set ← field.read
      return (set s.1, name :: s.2)

/-- Reads the rest of an array as the fields of a record in their order. -/
def readFields : List (Field σ) → Bool → σ → Read σ
  | [], _, s => fun cs =>
    match dropBlanks cs with
    | [] => .error .truncated
    | c :: rest => if c = ']' then .ok (s, rest) else .error .malformed
  | field :: fields, first, s => fun cs => do
    let (more, cs) ← nextItem first cs
    if more then
      let (set, cs) ← field.read cs
      readFields fields false (set s) cs
    else if (field :: fields).any (·.required) then throw .mismatch
    else return (s, cs)

/-- Reads a record. It starts as `blank`. -/
def record (fields : List (Field σ)) (blank : σ) : Read σ := fun cs =>
  match dropBlanks cs with
  | [] => .error .truncated
  | c :: rest =>
    if c = '{' then do
      let ((s, seen), rest) ← readMembers (readField fields) (c :: rest) true (blank, []) rest
      if fields.all fun field => !field.required || seen.contains field.name then
        return (s, rest)
      else throw .mismatch
    else if c = '[' then readFields fields true blank rest
    else .error (wrongShape (c :: rest))

end ScriptFeatures.Json
