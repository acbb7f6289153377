import ScriptFeatures.Json.Read

/-! Reading values of any shape. Containers may be nested to a given depth only. -/

namespace ScriptFeatures.Json

/-- Reads a value with at most `depth` containers open at once. -/
def readValue : Nat → Read Value
  | 0 => fun cs =>
    let cs := dropBlanks cs
    if opens cs then .error .malformed else readScalar cs
  | depth + 1 => fun cs =>
    match dropBlanks cs with
    | [] => .error .truncated
    | c :: rest =>
      if c = '[' then do
        let (items, rest) ← readItems (readValue depth) (c :: rest) true [] rest
        return (.array items, rest)
      else if c = '{' then do
        let (members, rest) ← readMembers
          (fun done name => do
            readColon
            let v ← readValue depth
            return (name, v) :: done)
          (c :: rest) true [] rest
        return (.object members.reverse, rest)
      else readScalar (c :: rest)

/-- How many containers may be open at once in a document. -/
def depthLimit : Nat :=
  127

def Value.parse (text : String) : Except Fault Value :=
  (readValue depthLimit).whole text.toList

end ScriptFeatures.Json
