import ScriptFeatures.Json.Read

/-! Running over a value of any shape and depth. Only its form is looked at: numbers may be of any
size and halves of characters need not be paired. What is open is kept in a list, so the depth costs
no stack. -/

namespace ScriptFeatures.Json

/-- A container that is open. -/
inductive Container
  | array
  | object
  deriving DecidableEq, Repr, Inhabited

/-- Where a run over a text stands: before a value, or after one. -/
inductive Place
  | value
  | follow
  deriving DecidableEq, Repr, Inhabited

def Container.closing : Container → Char
  | .array => ']'
  | .object => '}'

def skipScalar (cs : List Char) : Except Fault (List Char) :=
  match cs with
  | [] => .error .truncated
  | c :: rest =>
    if c = '"' then skipQuoted rest
    else if c = 'n' then expect ['u', 'l', 'l'] rest
    else if c = 't' then expect ['r', 'u', 'e'] rest
    else if c = 'f' then expect ['a', 'l', 's', 'e'] rest
    else if c = '-' ∨ isDigit c then (Numeral.take .malformed cs).map (·.2)
    else .error .malformed

/-- Runs over the name of a member and the colon after it, if items of the container have names. -/
def skipName (container : Container) (cs : List Char) : Except Fault (List Char) :=
  match container with
  | .array => .ok cs
  | .object =>
    match dropBlanks cs with
    | [] => .error .truncated
    | c :: rest =>
      if c = '"' then do
        let rest ← skipQuoted rest
        let ((), rest) ← readColon rest
        return rest
      else .error .malformed

/-- Runs on from a place inside the containers in `outer`, the innermost first, to the end of the
outermost value. The first text bounds the number of steps. -/
def skipFrom : List Char → Place → List Container → List Char → Except Fault (List Char)
  | [], _, _, _ => .error .truncated
  | _ :: _, .follow, [], cs => .ok cs
  | _ :: bound, .follow, container :: outer, cs =>
    match dropBlanks cs with
    | [] => .error .truncated
    | c :: rest =>
      if c = container.closing then skipFrom bound .follow outer rest
      else if c = ',' then do
        let rest ← skipName container rest
        skipFrom bound .value (container :: outer) rest
      else .error .malformed
  | _ :: bound, .value, outer, cs =>
    match dropBlanks cs with
    | [] => .error .truncated
    | c :: rest =>
      if c = '[' ∨ c = '{' then
        let container : Container := if c = '[' then .array else .object
        match dropBlanks rest with
        | [] => .error .truncated
        | d :: more =>
          if d = container.closing then skipFrom bound .follow outer more
          else do
            let rest ← skipName container (d :: more)
            skipFrom bound .value (container :: outer) rest
      else do
        let rest ← skipScalar (c :: rest)
        skipFrom bound .follow outer rest

/-- Runs over a value. Each step but the last passes at least one character. -/
def skipValue : Read Unit := fun cs => do
  return ((), ← skipFrom (' ' :: cs) .value [] cs)

end ScriptFeatures.Json
