import ScriptFeatures.Decimal.Scaled
import ScriptFeatures.Decimal.Shortest
import ScriptFeatures.Json.Value

/-! Numbers as text.

A `Numeral` is a number as it is written: a sign, the digits before the point, the digits after it
and an exponent. `Numeral.number?` is its value, `Number.write` writes a number with the fewest
digits that read back. -/

namespace ScriptFeatures.Json

/-- A number as written. Digits stand by value; an exponent is a sign and a natural number. -/
structure Numeral where
  negative : Bool
  whole : List Nat
  fraction : List Nat
  exponent : Option (Bool × Nat)
  deriving DecidableEq, Repr

def isDigit (c : Char) : Bool :=
  '0' ≤ c && c ≤ '9'

/-- The digits a text starts with, by value, and the rest. -/
def takeDigits (cs : List Char) : List Nat × List Char :=
  ((cs.takeWhile isDigit).map fun c => c.toNat - 48, cs.dropWhile isDigit)

def ofDigits (ds : List Nat) : Nat :=
  ds.foldl (fun n d => n * 10 + d) 0

namespace Numeral

/-- The fault of a place where a digit has to stand and does not. -/
def missingDigit (unfinished : Fault) : List Char → Fault
  | [] => unfinished
  | _ :: _ => .malformed

/-- One digit or more. -/
def takeSome (unfinished : Fault) (cs : List Char) : Except Fault (List Nat × List Char) :=
  match takeDigits cs with
  | ([], rest) => .error (missingDigit unfinished rest)
  | found => .ok found

/-- The digits before the point: one zero, or digits that do not start with one. -/
def takeWhole (unfinished : Fault) (cs : List Char) : Except Fault (List Nat × List Char) :=
  match takeSome unfinished cs with
  | .ok (0 :: _ :: _, _) => .error .malformed
  | found => found

/-- A point and the digits after it, if there is a point. -/
def takeFraction (unfinished : Fault) : List Char → Except Fault (List Nat × List Char)
  | '.' :: cs => takeSome unfinished cs
  | cs => .ok ([], cs)

/-- The sign of an exponent. -/
def takeSign : List Char → Bool × List Char
  | '-' :: cs => (true, cs)
  | '+' :: cs => (false, cs)
  | cs => (false, cs)

def takeExponent (unfinished : Fault) :
    List Char → Except Fault (Option (Bool × Nat) × List Char)
  | [] => .ok (none, [])
  | c :: cs =>
    if c = 'e' ∨ c = 'E' then do
      let (negative, cs) := takeSign cs
      let (digits, cs) ← takeSome unfinished cs
      return (some (negative, ofDigits digits), cs)
    else .ok (none, c :: cs)

/-- Reads a numeral. `unfinished` is the fault of a text that ends where a digit has to follow. -/
def take (unfinished : Fault) (cs : List Char) : Except Fault (Numeral × List Char) := do
  let (negative, cs) := match cs with
    | '-' :: cs => (true, cs)
    | cs => (false, cs)
  let (whole, cs) ← takeWhole unfinished cs
  let (fraction, cs) ← takeFraction unfinished cs
  let (exponent, cs) ← takeExponent unfinished cs
  return (⟨negative, whole, fraction, exponent⟩, cs)

/-- The magnitude of a numeral in binary64, if that is finite. Leading digits make a significand
below `2 ^ 64`; each digit before the point that does not fit raises the exponent by one, digits
after the point that do not fit are dropped. An exponent beyond 32 bits is not applied: it makes
zero, or a number out of range. -/
def magnitude? (n : Numeral) : Option Float :=
  let (s, extra) := Decimal.gather 0 n.whole
  let (s, left) := Decimal.gather s n.fraction
  let place : Int := (extra : Int) - ((n.fraction.length - left : Nat) : Int)
  match n.exponent with
  | none => Decimal.scale? s place
  | some (negative, e) =>
    if e < 0x80000000 then Decimal.scale? s (if negative then place - e else place + e)
    else if negative || s == 0 then some 0
    else none

/-- The value of a numeral: an integer if it is written as one and fits 64 bits, otherwise binary64.
Minus zero is no integer. -/
def number? (n : Numeral) : Option Number :=
  let i := ofDigits n.whole
  let whole := n.fraction.isEmpty && n.exponent.isNone
  if whole && !n.negative && i < UInt64.size then some (.integer i)
  else if whole && n.negative && 0 < i && i ≤ 0x8000000000000000 then some (.integer (-i))
  else
    n.magnitude?.map fun x => .real (if n.negative then -x else x)

end Numeral

namespace Number

/-- Reads a number. One that is too large for binary64 is malformed. -/
def take (cs : List Char) : Except Fault (Number × List Char) := do
  let (numeral, rest) ← Numeral.take .truncated cs
  match numeral.number? with
  | some n => return (n, rest)
  | none => throw .malformed

/-- Decimal digits `ds` with the point after the first `point` of them: without an exponent from
`0.00001` up to sixteen digits before the point, otherwise with one digit before the point. -/
def place (ds : List Char) (point : Int) : List Char :=
  let size : Int := ds.length
  if size ≤ point ∧ point ≤ 16 then
    ds ++ List.replicate (point - size).toNat '0' ++ ['.', '0']
  else if 0 < point ∧ point ≤ 16 then
    ds.take point.toNat ++ '.' :: ds.drop point.toNat
  else if -5 < point ∧ point ≤ 0 then
    '0' :: '.' :: (List.replicate (-point).toNat '0' ++ ds)
  else
    let exponent := point - 1
    let power := (if exponent < 0 then ['-'] else []) ++ Nat.toDigits 10 exponent.natAbs
    match ds with
    | [] => 'e' :: power
    | [d] => d :: 'e' :: power
    | d :: rest => d :: '.' :: (rest ++ 'e' :: power)

/-- The digits of a positive decimal number without zeros at their end, and how many of them stand
before the point. -/
def significant (d : Decimal.Digits) : List Char × Int :=
  let ds := Nat.toDigits 10 d.digits
  ((ds.reverse.dropWhile (· == '0')).reverse, ds.length + d.place)

/-- The text of a binary64 number: the fewest digits that read back, always with a point or an
exponent; `null` for what is not finite. -/
def realText (x : Float) : List Char :=
  match Decimal.unpack x with
  | .finite negative significand exponent narrow =>
    let text :=
      if significand = 0 then ['0', '.', '0']
      else
        let (ds, point) := significant (Decimal.shortest significand exponent narrow)
        place ds point
    if negative then '-' :: text else text
  | _ => ['n', 'u', 'l', 'l']

/-- Writes a number before `rest`. -/
def write : Number → List Char → List Char
  | .integer (.ofNat n), rest => Nat.toDigits 10 n ++ rest
  | .integer (.negSucc n), rest => '-' :: (Nat.toDigits 10 (n + 1) ++ rest)
  | .real x, rest => realText x ++ rest

end Number

end ScriptFeatures.Json
