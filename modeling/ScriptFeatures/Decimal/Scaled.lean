/-! Reading decimal digits as a binary64 number by one multiplication or division by a power of ten.
The result can be off in its last place, and that is part of the format read here: a significand is
rounded once, and the power of ten is applied in binary64. -/

namespace ScriptFeatures.Decimal

/-- `f / 10 ^ n`. Powers beyond the range of binary64 are divided out in steps of `1e308`. -/
def lower (f : Float) (n : Nat) : Float :=
  if n ≤ 308 then f / Float.ofScientific 1 false n
  else if f == 0 then f
  else lower (f / 1e308) (n - 308)
termination_by n

/-- `f * 10 ^ n`, if that is finite. -/
def raise? (f : Float) (n : Nat) : Option Float :=
  if n ≤ 308 then
    let g := f * Float.ofScientific 1 false n
    if g.isInf then none else some g
  else if f == 0 then some f
  else none

/-- `significand * 10 ^ exponent` for a significand below `2 ^ 64`, if that is finite. -/
def scale? (significand : Nat) (exponent : Int) : Option Float :=
  let f := significand.toUInt64.toFloat
  match exponent with
  | .ofNat n => raise? f n
  | .negSucc n => some (lower f (n + 1))

/-- Appends digits to a significand as long as the result stays below `2 ^ 64`, and counts the
digits that are left. -/
def gather : Nat → List Nat → Nat × Nat
  | s, [] => (s, 0)
  | s, d :: ds => if s * 10 + d < UInt64.size then gather (s * 10 + d) ds else (s, ds.length + 1)

end ScriptFeatures.Decimal
