import ScriptFeatures.Decimal.Binary

/-! A binary64 number with a fixed number of decimal places, rounded from its exact value; a half
goes to the even neighbour. -/

namespace ScriptFeatures.Decimal

/-- A quotient rounded to the nearest natural number, a half to the even one. -/
def roundEven (numerator denominator : Nat) : Nat :=
  let floor := numerator / denominator
  let twice := 2 * (numerator % denominator)
  if twice < denominator then floor
  else if denominator < twice then floor + 1
  else floor + floor % 2

/-- The digits of a natural number with a point before the last `places` of them. -/
def pointed (places n : Nat) : String :=
  let digits := Nat.toDigits 10 n
  let digits := List.replicate (places + 1 - digits.length) '0' ++ digits
  let whole := digits.length - places
  String.ofList (digits.take whole ++ '.' :: digits.drop whole)

/-- The number with `places` digits after the point; `NaN`, `inf` or `-inf` if it is not finite. -/
def fixed (places : Nat) (x : Float) : String :=
  match unpack x with
  | .undefined => "NaN"
  | .infinite negative => if negative then "-inf" else "inf"
  | .finite negative significand exponent _ =>
    let (numerator, denominator) := ratio significand exponent (-places)
    let text := pointed places (roundEven numerator denominator)
    if negative then "-" ++ text else text

end ScriptFeatures.Decimal
