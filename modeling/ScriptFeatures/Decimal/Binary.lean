/-! Binary64 numbers as exact values: a finite one is a sign, a natural significand and a power of
two, so that rounding to decimal digits is arithmetic on natural numbers. -/

namespace ScriptFeatures.Decimal

/-- A binary64 number taken apart. A finite one is `significand * 2 ^ exponent` with its sign;
`narrow` says that the next smaller magnitude is half as far away as the next larger one. -/
inductive Unpacked
  | undefined
  | infinite (negative : Bool)
  | finite (negative : Bool) (significand : Nat) (exponent : Int) (narrow : Bool)
  deriving DecidableEq, Repr

/-- Takes a number apart along its fields: a sign bit, 11 bits of exponent, 52 of fraction. -/
def unpack (x : Float) : Unpacked :=
  let bits : Nat := x.toBits.toNat
  let negative := bits / 0x8000000000000000 == 1
  let biased : Nat := bits / 0x10000000000000 % 0x800
  let fraction : Nat := bits % 0x10000000000000
  if biased == 2047 then
    if fraction == 0 then .infinite negative else .undefined
  else if biased == 0 then .finite negative fraction (-1074) false
  else .finite negative (0x10000000000000 + fraction) (biased - 1075) (fraction == 0 && biased > 1)

/-- The quotient of two numbers whose ratio is `significand * 2 ^ exponent / 10 ^ place`. -/
def ratio (significand : Nat) (exponent place : Int) : Nat × Nat :=
  (significand * Nat.pow 2 exponent.toNat * Nat.pow 10 (-place).toNat,
    Nat.pow 2 (-exponent).toNat * Nat.pow 10 place.toNat)

end ScriptFeatures.Decimal
