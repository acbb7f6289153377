import ScriptFeatures.Decimal.Binary

/-! The fewest decimal digits that read back as a given binary64 number, and of those the nearest
ones.

The numbers that round to `significand * 2 ^ exponent` form an interval around it, whose ends belong
to it when the significand is even. Decimal grids are tried from the coarsest on, and on each the
two neighbours of the exact value: the first grid with a neighbour in the interval wins. -/

namespace ScriptFeatures.Decimal

/-- A decimal number: `digits * 10 ^ place`. -/
structure Digits where
  digits : Nat
  place : Int
  deriving DecidableEq, Repr, Inhabited

/-- The neighbour of the exact value on the grid `10 ^ place` that reads back as it, if any. Of two
the nearer is taken, at equal distance the even one. The interval is given in quarters of the last
binary place. -/
def neighbour? (significand : Nat) (exponent : Int) (narrow : Bool) (place : Int) : Option Nat :=
  let (value, unit) := ratio (4 * significand) (exponent - 2) place
  let (low, _) := ratio (4 * significand - if narrow then 1 else 2) (exponent - 2) place
  let (high, _) := ratio (4 * significand + 2) (exponent - 2) place
  let floor := value / unit
  let closed := significand % 2 == 0
  let below := low < floor * unit || (closed && low == floor * unit)
  let above := (floor + 1) * unit < high || (closed && (floor + 1) * unit == high)
  let up := value - floor * unit > (floor + 1) * unit - value
  let even := value - floor * unit == (floor + 1) * unit - value && floor % 2 == 1
  if below && above then some (if up || even then floor + 1 else floor)
  else if below then some floor
  else if above then some (floor + 1)
  else none

/-- Tries `tries` grids from `place` downwards. -/
def digitsFrom (significand : Nat) (exponent : Int) (narrow : Bool) : Nat → Int → Digits
  | 0, place => ⟨0, place⟩
  | tries + 1, place =>
    match neighbour? significand exponent narrow place with
    | some n => ⟨n, place⟩
    | none => digitsFrom significand exponent narrow tries (place - 1)

/-- The shortest digits of a positive number. The first grid tried is at least as coarse as the
number is large, by its binary logarithm and `30103 / 100000 ≈ log₁₀ 2`. -/
def shortest (significand : Nat) (exponent : Int) (narrow : Bool) : Digits :=
  let magnitude := (Nat.log2 significand + exponent) * 30103 / 100000
  digitsFrom significand exponent narrow 20 (magnitude + 1)

end ScriptFeatures.Decimal
