/-! Sets of code points, each given by the sorted list of its ranges. -/

namespace ScriptFeatures.Text

/-- Inclusive ranges of code points, disjoint and in increasing order. -/
structure CodeRanges where
  ranges : Array (Nat × Nat)

namespace CodeRanges

/-- Whether one of the ranges from index `lo` up to `hi` holds `code`, by bisection. -/
def search (t : CodeRanges) (code : Nat) : Nat → Nat → Nat → Bool
  | 0, _, _ => false
  | fuel + 1, lo, hi =>
    if lo < hi then
      let mid := (lo + hi) / 2
      match t.ranges[mid]? with
      | none => false
      | some (first, last) =>
        if code < first then search t code fuel lo mid
        else if last < code then search t code fuel (mid + 1) hi
        else true
    else false

/-- Whether a code point is in the set. Thirty-two halvings exhaust any table. -/
def contains (t : CodeRanges) (code : Nat) : Bool :=
  t.search code 32 0 t.ranges.size

end CodeRanges

end ScriptFeatures.Text
