/-! Counting in texts: how often each item of a list occurs, the entropy of the characters of a text
in bits per character, and how often a word stands in a text, from left to right and without
overlaps. -/

namespace ScriptFeatures.Text

/-- Counts equal neighbours. `counted` holds the runs before, the last first. -/
def tallyOnto [DecidableEq α] (counted : List (α × Nat)) : List α → List (α × Nat)
  | [] => counted.reverse
  | a :: rest =>
    match counted with
    | [] => tallyOnto [(a, 1)] rest
    | (b, n) :: before =>
      if a = b then tallyOnto ((b, n + 1) :: before) rest
      else tallyOnto ((a, 1) :: (b, n) :: before) rest

/-- The distinct items of a list in increasing order, each with its number of occurrences. -/
def tally [DecidableEq α] [LE α] [DecidableLE α] (items : List α) : List (α × Nat) :=
  tallyOnto [] (items.mergeSort fun a b => decide (a ≤ b))

/-- The distinct items of a list in increasing order. -/
def distinct [DecidableEq α] [LE α] [DecidableLE α] (items : List α) : List α :=
  (tally items).map (·.1)

/-! ## Entropy -/

/-- The share of one character in the entropy of a text of `size` characters, when it occurs `count`
times. -/
def surprise (size count : Nat) : Float :=
  let p := count.toFloat / size.toFloat
  p * (1.0 / p).log2

/-- The entropy of a text; 0 for an empty one. The characters are taken in their order. -/
def entropy (text : List Char) : Float :=
  (tally text).foldl (fun sum entry => sum + surprise text.length entry.2) 0

/-! ## Words -/

/-- The number of occurrences of a word in the rest of a text whose next `skip` characters belong to
an occurrence already; `found` is the number before. -/
def occurrencesOnto (word : List Char) (found : Nat) : Nat → List Char → Nat
  | _, [] => found
  | skip + 1, _ :: rest => occurrencesOnto word found skip rest
  | 0, c :: rest =>
    if word.isPrefixOf (c :: rest) then
      occurrencesOnto word (found + 1) (word.length - 1) rest
    else occurrencesOnto word found 0 rest

/-- The number of leftmost occurrences of a word, none of which overlap. -/
def occurrences (word text : List Char) : Nat :=
  occurrencesOnto word 0 0 text

end ScriptFeatures.Text
