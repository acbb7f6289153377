/-! Counting how deep a script nests, token by token and without a parse.

* A `Frame` counts what is open on one bracket level: operators before an operand, right-associative
  operators and statement heads, chained operators, and sequence commas.
* `Frames` is the stack of the open levels. The level of the whole script is at its bottom and is
  never popped.
* A `Scan` is the state between two tokens. It keeps the sums of the counters over all frames, so a
  new maximum costs no walk over the stack. -/

namespace ScriptFeatures.Nesting

/-- How deep a text nests. `descent` counts open brackets, operators before an operand,
right-associative operators and statement heads; `depth` adds the operators, accesses, calls and
commas that chain to the left. -/
structure Estimate where
  descent : Nat
  depth : Nat
  deriving DecidableEq, Repr, Inhabited

/-- What opened a bracket level. -/
inductive Opening
  | root
  | paren
  | arguments
  | array
  | object
  | block
  | template
  deriving DecidableEq, Repr, Inhabited

/-- The counters of one bracket level. `unary` counts operators that wait for their operand and is
closed by the next binary operator; `right` counts right-associative operators and statement heads
and is closed by a comma or the end of a statement, like `chain`; `commas` is closed by the end of a
statement. -/
structure Frame where
  opening : Opening
  unary : Nat
  right : Nat
  chain : Nat
  commas : Nat
  deriving DecidableEq, Repr, Inhabited

namespace Frame

/-- A level that has just been opened. -/
def fresh (opening : Opening) : Frame :=
  ⟨opening, 0, 0, 0, 0⟩

/-- Whether statements stand directly on this level. -/
def holdsStatements (f : Frame) : Bool :=
  f.opening == .root || f.opening == .block

/-- What the level adds to the descent beside its bracket. -/
def descent (f : Frame) : Nat :=
  f.unary + f.right

/-- What the level adds to the depth only. -/
def chained (f : Frame) : Nat :=
  f.chain + f.commas

end Frame

/-- The open levels, innermost first, and how many there are below the innermost one. -/
structure Frames where
  top : Frame
  below : List Frame
  height : Nat
  height_eq : height = below.length

namespace Frames

/-- The level of the whole script alone. -/
def root : Frames :=
  ⟨.fresh .root, [], 0, rfl⟩

/-- All levels, innermost first. -/
def toList (fs : Frames) : List Frame :=
  fs.top :: fs.below

def push (fs : Frames) (opening : Opening) : Frames :=
  ⟨.fresh opening, fs.top :: fs.below, fs.height + 1, by simp [fs.height_eq]⟩

/-- Closes the innermost level, unless it is the only one. -/
def pop? (fs : Frames) : Option (Frame × Frames) :=
  match fs with
  | ⟨_, [], _, _⟩ => none
  | ⟨top, next :: below, height, h⟩ =>
    some (top, ⟨next, below, height - 1, by simp [h]⟩)

/-- Changes the innermost level. -/
def setTop (fs : Frames) (f : Frame) : Frames :=
  { fs with top := f }

end Frames

/-- What the previous token leads to expect: an operator, for an operand has just ended; an operand;
the name of a property; the body of an arrow function; or a statement. -/
inductive Expect
  | operator
  | operand
  | property
  | arrowBody
  | statement
  deriving DecidableEq, Repr, Inhabited

/-- The state between two tokens. -/
structure Scan where
  frames : Frames
  expect : Expect
  newline : Bool
  sumDescent : Nat
  sumChained : Nat
  estimate : Estimate

namespace Scan

def start : Scan :=
  ⟨.root, .statement, false, 0, 0, ⟨0, 0⟩⟩

/-- Raises the estimate to what is open now. -/
def record (s : Scan) : Scan :=
  let descent := s.frames.height + s.sumDescent
  { s with
    estimate := ⟨max s.estimate.descent descent, max s.estimate.depth (descent + s.sumChained)⟩ }

/-- The state with another expectation. -/
def expecting (s : Scan) (e : Expect) : Scan :=
  { s with expect := e }

/-! ## Closing counters -/

/-- The operand that operators waited for has come. -/
def closeUnary (s : Scan) : Scan :=
  let top := s.frames.top
  { s with
    frames := s.frames.setTop { top with unary := 0 }
    sumDescent := s.sumDescent - top.unary }

/-- An element of a list has ended: all but the commas is closed. -/
def closeElement (s : Scan) : Scan :=
  let top := s.frames.top
  { s with
    frames := s.frames.setTop { top with unary := 0, right := 0, chain := 0 }
    sumDescent := s.sumDescent - top.descent
    sumChained := s.sumChained - top.chain }

/-- A statement has ended. -/
def closeStatement (s : Scan) : Scan :=
  let s := s.closeElement
  let top := s.frames.top
  { s with
    frames := s.frames.setTop { top with commas := 0 }
    sumChained := s.sumChained - top.commas }

/-! ## Counting -/

/-- Counts an operator before an operand. -/
def addUnary (s : Scan) : Scan :=
  let top := s.frames.top
  record
    { s with
      frames := s.frames.setTop { top with unary := top.unary + 1 }
      sumDescent := s.sumDescent + 1 }

/-- Counts a right-associative operator or a statement head. -/
def addRight (s : Scan) : Scan :=
  let s := s.closeUnary
  let top := s.frames.top
  record
    { s with
      frames := s.frames.setTop { top with right := top.right + 1 }
      sumDescent := s.sumDescent + 1 }

/-- Counts a link of a chain. -/
def addChain (s : Scan) : Scan :=
  let top := s.frames.top
  record
    { s with
      frames := s.frames.setTop { top with chain := top.chain + 1 }
      sumChained := s.sumChained + 1 }

/-- Counts a left-associative operator. -/
def addBinary (s : Scan) : Scan :=
  s.closeUnary.addChain

/-- Counts a comma of a sequence. -/
def addComma (s : Scan) : Scan :=
  let top := s.frames.top
  record
    { s with
      frames := s.frames.setTop { top with commas := top.commas + 1 }
      sumChained := s.sumChained + 1 }

/-! ## Levels -/

def push (s : Scan) (opening : Opening) : Scan :=
  record { s with frames := s.frames.push opening }

/-- Closes the innermost level and tells what had opened it; the level of the whole script stays. -/
def pop (s : Scan) : Option Opening × Scan :=
  match s.frames.pop? with
  | none => (none, s)
  | some (f, frames) =>
    (some f.opening,
      { s with
        frames
        sumDescent := s.sumDescent - f.descent
        sumChained := s.sumChained - f.chained })

/-- An operand begins. On a new line, where statements stand and after an operand, it begins a new
statement. -/
def startOperand (s : Scan) : Scan :=
  if s.newline && s.expect == .operator && s.frames.top.holdsStatements then
    s.closeStatement.expecting .statement
  else s

end Scan

end ScriptFeatures.Nesting
