import ScriptFeatures.Proofs.Nesting.Balance
import ScriptFeatures.Proofs.Nesting.Position
import ScriptFeatures.Proofs.Outcome

/-! The scan as a machine that checks what it does. It has a position in the whole text and a stack
that may run empty, and it stops with a fault when it reads outside the text, when it takes more
from a sum than is left, and when it touches the stack while there is no level on it or the sums do
not belong to it.

From a balanced state every operation of the machine succeeds and does what the operation of the
scan does (`closeUnary_machine` and the lemmas after it). -/

namespace ScriptFeatures.Nesting

open Outcome (bind_eq_ok_iff)

/-- What is left of a counter. -/
def without (count taken : Nat) : Checked Nat :=
  if taken ≤ count then .ok (count - taken) else .error .underflow

theorem without_of_le {count taken : Nat} (h : taken ≤ count) :
    without count taken = .ok (count - taken) :=
  if_pos h

/-- The state of a checked scan. -/
structure Machine where
  pos : Nat
  levels : List Frame
  expect : Expect
  newline : Bool
  sumDescent : Nat
  sumChained : Nat
  estimate : Estimate
  deriving DecidableEq, Repr

namespace Machine

/-- The state before the first token. -/
def start : Machine :=
  ⟨0, [.fresh .root], .statement, false, 0, 0, ⟨0, 0⟩⟩

/-- The sums belong to the stack. -/
def Balanced (m : Machine) : Prop :=
  Nesting.Balanced m.levels m.sumDescent m.sumChained

instance (m : Machine) : Decidable m.Balanced :=
  inferInstanceAs (Decidable (Nesting.Balanced _ _ _))

/-- Stops if the sums do not belong to the stack. -/
def check (m : Machine) : Checked Unit :=
  if m.Balanced then .ok () else .error .unbalanced

/-- The innermost level. -/
def top (m : Machine) : Checked Frame := do
  m.check
  match m.levels with
  | [] => .error .noLevel
  | f :: _ => return f

/-- Changes the innermost level. -/
def setTop (m : Machine) (f : Frame) : Machine :=
  { m with levels := f :: m.levels.tail }

/-- Raises the estimate to what is open now. -/
def record (m : Machine) : Checked Machine := do
  m.check
  let height ← without m.levels.length 1
  let descent := height + m.sumDescent
  return { m with
    estimate := ⟨max m.estimate.descent descent, max m.estimate.depth (descent + m.sumChained)⟩ }

/-- The state with another expectation. -/
def expecting (m : Machine) (e : Expect) : Machine :=
  { m with expect := e }

/-- The state at another position. -/
def goTo (m : Machine) (pos : Nat) : Machine :=
  { m with pos }

/-! ## Counters -/

def closeUnary (m : Machine) : Checked Machine := do
  let f ← m.top
  let sumDescent ← without m.sumDescent f.unary
  return { m.setTop { f with unary := 0 } with sumDescent }

def closeElement (m : Machine) : Checked Machine := do
  let f ← m.top
  let sumDescent ← without m.sumDescent (f.unary + f.right)
  let sumChained ← without m.sumChained f.chain
  return { m.setTop { f with unary := 0, right := 0, chain := 0 } with sumDescent, sumChained }

def closeStatement (m : Machine) : Checked Machine := do
  let m ← m.closeElement
  let f ← m.top
  let sumChained ← without m.sumChained f.commas
  return { m.setTop { f with commas := 0 } with sumChained }

def addUnary (m : Machine) : Checked Machine := do
  let f ← m.top
  record { m.setTop { f with unary := f.unary + 1 } with sumDescent := m.sumDescent + 1 }

def addRight (m : Machine) : Checked Machine := do
  let m ← m.closeUnary
  let f ← m.top
  record { m.setTop { f with right := f.right + 1 } with sumDescent := m.sumDescent + 1 }

def addChain (m : Machine) : Checked Machine := do
  let f ← m.top
  record { m.setTop { f with chain := f.chain + 1 } with sumChained := m.sumChained + 1 }

def addBinary (m : Machine) : Checked Machine := do
  (← m.closeUnary).addChain

def addComma (m : Machine) : Checked Machine := do
  let f ← m.top
  record { m.setTop { f with commas := f.commas + 1 } with sumChained := m.sumChained + 1 }

/-! ## Levels -/

/-- Opens a level. -/
def push (m : Machine) (opening : Opening) : Checked Machine := do
  m.check
  record { m with levels := .fresh opening :: m.levels }

/-- Closes the innermost level and tells what had opened it; the last level stays. -/
def pop (m : Machine) : Checked (Option Opening × Machine) := do
  m.check
  match m.levels with
  | [] => .error .noLevel
  | [_] => return (none, m)
  | f :: levels =>
    let sumDescent ← without m.sumDescent (f.unary + f.right)
    let sumChained ← without m.sumChained (f.chain + f.commas)
    return (some f.opening, { m with levels, sumDescent, sumChained })

/-- An operand begins. -/
def startOperand (m : Machine) : Checked Machine := do
  if m.newline && m.expect == .operator then
    if (← m.top).holdsStatements then
      return (← m.closeStatement).expecting .statement
    else return m
  else return m

/-! ## Tokens -/

/-- Counts a word. -/
def word (m : Machine) (word : String) : Checked Machine := do
  if m.expect == .property then return m.expecting .operator
  else
    match WordClass.of word with
    | .relation =>
      if m.expect == .operator then return (← m.addBinary).expecting .operand
      else return (← m.startOperand).expecting .operator
    | .unary => return (← (← m.startOperand).addUnary).expecting .operand
    | .head => return (← (← m.startOperand).addRight).expecting .statement
    | .value => return (← m.startOperand).expecting .operand
    | .opening => return (← m.startOperand).expecting .statement
    | .plain => return (← m.startOperand).expecting .operator

/-- Counts a mark. -/
def mark (m : Machine) (mark : MarkClass) : Checked Machine := do
  match mark with
  | .semicolon => return (← m.closeStatement).expecting .statement
  | .comma =>
    let m ← m.closeElement
    let f ← m.top
    let counted : Checked Machine := if f.opening.holdsSequence then m.addComma else .ok m
    return (← counted).expecting .operand
  | .point => return (← m.addChain).expecting .property
  | .arrow => return (← m.addRight).expecting .arrowBody
  | .rightAssociative => return (← m.addRight).expecting .operand
  | .not => return (← (← m.startOperand).addUnary).expecting .operand
  | .update =>
    let m ← m.startOperand
    if m.expect == .operator then return m else return (← m.addUnary).expecting .operand
  | .sign =>
    if m.expect == .operator then return (← m.addBinary).expecting .operand
    else return (← m.addUnary).expecting .operand
  | .separator => return m.expecting .operand
  | .binary => return (← m.addBinary).expecting .operand

def openParen (m : Machine) : Checked Machine := do
  let opened : Checked Machine :=
    if m.expect == .operator then do (← m.addChain).push .arguments else m.push .paren
  return (← opened).expecting .operand

def openBracket (m : Machine) : Checked Machine := do
  let begun : Checked Machine := if m.expect == .operator then m.addChain else m.startOperand
  return (← (← begun).push .array).expecting .operand

def openBrace (m : Machine) : Checked Machine := do
  if m.expect == .operand then return (← m.push .object).expecting .operand
  else return (← m.push .block).expecting .statement

def closeGroup (m : Machine) : Checked Machine := do
  return (← m.pop).2.expecting .operator

/-- Goes on with the text of a template. -/
def template (src : List UInt8) (m : Machine) : Checked Machine := do
  match ← templateEnd src m.pos with
  | (.closed, pos) => return (m.goTo pos).expecting .operator
  | (.expression, pos) => return (← (m.goTo pos).push .template).expecting .operand

def closeBrace (src : List UInt8) (m : Machine) : Checked Machine := do
  match ← m.pop with
  | (some .template, m) => m.template src
  | (some .block, m) =>
    let f ← m.top
    let ended : Checked Machine := if f.holdsStatements then m.closeStatement else .ok m
    return (← ended).expecting .statement
  | (_, m) => return m.expecting .operator

/-- Reads a word and counts it. -/
def readWord (src : List UInt8) (m : Machine) : Checked Machine := do
  let stop ← whileEnd src isWordByte m.pos
  (m.goTo stop).word (textOf (← sliceAt src m.pos stop))

/-- Reads a mark and counts it. -/
def readMark (src : List UInt8) (m : Machine) : Checked Machine := do
  let head := ((← suffixAt src m.pos).take 4).map fun b => Char.ofNat b.toNat
  match marks.find? (·.isPrefixOf head) with
  | some text => (m.goTo (m.pos + text.length)).mark (.of (String.ofList text))
  | none => return m.goTo (m.pos + 1)

/-- Uses the token that begins at the position. -/
def token (src : List UInt8) (m : Machine) : Checked Machine := do
  let b ← byteAt src m.pos
  if b == 0x27 || b == 0x22 then
    let m ← m.startOperand
    return (m.goTo (← stringEnd src b (m.pos + 1))).expecting .operator
  else if b == 0x60 then
    let m ← m.startOperand
    (m.goTo (m.pos + 1)).template src
  else if isDigitByte b || (b == 0x2E && (src[m.pos + 1]?).any isDigitByte) then
    let m ← m.startOperand
    return (m.goTo (← whileEnd src (fun b => isWordByte b || b == 0x2E) m.pos)).expecting .operator
  else if b == 0x28 then (m.goTo (m.pos + 1)).openParen
  else if b == 0x5B then (m.goTo (m.pos + 1)).openBracket
  else if b == 0x7B then (m.goTo (m.pos + 1)).openBrace
  else if b == 0x29 || b == 0x5D then (m.goTo (m.pos + 1)).closeGroup
  else if b == 0x7D then (m.goTo (m.pos + 1)).closeBrace src
  else if b == 0x2F && m.expect != .operator then
    let m ← m.startOperand
    return (m.goTo (← regExpEnd src (m.pos + 1))).expecting .operator
  else if isWordByte b then m.readWord src
  else m.readMark src

/-- One iteration of the scan: white space, comments and a token; `none` at the end of the text. -/
def iterate (src : List UInt8) (m : Machine) : Checked (Option Machine) := do
  let (newline, pos) ← gapEnd src .between m.newline m.pos
  if pos < src.length then
    let m ← token src { m with newline, pos }
    return some { m with newline := false }
  else return none

end Machine

/-- A scan at a position, as a machine. -/
def Scan.machine (s : Scan) (pos : Nat) : Machine :=
  ⟨pos, s.levels, s.expect, s.newline, s.sumDescent, s.sumChained, s.estimate⟩

/-- A branch of the machine goes with the same branch of the scan. -/
theorem Leaves.ite {c : Prop} [Decidable c] {src : List UInt8} {pos : Nat} {x y : Checked Machine}
    {r r' : Scan × List UInt8} (hx : c → Leaves src pos x r.1.machine r.2)
    (hy : ¬c → Leaves src pos y r'.1.machine r'.2) :
    Leaves src pos (if c then x else y) (if c then r else r').1.machine
      (if c then r else r').2 := by
  by_cases hc : c
  · rw [if_pos hc, if_pos hc]
    exact hx hc
  · rw [if_neg hc, if_neg hc]
    exact hy hc

/-! ## The operations of a balanced scan -/

namespace Scan.Balanced

variable {s : Scan}

theorem check_machine (h : s.Balanced) (pos : Nat) : (s.machine pos).check = .ok () :=
  if_pos h

theorem top_machine (h : s.Balanced) (pos : Nat) : (s.machine pos).top = .ok s.frames.top :=
  bind_eq_ok_iff.mpr ⟨(), h.check_machine pos, rfl⟩

theorem record_machine (h : s.Balanced) (pos : Nat) :
    (s.machine pos).record = .ok (s.record.machine pos) := by
  refine bind_eq_ok_iff.mpr ⟨(), h.check_machine pos, ?_⟩
  refine bind_eq_ok_iff.mpr ⟨s.frames.height, ?_, rfl⟩
  have hheight : (s.machine pos).levels.length = s.frames.height + 1 := by
    rw [s.frames.height_eq]
    rfl
  rw [hheight]
  exact without_of_le (Nat.le_add_left 1 _)

theorem closeUnary_machine (h : s.Balanced) (pos : Nat) :
    (s.machine pos).closeUnary = .ok (s.closeUnary.machine pos) := by
  refine bind_eq_ok_iff.mpr ⟨_, h.top_machine pos, ?_⟩
  exact bind_eq_ok_iff.mpr ⟨_, without_of_le h.unary_le, rfl⟩

theorem closeElement_machine (h : s.Balanced) (pos : Nat) :
    (s.machine pos).closeElement = .ok (s.closeElement.machine pos) := by
  refine bind_eq_ok_iff.mpr ⟨_, h.top_machine pos, ?_⟩
  refine bind_eq_ok_iff.mpr ⟨_, without_of_le h.descent_le, ?_⟩
  exact bind_eq_ok_iff.mpr ⟨_, without_of_le h.chain_le, rfl⟩

theorem closeStatement_machine (h : s.Balanced) (pos : Nat) :
    (s.machine pos).closeStatement = .ok (s.closeStatement.machine pos) := by
  refine bind_eq_ok_iff.mpr ⟨_, h.closeElement_machine pos, ?_⟩
  refine bind_eq_ok_iff.mpr ⟨_, h.closeElement.top_machine pos, ?_⟩
  exact bind_eq_ok_iff.mpr ⟨_, without_of_le h.closeElement.commas_le, rfl⟩

theorem addUnary_machine (h : s.Balanced) (pos : Nat) :
    (s.machine pos).addUnary = .ok (s.addUnary.machine pos) := by
  refine bind_eq_ok_iff.mpr ⟨_, h.top_machine pos, ?_⟩
  have hadded : Scan.Balanced
      { s with
        frames := s.frames.setTop { s.frames.top with unary := s.frames.top.unary + 1 }
        sumDescent := s.sumDescent + 1 } := h.addUnary
  exact hadded.record_machine pos

theorem addRight_machine (h : s.Balanced) (pos : Nat) :
    (s.machine pos).addRight = .ok (s.addRight.machine pos) := by
  refine bind_eq_ok_iff.mpr ⟨_, h.closeUnary_machine pos, ?_⟩
  refine bind_eq_ok_iff.mpr ⟨_, h.closeUnary.top_machine pos, ?_⟩
  have hadded : Scan.Balanced
      { s.closeUnary with
        frames := s.closeUnary.frames.setTop
          { s.closeUnary.frames.top with right := s.closeUnary.frames.top.right + 1 }
        sumDescent := s.closeUnary.sumDescent + 1 } := h.addRight
  exact hadded.record_machine pos

theorem addChain_machine (h : s.Balanced) (pos : Nat) :
    (s.machine pos).addChain = .ok (s.addChain.machine pos) := by
  refine bind_eq_ok_iff.mpr ⟨_, h.top_machine pos, ?_⟩
  have hadded : Scan.Balanced
      { s with
        frames := s.frames.setTop { s.frames.top with chain := s.frames.top.chain + 1 }
        sumChained := s.sumChained + 1 } := h.addChain
  exact hadded.record_machine pos

theorem addBinary_machine (h : s.Balanced) (pos : Nat) :
    (s.machine pos).addBinary = .ok (s.addBinary.machine pos) :=
  bind_eq_ok_iff.mpr ⟨_, h.closeUnary_machine pos, h.closeUnary.addChain_machine pos⟩

theorem addComma_machine (h : s.Balanced) (pos : Nat) :
    (s.machine pos).addComma = .ok (s.addComma.machine pos) := by
  refine bind_eq_ok_iff.mpr ⟨_, h.top_machine pos, ?_⟩
  have hadded : Scan.Balanced
      { s with
        frames := s.frames.setTop { s.frames.top with commas := s.frames.top.commas + 1 }
        sumChained := s.sumChained + 1 } := h.addComma
  exact hadded.record_machine pos

theorem push_machine (h : s.Balanced) {opening : Opening} (hopening : opening ≠ .root)
    (pos : Nat) : (s.machine pos).push opening = .ok ((s.push opening).machine pos) := by
  refine bind_eq_ok_iff.mpr ⟨(), h.check_machine pos, ?_⟩
  have hpushed : Scan.Balanced { s with frames := s.frames.push opening } := h.push hopening
  exact hpushed.record_machine pos

theorem pop_machine (h : s.Balanced) (pos : Nat) :
    (s.machine pos).pop = .ok (s.pop.1, s.pop.2.machine pos) := by
  refine bind_eq_ok_iff.mpr ⟨(), h.check_machine pos, ?_⟩
  have hdescent := h.descent_le
  have hchained := h.chained_le
  obtain ⟨⟨top, below, height, heq⟩, e, newline, d, c, estimate⟩ := s
  cases below with
  | nil => rfl
  | cons next rest =>
    refine bind_eq_ok_iff.mpr ⟨_, without_of_le hdescent, ?_⟩
    exact bind_eq_ok_iff.mpr ⟨_, without_of_le hchained, rfl⟩

theorem ite_machine {c : Prop} [Decidable c] {x y : Checked Machine} {s t : Scan} {pos : Nat}
    (hx : c → x = .ok (s.machine pos)) (hy : ¬c → y = .ok (t.machine pos)) :
    (if c then x else y) = .ok ((if c then s else t).machine pos) := by
  by_cases hc : c
  · rw [if_pos hc, if_pos hc]
    exact hx hc
  · rw [if_neg hc, if_neg hc]
    exact hy hc

theorem expecting_machine {x : Checked Machine} {pos : Nat} (h : x = .ok (s.machine pos))
    (e : Expect) : (do return (← x).expecting e) = Except.ok ((s.expecting e).machine pos) :=
  bind_eq_ok_iff.mpr ⟨_, h, rfl⟩

theorem startOperand_machine (h : s.Balanced) (pos : Nat) :
    (s.machine pos).startOperand = .ok (s.startOperand.machine pos) := by
  have hscan : s.startOperand =
      if s.newline && s.expect == .operator then
        if s.frames.top.holdsStatements then s.closeStatement.expecting .statement else s
      else s := by
    rw [Scan.startOperand]
    cases s.newline && s.expect == .operator <;> rfl
  rw [hscan]
  refine ite_machine (fun _ => ?_) (fun _ => rfl)
  refine bind_eq_ok_iff.mpr ⟨_, h.top_machine pos, ?_⟩
  exact ite_machine (fun _ => expecting_machine (h.closeStatement_machine pos) _) (fun _ => rfl)

/-! ## Tokens of a balanced scan -/

theorem word_machine (h : s.Balanced) (w : String) (pos : Nat) :
    (s.machine pos).word w = .ok ((s.word w).machine pos) := by
  have hoperand := h.startOperand_machine pos
  refine ite_machine (fun _ => rfl) (fun _ => ?_)
  cases WordClass.of w with
  | relation =>
    exact ite_machine (fun _ => expecting_machine (h.addBinary_machine pos) _)
      (fun _ => expecting_machine hoperand _)
  | unary =>
    refine bind_eq_ok_iff.mpr ⟨_, hoperand, ?_⟩
    exact expecting_machine (h.startOperand.addUnary_machine pos) _
  | head =>
    refine bind_eq_ok_iff.mpr ⟨_, hoperand, ?_⟩
    exact expecting_machine (h.startOperand.addRight_machine pos) _
  | value => exact expecting_machine hoperand _
  | opening => exact expecting_machine hoperand _
  | plain => exact expecting_machine hoperand _

theorem mark_machine (h : s.Balanced) (m : MarkClass) (pos : Nat) :
    (s.machine pos).mark m = .ok ((s.mark m).machine pos) := by
  have hoperand := h.startOperand_machine pos
  cases m with
  | semicolon => exact expecting_machine (h.closeStatement_machine pos) _
  | comma =>
    refine bind_eq_ok_iff.mpr ⟨_, h.closeElement_machine pos, ?_⟩
    refine bind_eq_ok_iff.mpr ⟨_, h.closeElement.top_machine pos, ?_⟩
    refine expecting_machine (ite_machine (fun _ => ?_) (fun _ => rfl)) _
    exact h.closeElement.addComma_machine pos
  | point => exact expecting_machine (h.addChain_machine pos) _
  | arrow => exact expecting_machine (h.addRight_machine pos) _
  | rightAssociative => exact expecting_machine (h.addRight_machine pos) _
  | not =>
    refine bind_eq_ok_iff.mpr ⟨_, hoperand, ?_⟩
    exact expecting_machine (h.startOperand.addUnary_machine pos) _
  | update =>
    refine bind_eq_ok_iff.mpr ⟨_, hoperand, ?_⟩
    exact ite_machine (fun _ => rfl)
      (fun _ => expecting_machine (h.startOperand.addUnary_machine pos) _)
  | sign =>
    exact ite_machine (fun _ => expecting_machine (h.addBinary_machine pos) _)
      (fun _ => expecting_machine (h.addUnary_machine pos) _)
  | separator => rfl
  | binary => exact expecting_machine (h.addBinary_machine pos) _

theorem openParen_machine (h : s.Balanced) (pos : Nat) :
    (s.machine pos).openParen = .ok (s.openParen.machine pos) := by
  refine expecting_machine (ite_machine (fun _ => ?_) (fun _ => ?_)) _
  · exact bind_eq_ok_iff.mpr ⟨_, h.addChain_machine pos, h.addChain.push_machine (by decide) pos⟩
  · exact h.push_machine (by decide) pos

theorem openBracket_machine (h : s.Balanced) (pos : Nat) :
    (s.machine pos).openBracket = .ok (s.openBracket.machine pos) := by
  have hbegun : Scan.Balanced (if s.expect == .operator then s.addChain else s.startOperand) := by
    split
    · exact h.addChain
    · exact h.startOperand
  refine bind_eq_ok_iff.mpr ⟨_, ite_machine (fun _ => h.addChain_machine pos)
    (fun _ => h.startOperand_machine pos), ?_⟩
  exact expecting_machine (hbegun.push_machine (by decide) pos) _

theorem openBrace_machine (h : s.Balanced) (pos : Nat) :
    (s.machine pos).openBrace = .ok (s.openBrace.machine pos) :=
  ite_machine (fun _ => expecting_machine (h.push_machine (by decide) pos) _)
    (fun _ => expecting_machine (h.push_machine (by decide) pos) _)

theorem closeGroup_machine (h : s.Balanced) (pos : Nat) :
    (s.machine pos).closeGroup = .ok (s.closeGroup.machine pos) :=
  bind_eq_ok_iff.mpr ⟨_, h.pop_machine pos, rfl⟩

/-! ## Tokens with a text of their own -/

section

variable {src rest : List UInt8} {pos : Nat} {b : UInt8}

theorem template_machine (h : s.Balanced) (hsrc : src.drop pos = rest) :
    Leaves src pos ((s.machine pos).template src) (s.template rest).1.machine
      (s.template rest).2 := by
  obtain ⟨stop, htext, hstop, hrest⟩ := leaves_templateEnd src pos
  rw [hsrc] at htext hrest
  rw [Scan.template]
  cases hend : skipTemplate rest with
  | mk templateEnd rest' =>
    rw [hend] at htext hrest
    refine ⟨stop, bind_eq_ok_iff.mpr ⟨_, htext, ?_⟩, hstop, ?_⟩
    · cases templateEnd with
      | closed => rfl
      | expression => exact expecting_machine (h.push_machine (by decide) stop) _
    · cases templateEnd with
      | closed => exact hrest
      | expression => exact hrest

theorem closeBrace_machine (h : s.Balanced) (hsrc : src.drop pos = rest) :
    Leaves src pos ((s.machine pos).closeBrace src) (s.closeBrace rest).1.machine
      (s.closeBrace rest).2 := by
  have hbalanced := h.pop
  have hmachine := h.pop_machine pos
  rw [Scan.closeBrace]
  cases hpop : s.pop with
  | mk opening t =>
    rw [hpop] at hbalanced hmachine
    rw [Machine.closeBrace, hmachine]
    cases opening with
    | none => exact .here rfl hsrc
    | some opening =>
      cases opening with
      | template => exact hbalanced.template_machine hsrc
      | block =>
        refine .here (bind_eq_ok_iff.mpr ⟨_, rfl, ?_⟩) hsrc
        refine bind_eq_ok_iff.mpr ⟨_, hbalanced.top_machine pos, ?_⟩
        refine expecting_machine (ite_machine (fun _ => ?_) (fun _ => rfl)) _
        exact hbalanced.closeStatement_machine pos
      | root | paren | arguments | array | object => exact .here rfl hsrc

theorem readWord_machine (h : s.Balanced) (hsrc : src.drop pos = b :: rest)
    (hb : isWordByte b = true) :
    Leaves src (pos + 1) ((s.machine pos).readWord src)
      (s.word (textOf (b :: rest.takeWhile isWordByte))).machine (rest.dropWhile isWordByte) := by
  have hpos := Nat.le_of_lt (lt_length_of_drop hsrc)
  have hstop := whileEnd_eq isWordByte hsrc
  have htext := sliceAt_whileEnd isWordByte hsrc hpos
  have hrest := drop_whileEnd isWordByte hsrc
  rw [List.takeWhile_cons, if_pos hb] at hstop htext hrest
  rw [List.dropWhile_cons, if_pos hb] at hrest
  refine ⟨_, bind_eq_ok_iff.mpr ⟨_, hstop, ?_⟩, ?_, hrest⟩
  · exact bind_eq_ok_iff.mpr ⟨_, htext, h.word_machine _ _⟩
  · rw [List.length_cons]
    omega

theorem length_pos_of_mem_marks : ∀ text ∈ marks, 0 < text.length := by decide

theorem readMark_machine (h : s.Balanced) (hsrc : src.drop pos = b :: rest) :
    Leaves src (pos + 1) ((s.machine pos).readMark src)
      (match readMark (b :: rest) with
        | (some mark, rest) => (s.mark mark, rest)
        | (none, rest) => (s, rest)).1.machine
      (match readMark (b :: rest) with
        | (some mark, rest) => (s.mark mark, rest)
        | (none, rest) => (s, rest)).2 := by
  have hsuffix : suffixAt src (s.machine pos).pos = .ok (b :: rest) := suffixAt_of_drop hsrc
  rw [Machine.readMark, readMark, hsuffix]
  cases hfind : marks.find?
    (·.isPrefixOf (((b :: rest).take 4).map fun b => Char.ofNat b.toNat)) with
  | none =>
    refine ⟨pos + 1, bind_eq_ok_iff.mpr ⟨_, rfl, ?_⟩, Nat.le_refl _, drop_succ_of_drop hsrc⟩
    simp only [hfind]
    rfl
  | some text =>
    have hlength := length_pos_of_mem_marks text (List.mem_of_find?_eq_some hfind)
    have hrest : src.drop (pos + text.length) = (b :: rest).drop text.length := by
      rw [← List.drop_drop, hsrc]
    refine ⟨pos + text.length, bind_eq_ok_iff.mpr ⟨_, rfl, ?_⟩, by omega, hrest⟩
    simp only [hfind]
    exact h.mark_machine _ _

/-! ## One iteration -/

theorem token_machine (h : s.Balanced) (hsrc : src.drop pos = b :: rest) :
    Leaves src (pos + 1) ((s.machine pos).token src) (s.token b rest).1.machine
      (s.token b rest).2 := by
  have hbyte : byteAt src (s.machine pos).pos = .ok b := byteAt_of_drop hsrc
  have hnext : src[(s.machine pos).pos + 1]? = rest.head? := getElem?_succ_of_drop hsrc
  have hsucc := drop_succ_of_drop hsrc
  have hoperand := h.startOperand_machine pos
  unfold Machine.token Scan.token
  rw [hbyte, hnext]
  refine .ite (fun _ => ?_) fun _ => ?_
  · obtain ⟨stop, hstring, hstop, hrest⟩ := leaves_stringEnd src b (pos + 1)
    rw [hsucc] at hrest
    refine ⟨stop, bind_eq_ok_iff.mpr ⟨_, hoperand, ?_⟩, hstop, hrest⟩
    exact bind_eq_ok_iff.mpr ⟨_, hstring, rfl⟩
  refine .ite (fun _ => ?_) fun _ => ?_
  · obtain ⟨stop, htemplate, hstop, hrest⟩ := h.startOperand.template_machine hsucc
    exact ⟨stop, bind_eq_ok_iff.mpr ⟨_, hoperand, htemplate⟩, hstop, hrest⟩
  refine .ite (fun hnumber => ?_) fun _ => ?_
  · have hb : (isWordByte b || b == 0x2E) = true := by
      obtain hdigit | hpoint := Bool.or_eq_true_iff.mp hnumber
      · rw [isWordByte_of_isDigitByte hdigit, Bool.true_or]
      · rw [(Bool.and_eq_true_iff.mp hpoint).1, Bool.or_true]
    obtain ⟨stop, hloop, hstop, hrest⟩ :=
      leaves_whileEnd_cons (fun b => isWordByte b || b == 0x2E) hsrc hb
    refine ⟨stop, bind_eq_ok_iff.mpr ⟨_, hoperand, ?_⟩, hstop, hrest⟩
    exact bind_eq_ok_iff.mpr ⟨_, hloop, rfl⟩
  refine .ite (fun _ => .here (h.openParen_machine _) hsucc) fun _ => ?_
  refine .ite (fun _ => .here (h.openBracket_machine _) hsucc) fun _ => ?_
  refine .ite (fun _ => .here (h.openBrace_machine _) hsucc) fun _ => ?_
  refine .ite (fun _ => .here (h.closeGroup_machine _) hsucc) fun _ => ?_
  refine .ite (fun _ => h.closeBrace_machine hsucc) fun _ => ?_
  refine .ite (fun _ => ?_) fun _ => ?_
  · obtain ⟨stop, hregExp, hstop, hrest⟩ := leaves_regExpEnd src (pos + 1)
    rw [hsucc] at hrest
    refine ⟨stop, bind_eq_ok_iff.mpr ⟨_, hoperand, ?_⟩, hstop, hrest⟩
    exact bind_eq_ok_iff.mpr ⟨_, hregExp, rfl⟩
  exact .ite (fun hb => h.readWord_machine hsrc hb) fun _ => h.readMark_machine hsrc

end

end Scan.Balanced

end ScriptFeatures.Nesting
