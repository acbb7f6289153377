import ScriptFeatures.Proofs.Script.Lowering
import ScriptFeatures.Script.EarlyErrors
import ScriptFeatures.Script.Parser.Grammar

/-! Chains of conditionals. `if(0);else if(0);else … ;` nests one statement for each `else`, and the
text says so without a bracket that stays open. The text of a chain is read (`parse_elseText`),
checked (`check_elseScript`) and lowered (`depth_elseScript`) to a tree that is as deep as the chain
is long. -/

namespace ScriptFeatures.Script

open ScriptFeatures.Tree

/-- The text of `n` conditionals, each but the first in the `else` branch of the one before it. -/
def elseText : Nat → List Char
  | 0 => [';']
  | n + 1 => ['i', 'f', '(', '0', ')', ';', 'e', 'l', 's', 'e', ' '] ++ elseText n

/-- The statement that the text writes. -/
def elseChain : Nat → Statement
  | 0 => .empty
  | n + 1 => .choose (.literal (.number "0" false)) .empty (.present (elseChain n))

/-- The script that holds nothing else. -/
def elseScript (n : Nat) : Program :=
  ⟨false, [elseChain n]⟩

theorem length_elseText (n : Nat) : (elseText n).length = 11 * n + 1 := by
  induction n with
  | zero => rfl
  | succ n ih =>
    rw [elseText, List.length_append, ih]
    simp only [List.length_cons, List.length_nil]
    omega

/-! ## Running the parser -/

namespace Parser

theorem bind_ok {α β : Type} {x : Parse α} {f : α → Parse β} {a : α} {s s' : Cursor}
    (h : x s = .ok (a, s')) : (x >>= f) s = f a s' := by
  have hbind : (x >>= f) s = (x s >>= fun r => f r.1 r.2) := rfl
  rw [hbind, h]
  rfl

theorem get_ok (s : Cursor) : (get : Parse Cursor) s = .ok (s, s) := rfl

theorem advance_ok {s s' : Cursor} (h : Cursor.at? s.size s.rest = some s') :
    advance s = .ok ((), s') := by
  rw [advance, bind_ok (get_ok s)]
  simp only [h]
  rfl

theorem eatWord_ok {word : String} {s s' : Cursor} (hword : s.token = .word word false)
    (h : Cursor.at? s.size s.rest = some s') : eatWord word s = .ok (true, s') := by
  have hat : atWord word s = .ok (true, s) := by
    have htoken : (s.token == .word word false) = true := beq_iff_eq.mpr hword
    rw [← htoken]
    rfl
  rw [eatWord, bind_ok hat, if_pos rfl, bind_ok (advance_ok h)]
  rfl

theorem loop_twice {σ α : Type} {step : σ → Parse (σ ⊕ α)} {a b : σ} {r : α} {s t u : Cursor}
    (hmore : step a s = .ok (.inl b, t)) (hdone : step b t = .ok (.inr r, u)) :
    loop a step s = .ok (r, u) := by
  have hloop : loop a step s = loopFrom step (s.size + 2) a s := rfl
  rw [hloop, loopFrom, hmore]
  simp only [loopFrom, hdone]

/-! ## Reading a chain -/

/-- What follows the word at the head of a chain. -/
def afterIf (n : Nat) : List Char :=
  ['(', '0', ')', ';', 'e', 'l', 's', 'e', ' '] ++ elseText n

/-- The cursor at the head of a chain. -/
def elseCursor (size : Nat) : Nat → Cursor
  | 0 => ⟨.mark ";", false, elseText 0, [], size⟩
  | n + 1 => ⟨.word "if" false, false, elseText (n + 1), afterIf n, size⟩

/-- The cursor at the end of a text. -/
def endCursor (size : Nat) : Cursor :=
  ⟨.eof, false, [], [], size⟩

theorem at?_elseText (size n : Nat) :
    Cursor.at? (size + 4) (elseText n) = some (elseCursor (size + 4) n) := by
  cases n <;> rfl

theorem at?_space (size : Nat) (text : List Char) :
    Cursor.at? size (' ' :: text) = Cursor.at? size text := rfl

/-- The condition of each conditional, read with its parentheses. -/
theorem condition_zero (d size : Nat) (c : Context) (rest : List Char) :
    condition (grammar (d + 1)) c
        ⟨.mark "(", false, '(' :: '0' :: ')' :: ';' :: rest, '0' :: ')' :: ';' :: rest, size⟩ =
      .ok (.literal (.number "0" false), ⟨.mark ";", false, ';' :: rest, rest, size⟩) := rfl

theorem statement_empty {g : Grammar} {c : Context} {here rest : List Char} {size : Nat}
    {next : Cursor} (h : Cursor.at? size rest = some next) :
    statement g c ⟨.mark ";", false, here, rest, size⟩ = .ok (.empty, next) := by
  rw [statement, bind_ok (get_ok _)]
  exact bind_ok (advance_ok h)

/-- A conditional, after its word, around the statement that its `else` branch holds. -/
theorem ifStatement_zero {d size : Nat} {c : Context} {rest text : List Char}
    {next final : Cursor} {no : Statement}
    (hrest : Cursor.at? size rest = some ⟨.word "else" false, false, rest, text, size⟩)
    (hnext : Cursor.at? size text = some next)
    (hno : statement (grammar d) c next = .ok (no, final)) :
    ifStatement (grammar (d + 1)) c
        ⟨.mark "(", false, '(' :: '0' :: ')' :: ';' :: rest, '0' :: ')' :: ';' :: rest, size⟩ =
      .ok (.choose (.literal (.number "0" false)) .empty (.present no), final) := by
  have hcondition := condition_zero d size c rest
  have hyes : grammar (d + 1) (.statement c) ⟨.mark ";", false, ';' :: rest, rest, size⟩ =
      .ok (.empty, ⟨.word "else" false, false, rest, text, size⟩) := statement_empty hrest
  have helse : eatWord "else" ⟨.word "else" false, false, rest, text, size⟩ = .ok (true, next) :=
    eatWord_ok rfl hnext
  rw [ifStatement, bind_ok hcondition, bind_ok hyes, bind_ok helse, if_pos rfl]
  exact bind_ok hno

/-- A chain is read as the statement that it writes, up to the end of the text. -/
theorem statement_elseCursor (d size : Nat) (c : Context) (n : Nat) :
    statement (grammar (n + d)) c (elseCursor (size + 4) n) =
      .ok (elseChain n, endCursor (size + 4)) := by
  induction n with
  | zero => exact statement_empty rfl
  | succ n ih =>
    have hopen : Cursor.at? (size + 4) (afterIf n) =
        some ⟨.mark "(", false, afterIf n, (afterIf n).tail, size + 4⟩ := rfl
    have helse : Cursor.at? (size + 4) ((afterIf n).drop 4) =
        some ⟨.word "else" false, false, (afterIf n).drop 4, ' ' :: elseText n, size + 4⟩ := rfl
    have hnext : Cursor.at? (size + 4) (' ' :: elseText n) = some (elseCursor (size + 4) n) := by
      rw [at?_space, at?_elseText]
    have hword : statement (grammar (n + d + 1)) c (elseCursor (size + 4) (n + 1)) =
        (advance >>= fun _ => ifStatement (grammar (n + d + 1)) c)
          (elseCursor (size + 4) (n + 1)) := rfl
    rw [Nat.add_right_comm, hword, bind_ok (advance_ok hopen)]
    exact ifStatement_zero helse hnext ih

theorem listItem_elseCursor (g : Grammar) (size : Nat) (c : Context) (n : Nat) :
    listItem g c (elseCursor size n) = statement g c (elseCursor size n) := by
  cases n <;> rfl

/-- The statements of a text that holds a chain alone. -/
theorem statementsUntil_elseCursor (d size : Nat) (n : Nat) :
    statementsUntil (grammar (n + d + 1)) .top .eof (elseCursor (size + 4) n) =
      .ok (([elseChain n], false), endCursor (size + 4)) := by
  have hitem : grammar (n + d + 1) (.listItem .top) (elseCursor (size + 4) n) =
      .ok (elseChain n, endCursor (size + 4)) :=
    (listItem_elseCursor _ _ _ n).trans (statement_elseCursor d size .top n)
  have hplain : directive? (elseChain n) = none := by cases n <;> rfl
  have htoken : ((elseCursor (size + 4) n).token == Token.eof) = false := by cases n <;> rfl
  -- the second step finds the end of the text
  refine loop_twice (b := ⟨[elseChain n], false, false⟩) (t := endCursor (size + 4)) ?_ rfl
  rw [bind_ok (get_ok _), htoken, if_neg Bool.false_ne_true, bind_ok hitem, hplain]
  rfl

/-- The text of a chain is a script that holds the chain alone. -/
theorem parse_elseText (n : Nat) : parse (elseText (n + 1)) = .ok (elseScript (n + 1)) := by
  -- the fuel of the grammar is three times the length, far more than one goal for each conditional
  have hsize : (elseText (n + 1)).length = 11 * n + 8 + 4 := by rw [length_elseText]; omega
  have hdepth : 3 * (11 * n + 8 + 4) + 4 = n + 1 + (32 * n + 38) + 1 := by omega
  have hstart : dropInterpreter (elseText (n + 1)) = elseText (n + 1) := rfl
  have hscript : script (11 * n + 8 + 4) (elseCursor (11 * n + 8 + 4) (n + 1)) =
      .ok (elseScript (n + 1), endCursor (11 * n + 8 + 4)) := by
    rw [script, hdepth, bind_ok (statementsUntil_elseCursor (32 * n + 38) (11 * n + 8) (n + 1))]
    rfl
  rw [parse, hsize, hstart, at?_elseText]
  simp only [StateT.run', hscript]
  rfl

end Parser

/-! ## Checking and lowering a chain -/

theorem check_elseChain (s : Surroundings) (n : Nat) : (elseChain n).check s = .ok () := by
  -- a number that is not octal passes in strict and in sloppy code
  induction n with
  | zero => rfl
  | succ n ih =>
    have htest : checkOctal s.strict false = .ok () := by
      rw [checkOctal, Bool.and_false]
      rfl
    have hcheck : (elseChain (n + 1)).check s = (do
        checkOctal s.strict false
        pure ()
        (elseChain n).check s) := rfl
    rw [hcheck, htest, ih]
    rfl

/-- A chain breaks no rule beyond the grammar. -/
theorem check_elseScript (n : Nat) : (elseScript n).check = .ok () := by
  have hnames : checkTopNames (Phrase.cons (elseChain n) .nil) = .ok () := by cases n <;> rfl
  have hchain := check_elseChain (.top false) n
  have hcheck : (elseScript n).check = (do
      checkTopNames (Phrase.cons (elseChain n) .nil)
      (elseChain n).check (.top false)
      pure ()) := rfl
  rw [hcheck, hnames, hchain]
  rfl

/-- What a chain adds to the tree. -/
def elseGrowth : Nat → Growth
  | 0 => .node .emptyStatement []
  | n + 1 => .node .ifStatement [.node .literal [], .node .emptyStatement [], elseGrowth n]

theorem lower_elseChain (n : Nat) (before : List Growth) :
    (elseChain n).lower before = elseGrowth n :: before := by
  induction n generalizing before with
  | zero => rfl
  | succ n ih =>
    have hlower : (elseChain (n + 1)).lower before = branch .ifStatement
        ((elseChain n).lower [.node .emptyStatement [], .node .literal []]) :: before := rfl
    rw [hlower, ih]
    rfl

theorem height_elseGrowth (n : Nat) :
    (elseGrowth n).height = n + 1 ∧ (elseGrowth n).entered = n + 1 := by
  induction n with
  | zero => exact ⟨rfl, rfl⟩
  | succ n ih =>
    simp only [elseGrowth, Growth.height, Growth.entered, Growth.heightAll, Growth.enteredAll, ih]
    omega

/-- The tree of a chain has one level for each conditional, and two more for the script and the
statement in the last branch. No leaf is part of it. -/
theorem depth_elseScript (n : Nat) :
    (elseScript n).tree.depth = n + 2 ∧ (elseScript n).checkedDepth = n + 2 := by
  obtain ⟨hheight, hentered⟩ := height_elseGrowth n
  have hgrowths : (elseScript n).growths = [elseGrowth n] := by
    rw [Program.growths, growthsOf, elseScript, List.foldl_cons, lower_elseChain]
    rfl
  have hstatements : (elseScript n).statements ≠ [] := List.cons_ne_nil _ _
  rw [Program.tree, SyntaxTree.depth_grow, Program.checkedDepth, if_neg hstatements, hgrowths,
    Growth.heightAll, Growth.enteredAll, hheight, hentered]
  exact ⟨rfl, rfl⟩

end ScriptFeatures.Script
