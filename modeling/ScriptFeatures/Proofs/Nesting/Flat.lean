import Mathlib.Data.Finset.Lattice.Fold
import Mathlib.Data.Fintype.Basic
import Mathlib.Order.Lattice.Nat
import ScriptFeatures.Proofs.Nesting.Operator
import ScriptFeatures.Proofs.Nesting.Sequence

/-! Expressions without brackets, `x = - a + b ** typeof c`. An operator before an operand is open
until the next binary operator, an operator that groups to the right until the end, and one that
groups to the left adds to the depth only. So the estimate is the maximum over the operands of the
operators before each of them (`estimate_flat`). -/

namespace ScriptFeatures.Nesting

/-! ## The texts -/

/-- One or more blanks on a line. -/
structure Blanks where
  text : List Char
  ne_nil : text ≠ []
  blank : ∀ c ∈ text, c ∈ [' ', '\t', '\x0b', '\x0c']

/-- An operator before an operand and the blanks behind it. -/
structure Unary where
  operator : String
  mem : operator ∈ unaryOperators
  blanks : Blanks

/-- A name with operators before it. -/
structure Operand where
  unaries : List Unary
  name : Name

/-- A binary operator. -/
inductive Binary
  | left (operator : String) (mem : operator ∈ leftOperators)
  | right (operator : String) (mem : operator ∈ rightOperators)

/-- A binary operator with the blanks around it, and its second operand. -/
structure Link where
  before : Blanks
  binary : Binary
  after : Blanks
  operand : Operand

/-- An expression without brackets. -/
structure Flat where
  first : Operand
  links : List Link

def Unary.text (u : Unary) : List Char :=
  u.operator.toList ++ u.blanks.text

/-- How many operators stand before the name. -/
def Operand.count (x : Operand) : Nat :=
  x.unaries.length

def Operand.text (x : Operand) : List Char :=
  x.unaries.flatMap Unary.text ++ x.name.text

namespace Binary

def text : Binary → List Char
  | left operator _ | right operator _ => operator.toList

/-- One for an operator that groups to the right. -/
def rights : Binary → Nat
  | left _ _ => 0
  | right _ _ => 1

end Binary

def Link.text (l : Link) : List Char :=
  l.before.text ++ l.binary.text ++ l.after.text ++ l.operand.text

namespace Flat

def text (e : Flat) : List Char :=
  e.first.text ++ e.links.flatMap Link.text

def operands (e : Flat) : List Operand :=
  e.first :: e.links.map Link.operand

/-- How many of the first `i` binary operators group to the right. -/
def rights (e : Flat) (i : Nat) : Nat :=
  ((e.links.take i).map (·.binary.rights)).sum

end Flat

/-! ## The deepest operand -/

/-- The maximum over the operands of the operators before each of them, where binary operators have
weights and those before the first operand count `before`. -/
def deepestOperand (weight : Link → Nat) : Nat → Operand → List Link → Nat
  | before, x, [] => before + x.count
  | before, x, l :: links =>
    max (before + x.count) (deepestOperand weight (before + weight l) l.operand links)

theorem le_deepestOperand (weight : Link → Nat) (before : Nat) (x : Operand) (links : List Link) :
    before ≤ deepestOperand weight before x links := by
  cases links with
  | nil => exact Nat.le_add_right before x.count
  | cons => exact Nat.le_trans (Nat.le_add_right before x.count) (Nat.le_max_left _ _)

theorem sup_univ_succ {n : Nat} (f : Fin (n + 1) → Nat) :
    Finset.univ.sup f = max (f 0) (Finset.univ.sup fun i : Fin n => f i.succ) := by
  rw [Fin.univ_succ, Finset.sup_cons, Finset.sup_map]
  rfl

theorem deepestOperand_eq_sup (weight : Link → Nat) (before : Nat) (x : Operand)
    (links : List Link) :
    deepestOperand weight before x links =
      Finset.univ.sup fun i : Fin (x :: links.map Link.operand).length =>
        before + ((links.take i).map weight).sum + (x :: links.map Link.operand)[i].count := by
  induction links generalizing before x with
  | nil =>
    refine Eq.trans ?_ (sup_univ_succ (n := 0) _).symm
    simp [deepestOperand]
  | cons l links ih =>
    rw [deepestOperand, ih]
    refine Eq.trans ?_ (sup_univ_succ (n := ((l :: links).map Link.operand).length) _).symm
    refine congrArg (max (before + x.count)) (Finset.sup_congr rfl fun i _ => ?_)
    have hsum : before + (((l :: links).take i.succ).map weight).sum =
        before + weight l + ((links.take i).map weight).sum := (Nat.add_assoc _ _ _).symm
    exact congrArg (· + (l.operand :: links.map Link.operand)[i].count) hsum.symm

/-! ## The bytes of the texts -/

namespace Blanks

variable (blanks : Blanks)

theorem exists_utf8 :
    ∃ c rest, utf8 blanks.text = c :: rest ∧ ∀ b ∈ c :: rest, b ∈ lineBlanks := by
  have hchar : ∀ c ∈ [' ', '\t', '\x0b', '\x0c'], String.utf8EncodeChar c = [UInt8.ofNat c.toNat] ∧
      UInt8.ofNat c.toNat ∈ lineBlanks := List.all_iff_forall_prop.mp (by decide)
  have hall : ∀ b ∈ utf8 blanks.text, b ∈ lineBlanks := by
    intro b hb
    obtain ⟨c, hc, hb⟩ := List.mem_flatMap.mp hb
    obtain ⟨hbyte, hmem⟩ := hchar c (blanks.blank c hc)
    rw [hbyte, List.mem_singleton] at hb
    rwa [hb]
  obtain ⟨c, text, htext⟩ := List.exists_cons_of_ne_nil blanks.ne_nil
  have hc := (hchar c (blanks.blank c (htext ▸ List.mem_cons_self))).1
  have hbytes : utf8 blanks.text = UInt8.ofNat c.toNat :: utf8 text := by
    rw [htext, utf8, List.flatMap_cons, hc]
    rfl
  exact ⟨_, _, hbytes, hbytes ▸ hall⟩

end Blanks

theorem gaps_lineBlanks {bytes : List UInt8} (hbytes : ∀ b ∈ bytes, b ∈ lineBlanks)
    (newline : Bool) (text : List UInt8) : Gaps newline (bytes ++ text) newline text := by
  induction bytes with
  | nil => exact .refl _ _
  | cons b bytes ih =>
    rw [List.forall_mem_cons] at hbytes
    have hall : ∀ b ∈ lineBlanks, isBlankByte b = true ∧ isBreakByte b = false :=
      List.all_iff_forall_prop.mp (by decide)
    obtain ⟨hblank, hbreak⟩ := hall b hbytes.1
    refine .blank hblank ?_
    rw [hbreak, Bool.or_false]
    exact ih hbytes.2

theorem takeWhile_utf8_blanks (blanks : Blanks) (text : List UInt8) :
    (utf8 blanks.text ++ text).takeWhile isWordByte = [] := by
  obtain ⟨c, rest, hbytes, hall⟩ := blanks.exists_utf8
  have hc : ¬isWordByte c = true := by
    rw [isWordByte_of_mem_lineBlanks c (hall c List.mem_cons_self)]
    exact Bool.false_ne_true
  rw [hbytes, List.cons_append, List.takeWhile_cons_of_neg hc]

namespace Scan

/-! ## The states -/

/-- The levels of an open expression. -/
def reached (unary right chain : Nat) : Estimate :=
  ⟨unary + right, unary + right + chain⟩

/-- The state in an expression on the level of the whole script. -/
def inFlat (unary right chain : Nat) (e : Expect) (found : Estimate) : Scan :=
  ⟨Frames.root.setTop ⟨.root, unary, right, chain, 0⟩, e, false, unary + right, chain, found⟩

variable {unary right chain : Nat} {e : Expect} {found : Estimate} {text : List UInt8}

theorem balanced_inFlat : (inFlat unary right chain e found).Balanced where
  bottom := rfl
  above := List.not_mem_nil
  descent := rfl
  chained := rfl

theorem start_eq_inFlat : start = inFlat 0 0 0 .statement ⟨0, 0⟩ := rfl

theorem max_reached (found : Estimate) (unary right chain : Nat) :
    max found (reached unary right chain) =
      ⟨max found.descent (unary + right), max found.depth (unary + right + chain)⟩ := rfl

theorem addUnary_inFlat : (inFlat unary right chain e found).addUnary =
    inFlat (unary + 1) right chain e (max found (reached (unary + 1) right chain)) := by
  have hsum : unary + right + 1 = unary + 1 + right := by omega
  simp [inFlat, addUnary, record, Frames.setTop, Frames.root, max_reached, hsum]

theorem addRight_inFlat : (inFlat unary right chain e found).addRight =
    inFlat 0 (right + 1) chain e (max found (reached 0 (right + 1) chain)) := by
  simp [inFlat, addRight, closeUnary, record, Frames.setTop, Frames.root, max_reached]

theorem addBinary_inFlat : (inFlat unary right chain e found).addBinary =
    inFlat 0 right (chain + 1) e (max found (reached 0 right (chain + 1))) := by
  simp [inFlat, addBinary, addChain, closeUnary, record, Frames.setTop, Frames.root, max_reached]

/-! ## Steps over an expression -/

theorem estimate_finish_lineBlanks {s : Scan} (hs : s.Balanced) (blanks : Blanks) :
    (s.finish (utf8 blanks.text ++ text)).estimate = (s.finish text).estimate := by
  obtain ⟨c, rest, hbytes, hall⟩ := blanks.exists_utf8
  rw [hbytes]
  exact hs.estimate_finish_gap (gaps_lineBlanks hall s.newline text).skipGap_eq

theorem estimate_finish_operator {s t : Scan} {o : List Char} (hs : s.Balanced) (blanks : Blanks)
    (hstep : ∀ c ∈ lineBlanks, ∀ rest, s.step (utf8 o ++ c :: rest) = some (t, c :: rest)) :
    (s.finish (utf8 o ++ (utf8 blanks.text ++ text))).estimate = (t.finish text).estimate := by
  obtain ⟨c, rest, hbytes, hall⟩ := blanks.exists_utf8
  have hfirst := hstep c (hall c List.mem_cons_self) (rest ++ text)
  rw [← List.cons_append, ← hbytes] at hfirst
  rw [hs.finish_step hfirst]
  exact estimate_finish_lineBlanks (hs.step hfirst).1 blanks

theorem estimate_finish_unaries (unaries : List Unary) (he : e = .statement ∨ e = .operand)
    (hfound : max found (reached unary right chain) = found) (text : List UInt8) :
    ∃ e', (e' = .statement ∨ e' = .operand) ∧
      ((inFlat unary right chain e found).finish
        (utf8 (unaries.flatMap Unary.text) ++ text)).estimate =
      ((inFlat (unary + unaries.length) right chain e'
        (max found (reached (unary + unaries.length) right chain))).finish text).estimate := by
  -- What has been found covers what is open, so without an operator nothing is raised.
  induction unaries generalizing unary e found with
  | nil =>
    refine ⟨e, he, ?_⟩
    rw [List.length_nil, Nat.add_zero, hfound]
    rfl
  | cons u unaries ih =>
    have hstep : ∀ c ∈ lineBlanks, ∀ rest,
        (inFlat unary right chain e found).step (utf8 u.operator.toList ++ c :: rest) =
          some (inFlat (unary + 1) right chain .operand
            (max found (reached (unary + 1) right chain)), c :: rest) := by
      intro c hc rest
      rw [step_unaryOperator u.mem he rfl hc, addUnary_inFlat]
      rfl
    obtain ⟨e', he', hothers⟩ := ih (.inr rfl) (Estimate.max_max_self _ _)
    refine ⟨e', he', ?_⟩
    have hmax : max (max found (reached (unary + 1) right chain))
        (reached (unary + 1 + unaries.length) right chain) =
        max found (reached (unary + (u :: unaries).length) right chain) := by
      simp only [max_reached, List.length_cons, Estimate.mk.injEq]
      omega
    have hlength : unary + 1 + unaries.length = unary + (u :: unaries).length := by
      rw [List.length_cons]
      omega
    rw [List.flatMap_cons, Unary.text, utf8_append, utf8_append, List.append_assoc,
      List.append_assoc, estimate_finish_operator balanced_inFlat u.blanks hstep, hothers, hmax,
      hlength]

theorem estimate_finish_operand (x : Operand) (hx : x.name.Unbraced)
    (he : e = .statement ∨ e = .operand) (hfound : max found (reached 0 right chain) = found)
    (hafter : text.takeWhile isWordByte = []) :
    ((inFlat 0 right chain e found).finish (utf8 x.text ++ text)).estimate =
      ((inFlat x.count right chain .operator
        (max found (reached x.count right chain))).finish text).estimate := by
  obtain ⟨e', he', hunaries⟩ := estimate_finish_unaries x.unaries he hfound (x.name.bytes ++ text)
  rw [Nat.zero_add] at hunaries
  have hrest : text.dropWhile isWordByte = text := by
    have hsplit := List.takeWhile_append_dropWhile (p := isWordByte) (l := text)
    rwa [hafter] at hsplit
  have hbalanced : (inFlat x.count right chain e'
      (max found (reached x.count right chain))).Balanced := balanced_inFlat
  have hname := (Name.holds hx hafter).estimate_finish hbalanced nofun
  rw [Operand.text, utf8_append, List.append_assoc]
  refine hunaries.trans (hname.trans ?_)
  rw [Kind.rest, hrest]
  obtain rfl | rfl := he' <;> rfl

theorem estimate_finish_binary (l : Link) (unary right chain : Nat) (found : Estimate)
    (text : List UInt8) :
    ∃ chain', l.binary.rights + chain' = chain + 1 ∧
      ((inFlat unary right chain .operator found).finish
        (utf8 l.before.text ++ (utf8 l.binary.text ++ (utf8 l.after.text ++ text)))).estimate =
      ((inFlat 0 (right + l.binary.rights) chain' .operand
        (max found (reached 0 (right + l.binary.rights) chain'))).finish text).estimate := by
  rw [estimate_finish_lineBlanks balanced_inFlat]
  -- Either way the operators before the first operand are closed, and one more is open.
  cases l.binary with
  | left o ho =>
    refine ⟨chain + 1, Nat.zero_add _, estimate_finish_operator balanced_inFlat l.after ?_⟩
    intro c hc rest
    rw [Binary.text, step_leftOperator ho rfl hc, addBinary_inFlat]
    rfl
  | right o ho =>
    refine ⟨chain, Nat.add_comm _ _, estimate_finish_operator balanced_inFlat l.after ?_⟩
    intro c hc rest
    rw [Binary.text, step_rightOperator ho rfl hc, addRight_inFlat]
    rfl

/-! ## The estimate -/

theorem estimate_finish_flat (x : Operand) (links : List Link) (hx : x.name.Unbraced)
    (hlinks : ∀ l ∈ links, l.operand.name.Unbraced) (he : e = .statement ∨ e = .operand)
    (hfound : max found (reached 0 right chain) = found) :
    ((inFlat 0 right chain e found).finish
      (utf8 x.text ++ utf8 (links.flatMap Link.text))).estimate =
      max found ⟨deepestOperand (·.binary.rights) right x links,
        deepestOperand (fun _ => 1) (right + chain) x links⟩ := by
  induction links generalizing right chain e found x with
  | nil =>
    rw [List.flatMap_nil, estimate_finish_operand x hx he hfound rfl, deepestOperand,
      deepestOperand, Nat.add_comm right, Nat.add_comm (right + chain), ← Nat.add_assoc]
    rfl
  | cons l links ih =>
    rw [List.forall_mem_cons] at hlinks
    obtain ⟨chain', hchain, hbinary⟩ := estimate_finish_binary l x.count right chain
      (max found (reached x.count right chain))
      (utf8 l.operand.text ++ utf8 (links.flatMap Link.text))
    rw [List.flatMap_cons, Link.text]
    simp only [utf8_append, List.append_assoc]
    rw [estimate_finish_operand x hx he hfound (takeWhile_utf8_blanks l.before _), hbinary,
      ih l.operand hlinks.1 hlinks.2 (.inr rfl) (Estimate.max_max_self _ _), deepestOperand,
      deepestOperand]
    have htotal : right + l.binary.rights + chain' = right + chain + 1 := by omega
    rw [htotal]
    -- What is open behind the operator is no deeper than the operand that follows it.
    have hdescent := le_deepestOperand (·.binary.rights) (right + l.binary.rights) l.operand links
    have hdepth := le_deepestOperand (fun _ => 1) (right + chain + 1) l.operand links
    simp only [Estimate.max_def, reached, Estimate.mk.injEq]
    omega

end Scan

theorem deepestOperand_rights (e : Flat) :
    deepestOperand (·.binary.rights) 0 e.first e.links =
      Finset.univ.sup fun i : Fin e.operands.length => e.rights i + e.operands[i].count := by
  rw [deepestOperand_eq_sup]
  refine Finset.sup_congr rfl fun i _ => ?_
  exact congrArg (· + e.operands[i].count) (Nat.zero_add (e.rights i))

theorem deepestOperand_one (e : Flat) :
    deepestOperand (fun _ => 1) 0 e.first e.links =
      Finset.univ.sup fun i : Fin e.operands.length => i + e.operands[i].count := by
  rw [deepestOperand_eq_sup]
  refine Finset.sup_congr rfl fun i _ => ?_
  have hle : i.val ≤ e.links.length := by
    have hlt : i.val < (e.links.map Link.operand).length + 1 := i.isLt
    rw [List.length_map] at hlt
    exact Nat.le_of_lt_succ hlt
  have hsum : 0 + ((e.links.take i).map fun _ => 1).sum = i.val := by
    rw [Nat.zero_add, List.map_const', List.sum_replicate_nat, List.length_take,
      Nat.min_eq_left hle, Nat.mul_one]
  exact congrArg (· + e.operands[i].count) hsum

/-- The levels of an expression without brackets: the descent counts the operators before an operand
and those before it that group to the right, the depth also those that group to the left. -/
theorem estimate_flat (e : Flat) (h : ∀ x ∈ e.operands, x.name.Unbraced) :
    estimate (String.ofList e.text) =
      ⟨Finset.univ.sup fun i : Fin e.operands.length => e.rights i + e.operands[i].count,
        Finset.univ.sup fun i : Fin e.operands.length => i + e.operands[i].count⟩ := by
  have hlinks : ∀ l ∈ e.links, l.operand.name.Unbraced := fun l hl =>
    h _ (List.mem_cons_of_mem _ (List.mem_map_of_mem hl))
  have hbytes : (String.ofList e.text).toUTF8.toList =
      utf8 e.first.text ++ utf8 (e.links.flatMap Link.text) := by
    rw [Text.toUTF8_ofList, ← utf8_append]
    rfl
  rw [estimate, hbytes, Scan.estimateBytes_eq, Scan.start_eq_inFlat,
    Scan.estimate_finish_flat e.first e.links (h _ List.mem_cons_self) hlinks (.inl rfl) rfl,
    deepestOperand_rights, deepestOperand_one, Estimate.max_def, Nat.zero_max, Nat.zero_max]

def Blanks.space : Blanks :=
  ⟨[' '], by decide, List.all_iff_forall_prop.mp (by decide)⟩

/-- The expression `a = b + ! c`. -/
def assignment : Flat :=
  ⟨⟨[], ⟨['a'], ⟨"a", false, by decide⟩, by decide⟩⟩,
    [⟨.space, .right "=" (by decide), .space, ⟨[], ⟨['b'], ⟨"b", false, by decide⟩, by decide⟩⟩⟩,
      ⟨.space, .left "+" (by decide), .space,
        ⟨[⟨"!", by decide, .space⟩], ⟨['c'], ⟨"c", false, by decide⟩, by decide⟩⟩⟩]⟩

/-- Two operators are open before `c`, and one more chains to the left. -/
theorem estimate_flat_assignment :
    (∀ x ∈ assignment.operands, x.name.Unbraced) ∧ estimate "a = b + ! c" = ⟨2, 3⟩ := by
  have hnames : ∀ x ∈ assignment.operands, x.name.Unbraced := by decide
  exact ⟨hnames, estimate_flat assignment hnames⟩

/-! ## Names with braces -/

/-- The name `a`, written as an escape with braces. -/
def escapedName : Name :=
  ⟨['\\', 'u', '\x7b', '6', '1', '\x7d'], ⟨"a", true, by decide⟩, by decide⟩

def escapedLink : Link :=
  ⟨.space, .left "+" (by decide), .space, ⟨[], escapedName⟩⟩

/-- A sum of `n + 2` such names. -/
def escapedSum (n : Nat) : Flat :=
  ⟨⟨[], escapedName⟩, List.replicate (n + 1) escapedLink⟩

namespace Scan

/-- The state in the braces of such a name. -/
def inBraces (unary : Nat) (e : Expect) (found : Estimate) : Scan :=
  ⟨(Frames.root.setTop ⟨.root, unary, 0, 0, 0⟩).push .block, e, false, unary, 0, found⟩

/-- The braces close what was open before them. -/
theorem estimate_finish_escapedName (he : e = .statement ∨ e = .operand) :
    ((inFlat unary 0 0 e found).finish (escapedName.bytes ++ text)).estimate =
      ((inFlat 0 0 0 .statement (max found ⟨1 + unary, 1 + unary⟩)).finish text).estimate := by
  have hword : (inFlat unary 0 0 e found).step (escapedName.bytes ++ text) =
      some (inFlat unary 0 0 .operator found, 0x7B :: 0x36 :: 0x31 :: 0x7D :: text) := by
    obtain rfl | rfl := he <;> rfl
  have hopen : (inFlat unary 0 0 .operator found).step (0x7B :: 0x36 :: 0x31 :: 0x7D :: text) =
      some (inBraces unary .statement (max found ⟨1 + unary, 1 + unary⟩),
        0x36 :: 0x31 :: 0x7D :: text) := rfl
  have hdigits (found : Estimate) :
      (inBraces unary .statement found).step (0x36 :: 0x31 :: 0x7D :: text) =
      some (inBraces unary .operator found, 0x7D :: text) := rfl
  have hclose (found : Estimate) : (inBraces unary .operator found).step (0x7D :: text) =
      some (⟨.root, .statement, false, unary - 0 - (unary + 0), 0, found⟩, text) := rfl
  have hzero : unary - 0 - (unary + 0) = 0 := by omega
  rw [hzero] at hclose
  have hsteps := Steps.next hword (.next hopen (.next (hdigits _) (.single (hclose _))))
  rw [hsteps.finish_eq balanced_inFlat]
  rfl

/-- A sign before braces is counted as an operator before an operand. -/
theorem estimate_finish_escapedLink :
    ((inFlat 0 0 0 .statement found).finish (utf8 escapedLink.text ++ text)).estimate =
      ((inFlat 0 0 0 .statement (max found ⟨2, 2⟩)).finish text).estimate := by
  have hsign : ∀ c ∈ lineBlanks, ∀ rest,
      (inFlat 0 0 0 .statement found).step (utf8 "+".toList ++ c :: rest) =
        some (inFlat 1 0 0 .operand (max found ⟨1, 1⟩), c :: rest) := by
    intro c hc rest
    rw [step_unaryOperator (by decide) (.inl rfl) rfl hc, addUnary_inFlat]
    rfl
  have hmax : max (max found ⟨1, 1⟩) ⟨1 + 1, 1 + 1⟩ = max found ⟨2, 2⟩ := by
    rw [Estimate.max_assoc]
    rfl
  have hbytes : utf8 escapedLink.text = utf8 Blanks.space.text ++
      (utf8 "+".toList ++ (utf8 Blanks.space.text ++ escapedName.bytes)) := by decide
  rw [hbytes, List.append_assoc, List.append_assoc, List.append_assoc,
    estimate_finish_lineBlanks balanced_inFlat,
    estimate_finish_operator balanced_inFlat .space hsign,
    estimate_finish_escapedName (.inr rfl), hmax]

theorem estimate_finish_escapedLinks (n : Nat) (hfound : max found ⟨2, 2⟩ = ⟨2, 2⟩) :
    ((inFlat 0 0 0 .statement found).finish
      (utf8 ((List.replicate (n + 1) escapedLink).flatMap Link.text))).estimate = ⟨2, 2⟩ := by
  induction n generalizing found with
  | zero =>
    rw [List.replicate_succ, List.flatMap_cons, utf8_append, estimate_finish_escapedLink, hfound]
    rfl
  | succ n ih =>
    rw [List.replicate_succ, List.flatMap_cons, utf8_append, estimate_finish_escapedLink, hfound]
    exact ih rfl

end Scan

/-- The braces of a name are counted as a block, and its end closes what was open. So no sum of such
names has more than two levels. -/
theorem estimate_escapedSum (n : Nat) :
    estimate (String.ofList (escapedSum n).text) = ⟨2, 2⟩ := by
  have hbytes : (String.ofList (escapedSum n).text).toUTF8.toList =
      escapedName.bytes ++ utf8 ((List.replicate (n + 1) escapedLink).flatMap Link.text) := by
    rw [Text.toUTF8_ofList]
    exact utf8_append escapedName.text _
  rw [estimate, hbytes, Scan.estimateBytes_eq, Scan.start_eq_inFlat,
    Scan.estimate_finish_escapedName (.inl rfl)]
  exact Scan.estimate_finish_escapedLinks n rfl

/-- The operators before a name with braces are not what is counted. -/
theorem not_estimate_flat : ¬∀ e : Flat,
    estimate (String.ofList e.text) =
      ⟨Finset.univ.sup fun i : Fin e.operands.length => e.rights i + e.operands[i].count,
        Finset.univ.sup fun i : Fin e.operands.length => i + e.operands[i].count⟩ := by
  intro hall
  have hsum := hall (escapedSum 0)
  rw [estimate_escapedSum] at hsum
  exact absurd hsum (by decide)

end ScriptFeatures.Nesting
