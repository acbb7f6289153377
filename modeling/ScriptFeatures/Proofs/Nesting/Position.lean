import ScriptFeatures.Nesting.Skip

/-! Skipping with positions. The functions that skip literals, words and gaps are given the rest of
the text and return what they leave of it. Here the text stays whole and a position moves over it,
and every access is checked: a byte must lie in the text, a slice must not reach beyond its end. A
backslash moves the position by two, so a text that ends in one is left with the position behind its
end.

Each function over positions ends without a fault, at or after the position it began at, where the
rest of the text is what its counterpart returns. -/

namespace ScriptFeatures.Nesting

theorem isWordByte_of_isDigitByte {b : UInt8} (hb : isDigitByte b = true) :
    isWordByte b = true := by
  rw [isDigitByte] at hb
  simp [isWordByte, hb]

/-- What stops a checked scan: an access outside the text, a counter that is taken more from than it
holds, a stack without a level, or a stack to which the sums of its counters do not belong. -/
inductive Fault
  | outside
  | underflow
  | noLevel
  | unbalanced
  deriving DecidableEq, Repr

/-- A computation that a fault may stop. -/
abbrev Checked (α : Type) : Type :=
  Except Fault α

/-! ## Accesses -/

/-- The byte at a position. -/
def byteAt (src : List UInt8) (pos : Nat) : Checked UInt8 :=
  match src[pos]? with
  | some b => .ok b
  | none => .error .outside

/-- The text from a position on. -/
def suffixAt (src : List UInt8) (pos : Nat) : Checked (List UInt8) :=
  if pos ≤ src.length then .ok (src.drop pos) else .error .outside

/-- The text between two positions. -/
def sliceAt (src : List UInt8) (start stop : Nat) : Checked (List UInt8) :=
  if start ≤ stop ∧ stop ≤ src.length then .ok ((src.drop start).take (stop - start))
  else .error .outside

section

variable {src rest : List UInt8} {pos : Nat} {b : UInt8}

theorem lt_length_of_drop (h : src.drop pos = b :: rest) : pos < src.length := by
  have := congrArg List.length h
  rw [List.length_drop, List.length_cons] at this
  omega

theorem not_lt_of_drop (h : src.drop pos = []) : ¬pos < src.length :=
  Nat.not_lt.mpr (List.drop_eq_nil_iff.mp h)

theorem getElem?_of_drop (h : src.drop pos = b :: rest) : src[pos]? = some b := by
  rw [← List.head?_drop, h]
  rfl

theorem byteAt_of_drop (h : src.drop pos = b :: rest) : byteAt src pos = .ok b := by
  rw [byteAt, getElem?_of_drop h]

theorem suffixAt_of_drop (h : src.drop pos = b :: rest) : suffixAt src pos = .ok (b :: rest) := by
  rw [suffixAt, if_pos (Nat.le_of_lt (lt_length_of_drop h)), h]

theorem drop_succ_of_drop (h : src.drop pos = b :: rest) : src.drop (pos + 1) = rest := by
  rw [← List.drop_drop, h]
  rfl

theorem getElem?_succ_of_drop (h : src.drop pos = b :: rest) : src[pos + 1]? = rest.head? := by
  rw [← drop_succ_of_drop h, List.head?_drop]

end

/-! ## Loops -/

/-- The first position from `pos` on at which a byte does not have a property. -/
def whileEnd (src : List UInt8) (p : UInt8 → Bool) (pos : Nat) : Checked Nat :=
  if _h : pos < src.length then do
    if p (← byteAt src pos) then whileEnd src p (pos + 1) else return pos
  else return pos
termination_by src.length - pos

/-- The position after white space and comments, and whether they held a line feed or a carriage
return. -/
def gapEnd (src : List UInt8) (gap : Gap) (newline : Bool) (pos : Nat) : Checked (Bool × Nat) :=
  if _h : pos < src.length then do
    let b ← byteAt src pos
    match gap with
    | .between =>
      if b == 0x2F && src[pos + 1]? == some 0x2F then gapEnd src .line newline (pos + 2)
      else if b == 0x2F && src[pos + 1]? == some 0x2A then gapEnd src .block newline (pos + 2)
      else if isBreakByte b then gapEnd src .between true (pos + 1)
      else if b == 0x20 || b == 0x09 || b == 0x0B || b == 0x0C then
        gapEnd src .between newline (pos + 1)
      else return (newline, pos)
    | .line =>
      if isBreakByte b then gapEnd src .between true (pos + 1)
      else gapEnd src .line newline (pos + 1)
    | .block =>
      if [0x2A, 0x2F].isPrefixOf (← suffixAt src pos) then gapEnd src .between newline (pos + 2)
      else gapEnd src .block (newline || isBreakByte b) (pos + 1)
  else return (newline, pos)
termination_by src.length - pos

/-- The position after a string literal, given that after its opening quote. -/
def stringEnd (src : List UInt8) (quote : UInt8) (pos : Nat) : Checked Nat :=
  if _h : pos < src.length then do
    let b ← byteAt src pos
    if b == 0x5C then stringEnd src quote (pos + 2)
    else if isBreakByte b then return pos
    else if b == quote then return pos + 1
    else stringEnd src quote (pos + 1)
  else return pos
termination_by src.length - pos

/-- The position after the text of a template, and how the text ends. -/
def templateEnd (src : List UInt8) (pos : Nat) : Checked (TemplateEnd × Nat) :=
  if _h : pos < src.length then do
    let b ← byteAt src pos
    if b == 0x5C then templateEnd src (pos + 2)
    else if b == 0x60 then return (.closed, pos + 1)
    else if b == 0x24 && src[pos + 1]? == some 0x7B then return (.expression, pos + 2)
    else templateEnd src (pos + 1)
  else return (.closed, pos)
termination_by src.length - pos

/-- The position after the body of a regular expression, and whether a slash closes it. -/
def regExpBodyEnd (src : List UInt8) (inClass : Bool) (pos : Nat) : Checked (Nat × Bool) :=
  if _h : pos < src.length then do
    let b ← byteAt src pos
    if b == 0x5C then regExpBodyEnd src inClass (pos + 2)
    else if isBreakByte b then return (pos, false)
    else if b == 0x5B then regExpBodyEnd src true (pos + 1)
    else if b == 0x5D then regExpBodyEnd src false (pos + 1)
    else if b == 0x2F && !inClass then return (pos + 1, true)
    else regExpBodyEnd src inClass (pos + 1)
  else return (pos, false)
termination_by src.length - pos

/-- The position after a regular expression and its flags. -/
def regExpEnd (src : List UInt8) (pos : Nat) : Checked Nat := do
  match ← regExpBodyEnd src false pos with
  | (pos, true) => whileEnd src isWordByte pos
  | (pos, false) => return pos

/-! ## What the loops leave -/

section

variable {src text rest : List UInt8} {pos : Nat} {b : UInt8}

theorem whileEnd_eq (p : UInt8 → Bool) (h : src.drop pos = text) :
    whileEnd src p pos = .ok (pos + (text.takeWhile p).length) := by
  induction text generalizing pos with
  | nil =>
    rw [whileEnd, dif_neg (not_lt_of_drop h)]
    rfl
  | cons b rest ih =>
    rw [whileEnd, dif_pos (lt_length_of_drop h), byteAt_of_drop h, List.takeWhile_cons]
    show (if p b then whileEnd src p (pos + 1) else .ok pos) = _
    cases p b with
    | true =>
      rw [if_pos rfl, if_pos rfl, ih (drop_succ_of_drop h), List.length_cons]
      congr 1
      omega
    | false => rfl

theorem drop_whileEnd (p : UInt8 → Bool) (h : src.drop pos = text) :
    src.drop (pos + (text.takeWhile p).length) = text.dropWhile p := by
  have := @List.drop_left _ (text.takeWhile p) (text.dropWhile p)
  rwa [List.takeWhile_append_dropWhile, ← h, List.drop_drop, h] at this

theorem sliceAt_whileEnd (p : UInt8 → Bool) (h : src.drop pos = text) (hpos : pos ≤ src.length) :
    sliceAt src pos (pos + (text.takeWhile p).length) = .ok (text.takeWhile p) := by
  have hle : (text.takeWhile p).length ≤ src.length - pos := by
    rw [← List.length_drop, h]
    exact (List.takeWhile_prefix p).length_le
  rw [sliceAt, if_pos ⟨Nat.le_add_right _ _, by omega⟩, h, Nat.add_sub_cancel_left,
    ← List.prefix_iff_eq_take.mp (List.takeWhile_prefix p)]

/-- A loop that begins at `pos` ends without a fault, no earlier than there. What it returns says
where, and the text from there on is `rest`. -/
def Leaves {α : Type} (src : List UInt8) (pos : Nat) (loop : Checked α) (value : Nat → α)
    (rest : List UInt8) : Prop :=
  ∃ stop, loop = .ok (value stop) ∧ pos ≤ stop ∧ src.drop stop = rest

namespace Leaves

variable {α : Type} {value : Nat → α} {loop : Checked α}

theorem here (hloop : loop = .ok (value pos)) (h : src.drop pos = text) :
    Leaves src pos loop value text :=
  ⟨pos, hloop, Nat.le_refl pos, h⟩

theorem later {next : Nat} (hnext : pos ≤ next) (h : Leaves src next loop value rest) :
    Leaves src pos loop value rest := by
  obtain ⟨stop, hloop, hstop, hrest⟩ := h
  exact ⟨stop, hloop, Nat.le_trans hnext hstop, hrest⟩

end Leaves

/-- A loop over bytes with a property leaves none of them behind. -/
theorem leaves_whileEnd_cons (p : UInt8 → Bool) (h : src.drop pos = b :: rest) (hb : p b = true) :
    Leaves src (pos + 1) (whileEnd src p pos) id (rest.dropWhile p) := by
  have hrest := drop_whileEnd p h
  rw [List.dropWhile_cons, if_pos hb] at hrest
  refine ⟨_, whileEnd_eq p h, ?_, hrest⟩
  rw [List.takeWhile_cons, if_pos hb, List.length_cons]
  omega

end

/-! ## Strings -/

section

variable {src rest : List UInt8} {pos : Nat} {b : UInt8}

theorem drop_two_of_drop (h : src.drop pos = b :: rest) : src.drop (pos + 2) = rest.tail := by
  rw [← List.drop_drop, h, List.drop_succ_cons, List.drop_one]

theorem skipString_cons (quote : UInt8) :
    skipString quote (b :: rest) =
      if b == 0x5C then skipString quote rest.tail
      else if isBreakByte b then b :: rest
      else if b == quote then rest
      else skipString quote rest := by
  by_cases hb : b = 0x5C
  · subst hb
    cases rest <;> rfl
  · simp [skipString, hb]

theorem stringEnd_cons (quote : UInt8) (h : src.drop pos = b :: rest) :
    stringEnd src quote pos =
      if b == 0x5C then stringEnd src quote (pos + 2)
      else if isBreakByte b then .ok pos
      else if b == quote then .ok (pos + 1)
      else stringEnd src quote (pos + 1) := by
  rw [stringEnd, dif_pos (lt_length_of_drop h), byteAt_of_drop h]
  rfl

theorem leaves_stringEnd (src : List UInt8) (quote : UInt8) (pos : Nat) :
    Leaves src pos (stringEnd src quote pos) id (skipString quote (src.drop pos)) := by
  cases h : src.drop pos with
  | nil =>
    refine .here ?_ h
    rw [stringEnd, dif_neg (not_lt_of_drop h)]
    rfl
  | cons b rest =>
    have hlt := lt_length_of_drop h
    have hsucc := drop_succ_of_drop h
    rw [stringEnd_cons quote h, skipString_cons]
    split
    · rw [← drop_two_of_drop h]
      exact .later (Nat.le_add_right pos 2) (leaves_stringEnd src quote (pos + 2))
    split
    · exact .here rfl h
    split
    · exact .later (Nat.le_succ pos) (.here rfl hsucc)
    · rw [← hsucc]
      exact .later (Nat.le_succ pos) (leaves_stringEnd src quote (pos + 1))
termination_by src.length - pos

/-! ## Templates -/

theorem skipTemplate_cons :
    skipTemplate (b :: rest) =
      if b == 0x5C then skipTemplate rest.tail
      else if b == 0x60 then (.closed, rest)
      else if b == 0x24 && rest.head? == some 0x7B then (.expression, rest.tail)
      else skipTemplate rest := by
  by_cases hb : b = 0x5C
  · subst hb
    cases rest <;> rfl
  by_cases hclosed : b = 0x60
  · subst hclosed
    rfl
  by_cases hopen : b = 0x24
  · subst hopen
    cases rest with
    | nil => rfl
    | cons c rest =>
      by_cases hc : c = 0x7B
      · subst hc
        rfl
      · simp [skipTemplate, hc]
  · simp [skipTemplate, hb, hclosed, hopen]

theorem templateEnd_cons (h : src.drop pos = b :: rest) :
    templateEnd src pos =
      if b == 0x5C then templateEnd src (pos + 2)
      else if b == 0x60 then .ok (.closed, pos + 1)
      else if b == 0x24 && rest.head? == some 0x7B then .ok (.expression, pos + 2)
      else templateEnd src (pos + 1) := by
  rw [templateEnd, dif_pos (lt_length_of_drop h), byteAt_of_drop h, getElem?_succ_of_drop h]
  rfl

theorem leaves_templateEnd (src : List UInt8) (pos : Nat) :
    Leaves src pos (templateEnd src pos) ((skipTemplate (src.drop pos)).1, ·)
      (skipTemplate (src.drop pos)).2 := by
  cases h : src.drop pos with
  | nil =>
    refine .here ?_ h
    rw [templateEnd, dif_neg (not_lt_of_drop h)]
    rfl
  | cons b rest =>
    have hlt := lt_length_of_drop h
    have hsucc := drop_succ_of_drop h
    have htwo := drop_two_of_drop h
    rw [templateEnd_cons h, skipTemplate_cons]
    split
    · rw [← htwo]
      exact .later (Nat.le_add_right pos 2) (leaves_templateEnd src (pos + 2))
    split
    · exact .later (Nat.le_succ pos) (.here rfl hsucc)
    split
    · exact .later (Nat.le_add_right pos 2) (.here rfl htwo)
    · rw [← hsucc]
      exact .later (Nat.le_succ pos) (leaves_templateEnd src (pos + 1))
termination_by src.length - pos

/-! ## Regular expressions -/

theorem skipRegExpBody_cons (inClass : Bool) :
    skipRegExpBody inClass (b :: rest) =
      if b == 0x5C then skipRegExpBody inClass rest.tail
      else if isBreakByte b then (b :: rest, false)
      else if b == 0x5B then skipRegExpBody true rest
      else if b == 0x5D then skipRegExpBody false rest
      else if b == 0x2F && !inClass then (rest, true)
      else skipRegExpBody inClass rest := by
  by_cases hb : b = 0x5C
  · subst hb
    cases rest <;> rfl
  · simp [skipRegExpBody, hb]

theorem regExpBodyEnd_cons (inClass : Bool) (h : src.drop pos = b :: rest) :
    regExpBodyEnd src inClass pos =
      if b == 0x5C then regExpBodyEnd src inClass (pos + 2)
      else if isBreakByte b then .ok (pos, false)
      else if b == 0x5B then regExpBodyEnd src true (pos + 1)
      else if b == 0x5D then regExpBodyEnd src false (pos + 1)
      else if b == 0x2F && !inClass then .ok (pos + 1, true)
      else regExpBodyEnd src inClass (pos + 1) := by
  rw [regExpBodyEnd, dif_pos (lt_length_of_drop h), byteAt_of_drop h]
  rfl

theorem leaves_regExpBodyEnd (src : List UInt8) (inClass : Bool) (pos : Nat) :
    Leaves src pos (regExpBodyEnd src inClass pos) (·, (skipRegExpBody inClass (src.drop pos)).2)
      (skipRegExpBody inClass (src.drop pos)).1 := by
  cases h : src.drop pos with
  | nil =>
    refine .here ?_ h
    rw [regExpBodyEnd, dif_neg (not_lt_of_drop h)]
    rfl
  | cons b rest =>
    have hlt := lt_length_of_drop h
    have hsucc := drop_succ_of_drop h
    rw [regExpBodyEnd_cons inClass h, skipRegExpBody_cons]
    split
    · rw [← drop_two_of_drop h]
      exact .later (Nat.le_add_right pos 2) (leaves_regExpBodyEnd src inClass (pos + 2))
    split
    · exact .here rfl h
    split
    · rw [← hsucc]
      exact .later (Nat.le_succ pos) (leaves_regExpBodyEnd src true (pos + 1))
    split
    · rw [← hsucc]
      exact .later (Nat.le_succ pos) (leaves_regExpBodyEnd src false (pos + 1))
    split
    · exact .later (Nat.le_succ pos) (.here rfl hsucc)
    · rw [← hsucc]
      exact .later (Nat.le_succ pos) (leaves_regExpBodyEnd src inClass (pos + 1))
termination_by src.length - pos

theorem leaves_regExpEnd (src : List UInt8) (pos : Nat) :
    Leaves src pos (regExpEnd src pos) id (skipRegExp (src.drop pos)) := by
  obtain ⟨stop, hbody, hstop, hrest⟩ := leaves_regExpBodyEnd src false pos
  rw [skipRegExp, regExpEnd, hbody]
  cases hclosed : skipRegExpBody false (src.drop pos) with
  | mk rest closed =>
    rw [hclosed] at hrest
    cases closed with
    | true => exact .later hstop ⟨_, whileEnd_eq isWordByte hrest, Nat.le_add_right _ _,
        drop_whileEnd isWordByte hrest⟩
    | false => exact .later hstop (.here rfl hrest)

/-! ## White space and comments -/

theorem skipGap_between_cons (newline : Bool) :
    skipGap .between newline (b :: rest) =
      if b == 0x2F && rest.head? == some 0x2F then skipGap .line newline rest.tail
      else if b == 0x2F && rest.head? == some 0x2A then skipGap .block newline rest.tail
      else if isBreakByte b then skipGap .between true rest
      else if b == 0x20 || b == 0x09 || b == 0x0B || b == 0x0C then skipGap .between newline rest
      else (newline, b :: rest) := by
  by_cases hb : b = 0x2F
  · subst hb
    cases rest with
    | nil => rfl
    | cons c rest =>
      by_cases hline : c = 0x2F
      · subst hline
        rfl
      by_cases hblock : c = 0x2A
      · subst hblock
        rfl
      · simp [skipGap, hline, hblock]
  · simp [skipGap, hb]

theorem skipGap_block_cons (newline : Bool) :
    skipGap .block newline (b :: rest) =
      if [0x2A, 0x2F].isPrefixOf (b :: rest) then skipGap .between newline rest.tail
      else skipGap .block (newline || isBreakByte b) rest := by
  by_cases hb : b = 0x2A
  · subst hb
    cases rest with
    | nil => rfl
    | cons c rest =>
      by_cases hc : c = 0x2F
      · subst hc
        rfl
      · simp [skipGap, hc, Ne.symm hc]
  · simp [skipGap, hb, Ne.symm hb]

theorem gapEnd_between_cons (newline : Bool) (h : src.drop pos = b :: rest) :
    gapEnd src .between newline pos =
      if b == 0x2F && rest.head? == some 0x2F then gapEnd src .line newline (pos + 2)
      else if b == 0x2F && rest.head? == some 0x2A then gapEnd src .block newline (pos + 2)
      else if isBreakByte b then gapEnd src .between true (pos + 1)
      else if b == 0x20 || b == 0x09 || b == 0x0B || b == 0x0C then
        gapEnd src .between newline (pos + 1)
      else .ok (newline, pos) := by
  rw [gapEnd, dif_pos (lt_length_of_drop h), byteAt_of_drop h, getElem?_succ_of_drop h]
  rfl

theorem gapEnd_line_cons (newline : Bool) (h : src.drop pos = b :: rest) :
    gapEnd src .line newline pos =
      if isBreakByte b then gapEnd src .between true (pos + 1)
      else gapEnd src .line newline (pos + 1) := by
  rw [gapEnd, dif_pos (lt_length_of_drop h), byteAt_of_drop h]
  rfl

theorem gapEnd_block_cons (newline : Bool) (h : src.drop pos = b :: rest) :
    gapEnd src .block newline pos =
      if [0x2A, 0x2F].isPrefixOf (b :: rest) then gapEnd src .between newline (pos + 2)
      else gapEnd src .block (newline || isBreakByte b) (pos + 1) := by
  rw [gapEnd, dif_pos (lt_length_of_drop h), byteAt_of_drop h, suffixAt_of_drop h]
  rfl

theorem leaves_gapEnd (src : List UInt8) (gap : Gap) (newline : Bool) (pos : Nat) :
    Leaves src pos (gapEnd src gap newline pos) ((skipGap gap newline (src.drop pos)).1, ·)
      (skipGap gap newline (src.drop pos)).2 := by
  cases h : src.drop pos with
  | nil =>
    refine .here ?_ h
    rw [gapEnd, dif_neg (not_lt_of_drop h)]
    cases gap <;> rfl
  | cons b rest =>
    have hlt := lt_length_of_drop h
    have hsucc := drop_succ_of_drop h
    have htwo := drop_two_of_drop h
    cases gap with
    | between =>
      rw [gapEnd_between_cons newline h, skipGap_between_cons]
      split
      · rw [← htwo]
        exact .later (Nat.le_add_right pos 2) (leaves_gapEnd src .line newline (pos + 2))
      split
      · rw [← htwo]
        exact .later (Nat.le_add_right pos 2) (leaves_gapEnd src .block newline (pos + 2))
      split
      · rw [← hsucc]
        exact .later (Nat.le_succ pos) (leaves_gapEnd src .between true (pos + 1))
      split
      · rw [← hsucc]
        exact .later (Nat.le_succ pos) (leaves_gapEnd src .between newline (pos + 1))
      · exact .here rfl h
    | line =>
      rw [gapEnd_line_cons newline h, skipGap]
      split
      · rw [← hsucc]
        exact .later (Nat.le_succ pos) (leaves_gapEnd src .between true (pos + 1))
      · rw [← hsucc]
        exact .later (Nat.le_succ pos) (leaves_gapEnd src .line newline (pos + 1))
    | block =>
      rw [gapEnd_block_cons newline h, skipGap_block_cons]
      split
      · rw [← htwo]
        exact .later (Nat.le_add_right pos 2) (leaves_gapEnd src .between newline (pos + 2))
      · rw [← hsucc]
        exact .later (Nat.le_succ pos)
          (leaves_gapEnd src .block (newline || isBreakByte b) (pos + 1))
termination_by src.length - pos

end

end ScriptFeatures.Nesting
