import ScriptFeatures.Json.Write

/-! Writing puts text before the rest and never takes from it, so the text of a container is at
least as long as it has items. A reader that loops over a container may use its text to bound the
loop. -/

namespace ScriptFeatures.Json

theorem Layout.length_newline (layout : Layout) (cs : List Char) :
    cs.length ≤ (layout.newline cs).length := by
  cases layout with
  | line => exact Nat.le_refl _
  | indented level =>
    simp only [newline, List.length_cons, List.length_append]
    omega

theorem Layout.length_colon (layout : Layout) (cs : List Char) :
    cs.length ≤ (layout.colon cs).length := by
  cases layout with
  | line => exact Nat.le_succ _
  | indented level => exact Nat.le_succ_of_le (Nat.le_succ _)

theorem length_quote (s : String) (rest : List Char) : rest.length ≤ (quote s rest).length := by
  rw [quote]
  induction s.toList with
  | nil =>
    simp only [List.foldr_nil, List.length_cons]
    omega
  | cons c cs ih =>
    simp only [List.foldr_cons, List.length_cons, List.length_append] at ih ⊢
    omega

theorem Number.length_write (n : Number) (rest : List Char) :
    rest.length ≤ (n.write rest).length := by
  unfold write
  split <;> simp only [List.length_cons, List.length_append] <;> omega

/-- A member is at least as long as what stands after it, if its value is. -/
theorem length_writeMember (layout outer : Layout) (name : String) {v : Value} {rest : List Char}
    (hvalue : rest.length ≤ (v.write layout rest).length) :
    rest.length ≤ (layout.newline (quote name (outer.colon (v.write layout rest)))).length := by
  have hcolon := outer.length_colon (v.write layout rest)
  have hname := length_quote name (outer.colon (v.write layout rest))
  have hline := layout.length_newline (quote name (outer.colon (v.write layout rest)))
  omega

mutual

theorem Value.length_write (layout : Layout) :
    (v : Value) → (rest : List Char) → rest.length ≤ (v.write layout rest).length
  | .null, _ | .boolean true, _ | .boolean false, _ | .array [], _ | .object [], _ => by
    simp only [write, List.length_cons]
    omega
  | .number n, rest => n.length_write rest
  | .text s, rest => length_quote s rest
  | .array (v :: vs), rest => by
    have hline := layout.length_newline (']' :: rest)
    have hitems := Value.length_writeItems layout.inner vs (layout.newline (']' :: rest))
    have hitem := Value.length_write layout.inner v
      (Value.writeItems layout.inner vs (layout.newline (']' :: rest)))
    have hfirst := layout.inner.length_newline (v.write layout.inner
      (Value.writeItems layout.inner vs (layout.newline (']' :: rest))))
    simp only [write, List.length_cons] at *
    omega
  | .object ((name, v) :: ms), rest => by
    have hline := layout.length_newline ('}' :: rest)
    have hmembers := Value.length_writeMembers layout.inner ms (layout.newline ('}' :: rest))
    have hmember := length_writeMember layout.inner layout name (Value.length_write layout.inner v
      (Value.writeMembers layout.inner ms (layout.newline ('}' :: rest))))
    simp only [write, List.length_cons] at *
    omega

theorem Value.length_writeItems (layout : Layout) :
    (vs : List Value) → (rest : List Char) →
      vs.length + rest.length ≤ (Value.writeItems layout vs rest).length
  | [], rest => by
    simp only [writeItems, List.length_nil]
    omega
  | v :: vs, rest => by
    have hitems := Value.length_writeItems layout vs rest
    have hitem := Value.length_write layout v (Value.writeItems layout vs rest)
    have hline := layout.length_newline (v.write layout (Value.writeItems layout vs rest))
    simp only [writeItems, List.length_cons] at *
    omega

theorem Value.length_writeMembers (layout : Layout) :
    (ms : List (String × Value)) → (rest : List Char) →
      ms.length + rest.length ≤ (Value.writeMembers layout ms rest).length
  | [], rest => by
    simp only [writeMembers, List.length_nil]
    omega
  | (name, v) :: ms, rest => by
    have hmembers := Value.length_writeMembers layout ms rest
    have hmember := length_writeMember layout layout name
      (Value.length_write layout v (Value.writeMembers layout ms rest))
    simp only [writeMembers, List.length_cons] at *
    omega

end

end ScriptFeatures.Json
