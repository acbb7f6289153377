import ScriptFeatures.Proofs.Text.Lines

/-! The lines of any bytes, text or not. They are the pieces between line feeds, each that a line
feed ends without one carriage return at its end, and the last piece only if there is something in
it (`lines_eq`). So a file that ends with a line feed can be gone on with: its lines are those of
what is put before, then those of what is put after (`Closed.lines_append`). -/

namespace ScriptFeatures.Text

/-- The bytes of a line without the carriage return at its end, if there is one. -/
def dropReturn (line : List UInt8) : List UInt8 :=
  if line.getLast? = some 13 then line.dropLast else line

/-- The lines that pieces between line feeds make. Only the last of them is not ended by one. -/
def ofPieces : List (List UInt8) → List (List UInt8)
  | [] => []
  | [last] => if last.isEmpty then [] else [last]
  | piece :: rest => dropReturn piece :: ofPieces rest

theorem dropReturn_concat (line : List UInt8) : dropReturn (line ++ [13]) = line := by
  simp [dropReturn]

theorem dropReturn_of_ne {line : List UInt8} (h : line.getLast? ≠ some 13) :
    dropReturn line = line :=
  if_neg h

theorem ended_reverse (line : List UInt8) : ended line.reverse = dropReturn line := by
  obtain rfl | ⟨init, b, rfl⟩ := List.eq_nil_or_concat line
  · rfl
  rw [List.concat_eq_append, List.reverse_append, List.reverse_singleton, List.singleton_append,
    ended, List.reverse_cons, List.reverse_reverse]
  simp [dropReturn]

/-- A text without the carriage return at its end has the bytes without it. -/
theorem dropReturn_encode (line : List Char) :
    dropReturn (encode (String.ofList line)) = encode (String.ofList (withoutReturn line)) := by
  simp only [encode, toUTF8_ofList]
  rw [← ended_reverse, ended_encode]

theorem decode?_concat_return (line : List UInt8) :
    decode? (line ++ [13]) =
      (decode? line).map fun text => String.ofList (text.toList ++ ['\r']) := by
  cases hline : decode? line with
  | some text =>
    have hbytes : encode (String.ofList (text.toList ++ ['\r'])) = line ++ [13] := by
      rw [← encode_of_decode? hline, ← String.ofList_toList (s := text), encode, encode,
        toUTF8_ofList, toUTF8_ofList, List.flatMap_append, String.toList_ofList]
      rfl
    rw [← hbytes, decode?_encode, Option.map_some]
  | none =>
    cases hlonger : decode? (line ++ [13]) with
    | none => rfl
    | some text =>
      have hbytes := dropReturn_encode text.toList
      rw [String.ofList_toList, encode_of_decode? hlonger, dropReturn_concat] at hbytes
      rw [hbytes, decode?_encode] at hline
      cases hline

theorem ofPieces_append (pieces : List (List UInt8)) {rest : List (List UInt8)} (h : rest ≠ []) :
    ofPieces (pieces ++ rest) = pieces.map dropReturn ++ ofPieces rest := by
  induction pieces with
  | nil => rfl
  | cons piece pieces ih =>
    rw [List.cons_append, ofPieces, ih, List.map_cons, List.cons_append]
    simp [h]

/-! ## Lines and pieces -/

theorem lines_append_cons {line : List UInt8} (h : 10 ∉ line) (rest : List UInt8) :
    lines (line ++ 10 :: rest) = dropReturn line :: lines rest := by
  rw [lines, linesOnto_line h, List.append_nil, ended_reverse, linesOnto_done]
  rfl

theorem lines_of_notMem {line : List UInt8} (h : 10 ∉ line) :
    lines line = if line.isEmpty then [] else [line] := by
  have honto (before : List UInt8) : linesOnto [] before line =
      if (line.reverse ++ before).isEmpty then [] else [before.reverse ++ line] := by
    induction line generalizing before with
    | nil => cases before <;> simp [linesOnto]
    | cons b line ih =>
      rw [List.mem_cons, not_or] at h
      rw [linesOnto, if_neg (Ne.symm h.1), ih h.2]
      simp
  rw [lines, honto]
  cases line <;> simp

/-- The lines of a file are what its pieces between line feeds make. The induction takes the first
piece off the bytes. -/
theorem lines_eq (bytes : List UInt8) : lines bytes = ofPieces (bytes.splitOn 10) := by
  by_cases h : 10 ∈ bytes
  · obtain ⟨line, rest, hbytes, hline⟩ := List.eq_append_cons_of_mem h
    have hshorter : rest.length < bytes.length := by
      rw [hbytes, List.length_append, List.length_cons]
      omega
    have hrest := lines_eq rest
    have hpieces := ofPieces_append [line] (List.splitOn_ne_nil 10 rest)
    rw [hbytes, lines_append_cons hline, List.splitOn_append_cons_self_of_not_mem hline, hrest]
    exact hpieces.symm
  · rw [lines_of_notMem h, List.splitOn_eq_singleton h]
    rfl
termination_by bytes.length

/-- Whether bytes end where a line ends. -/
def Closed (bytes : List UInt8) : Prop :=
  bytes = [] ∨ ∃ before, bytes = before ++ [10]

theorem Closed.lines_append {bytes : List UInt8} (h : Closed bytes) (rest : List UInt8) :
    lines (bytes ++ rest) = lines bytes ++ lines rest := by
  obtain rfl | ⟨before, rfl⟩ := h
  · rfl
  have hlast : ofPieces [[]] = [] := rfl
  simp only [lines_eq]
  rw [List.append_assoc, List.singleton_append, List.splitOn_append_cons_self,
    List.splitOn_append_cons_self, ofPieces_append _ (List.splitOn_ne_nil 10 rest),
    List.splitOn_nil, ofPieces_append _ (List.cons_ne_nil _ _), hlast, List.append_nil]

end ScriptFeatures.Text
