import ScriptFeatures.Proofs.Json.OneLine
import ScriptFeatures.Proofs.Json.Members
import ScriptFeatures.Proofs.Text.Lines
import ScriptFeatures.Table.Sample

/-! Files of samples are read back. A sample is written on one line, whatever characters its script
and its file name have; a file may hold white space on lines of its own between the samples, and its
lines may end in two ways. Reading gives the samples in order and nothing else. -/

namespace ScriptFeatures.Table

open Json (Makes Reads)

/-! ## A sample -/

theorem reads_label (b : Bool) : Reads readLabel (.boolean b) (some b) :=
  (Reads.value (.boolean b) _).map labelOf?

theorem reads_text? (text : Option String) :
    Reads (Json.optional Json.readText) (text.elim .null .text) text := by
  cases text with
  | none => exact .null _
  | some text => exact (Reads.text text).optional (by decide) fun _ _ => ⟨_, rfl⟩

namespace Sample

theorem makes (s : Sample) : Makes fields [] blank s.members s := by
  have hmembers : s.members = ("js", s.script.elim .null .text) ::
      ((s.fileName.toList.map fun name => ("js_filename", .text name)) ++
        ((s.malicious.toList.map fun b => ("malicious", .boolean b)) ++
          ((s.obfuscated.toList.map fun b => ("obfuscated", .boolean b)) ++ []))) := by
    simp only [members, List.cons_append, List.append_assoc, List.append_nil]
  rw [hmembers]
  refine .cons rfl (by decide) ((reads_text? s.script).map _) ?_
  refine .optional rfl (by decide) (fun name => (reads_text? (some name)).map _) ?_
  refine .optional rfl (by decide) (fun b => (reads_label b).map _) ?_
  refine .optional rfl (by decide) (fun b => (reads_label b).map _) ?_
  obtain ⟨script, fileName, malicious, obfuscated⟩ := s
  cases fileName <;> cases malicious <;> cases obfuscated <;> exact .nil

theorem reads (s : Sample) : Reads Sample.read s.toJson s :=
  .record_of_makes s.makes rfl

/-- A sample on one line. -/
def line (s : Sample) : List Char :=
  s.toJson.compact.toList

theorem visible_line (s : Sample) : Json.Visible s.line :=
  s.toJson.visible_compact

end Sample

/-- An object on a line that is taken back as a sample is read as it. -/
theorem readLine_object {members : List (String × Json.Value)} {s : Sample}
    (h : Reads Sample.read (.object members) s) (number : Nat) :
    readLine number (Text.encode (Json.Value.object members).compact) = .ok (some s) := by
  obtain ⟨cs, hcs⟩ := Json.Value.write_object .line members []
  have hwhole := h.whole .line
  rw [readLine, Text.decode?_encode]
  dsimp only
  rw [Json.Value.compact, String.toList_ofList, hwhole, hcs]
  rfl

/-! ## Lines -/

/-- How a line ends: with a line feed, which a carriage return may stand before. -/
inductive Ending
  | lineFeed
  | returnLineFeed
  deriving DecidableEq, Repr

/-- What an ending has before its line feed. -/
def Ending.before : Ending → List Char
  | .lineFeed => []
  | .returnLineFeed => ['\r']

/-- A line of a file: a sample, or white space. -/
inductive Line
  | sample (s : Sample) (ending : Ending)
  | blank (space : List Char) (isBlank : space.all Text.isBlank = true)
      (unbroken : '\n' ∉ space) (ending : Ending)

namespace Line

/-- What a line has before its line feed. -/
def before : Line → List Char
  | .sample s ending => s.line ++ ending.before
  | .blank space _ _ ending => space ++ ending.before

/-- The text of a line with its line feed. -/
def text (l : Line) : List Char :=
  l.before ++ ['\n']

/-- The sample on a line, if there is one. -/
def sample? : Line → Option Sample
  | .sample s _ => some s
  | .blank .. => none

theorem unbroken_before (l : Line) : '\n' ∉ l.before := by
  have hending (e : Ending) : '\n' ∉ e.before := by cases e <;> decide
  cases l with
  | sample s ending =>
    rw [before, List.mem_append, not_or]
    exact ⟨fun h => absurd (s.visible_line _ h) (by decide), hending ending⟩
  | blank space _ unbroken ending =>
    rw [before, List.mem_append, not_or]
    exact ⟨unbroken, hending ending⟩

theorem withoutReturn_line (s : Sample) (ending : Ending) :
    Text.withoutReturn (s.line ++ ending.before) = s.line := by
  cases ending with
  | lineFeed =>
    rw [Ending.before, List.append_nil]
    refine Text.withoutReturn_of_ne fun h => ?_
    exact absurd (s.visible_line _ (List.mem_of_getLast? h)) (by decide)
  | returnLineFeed => exact Text.withoutReturn_concat _

/-- A line is read as the sample on it, or passed over. -/
theorem readLine_before (l : Line) (number : Nat) :
    readLine number (Text.encode (String.ofList (Text.withoutReturn l.before))) =
      .ok l.sample? := by
  cases l with
  | sample s ending =>
    rw [before, withoutReturn_line, Sample.line, String.ofList_toList]
    exact readLine_object s.reads number
  | blank space isBlank _ ending =>
    have hending : ending.before.all Text.isBlank = true := by cases ending <;> rfl
    have hall : (Text.withoutReturn (space ++ ending.before)).all Text.isBlank = true := by
      have hboth : (space ++ ending.before).all Text.isBlank = true := by
        rw [List.all_append, isBlank, hending, Bool.true_and]
      exact List.all_eq_true.mpr fun c hc =>
        List.all_eq_true.mp hboth c (Text.withoutReturn_subset _ hc)
    rw [readLine, Text.decode?_encode]
    dsimp only
    rw [String.toList_ofList, before, hall]
    rfl

end Line

/-! ## Files -/

/-- Objects on lines of their own that are taken back as samples are read as these. -/
theorem readLines_objects {members : ι → List (String × Json.Value)} {sample : ι → Sample}
    {entries : List ι}
    (h : ∀ e ∈ entries, Reads Sample.read (.object (members e)) (sample e)) (done : List Sample)
    (number : Nat) :
    readLines done number
        (entries.map fun e => Text.encode (Json.Value.object (members e)).compact) =
      .ok (done.reverse ++ entries.map sample) := by
  induction entries generalizing done number with
  | nil => simp [readLines]
  | cons e entries ih =>
    rw [List.forall_mem_cons] at h
    rw [List.map_cons, readLines, readLine_object h.1]
    change readLines (sample e :: done) (number + 1) _ = _
    rw [ih h.2, List.reverse_cons, List.append_assoc]
    rfl

/-- Reading goes on line by line; the induction is on the lines, with the samples before them. -/
theorem readLines_lines (lines : List Line) (done : List Sample) (number : Nat) :
    readLines done number (Text.lines (Text.encode (String.ofList (lines.flatMap Line.text)))) =
      .ok (done.reverse ++ lines.filterMap Line.sample?) := by
  induction lines generalizing done number with
  | nil =>
    rw [List.filterMap_nil, List.append_nil, List.flatMap_nil, Text.lines_encode_nil]
    rfl
  | cons l lines ih =>
    rw [List.flatMap_cons, Line.text, List.append_assoc, List.singleton_append,
      Text.lines_encode l.unbroken_before, readLines, l.readLine_before]
    change readLines (l.sample?.toList ++ done) (number + 1) _ = _
    rw [ih, List.filterMap_cons]
    cases l <;> simp [Line.sample?]

/-- A file of samples is read back: the samples that stand on its lines, in order, whatever they
hold, however each line ends and wherever lines of white space stand between them. -/
theorem readSamples_lines (lines : List Line) :
    readSamples (Text.encode (String.ofList (lines.flatMap Line.text))) =
      .ok (lines.filterMap Line.sample?) :=
  readLines_lines lines [] 1

end ScriptFeatures.Table
