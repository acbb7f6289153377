import ScriptFeatures.Proofs.Json.Trailing
import ScriptFeatures.Proofs.Table.SampleFile
import ScriptFeatures.Proofs.Text.PhysicalLines

/-! What is read from a file of samples, line by line. White space is passed over but counted, so an
error has the number of the first line that is refused, whatever stands before it; a line of white
space more leaves samples as they are and moves the numbers after it by one.

* `Decodes` and `Refused` say what lines give, without a count of what was read.
* `readLines_eq_ok_iff` and `readLines_eq_error_iff` read these off the loop.
* `Inserted` puts a line of white space into the bytes of a file; `readLines_insert` goes through
  the loop with it.
* A last line may have to be ended for that, and a carriage return at its end is lost to a line
  feed; `readSamples_append_ending` says that no sample depends on it. -/

namespace ScriptFeatures.Table

open Json (Fault)

/-! ## What a line gives -/

/-- Whether a line is white space. -/
def BlankLine (line : List UInt8) : Prop :=
  ∃ text, Text.decode? line = some text ∧ text.toList.all Text.isBlank = true

/-- Whether a line holds a sample. -/
def HoldsSample (line : List UInt8) (s : Sample) : Prop :=
  ∃ text, Text.decode? line = some text ∧ text.toList.all Text.isBlank = false ∧
    Sample.read.whole text.toList = .ok s

/-- Why a line with some number is refused: it is no text, or there is a text on it but no
sample. -/
inductive Refused (line : List UInt8) (number : Nat) : SampleError → Prop
  | notText (h : Text.decode? line = none) : Refused line number .notText
  | noSample {text : String} {fault : Fault} (h : Text.decode? line = some text)
      (hblank : text.toList.all Text.isBlank = false)
      (hread : Sample.read.whole text.toList = .error fault) :
      Refused line number (.badLine number fault)

/-- Lines that give samples, in order: those that are no white space hold one each. -/
inductive Decodes : List (List UInt8) → List Sample → Prop
  | nil : Decodes [] []
  | blank {line : List UInt8} {lines : List (List UInt8)} {samples : List Sample}
      (h : BlankLine line) (hrest : Decodes lines samples) : Decodes (line :: lines) samples
  | sample {line : List UInt8} {lines : List (List UInt8)} {s : Sample} {samples : List Sample}
      (h : HoldsSample line s) (hrest : Decodes lines samples) :
      Decodes (line :: lines) (s :: samples)

section

variable {number : Nat} {line : List UInt8}

theorem readLine_eq_none_iff : readLine number line = .ok none ↔ BlankLine line := by
  rw [readLine, BlankLine]
  cases Text.decode? line with
  | none => simp
  | some text =>
    cases hblank : text.toList.all Text.isBlank with
    | true => simp [-List.all_eq_true, hblank]
    | false =>
      cases hread : Sample.read.whole text.toList <;> simp [-List.all_eq_true, hblank, hread]

theorem readLine_eq_some_iff {s : Sample} :
    readLine number line = .ok (some s) ↔ HoldsSample line s := by
  rw [readLine, HoldsSample]
  cases Text.decode? line with
  | none => simp
  | some text =>
    cases hblank : text.toList.all Text.isBlank with
    | true => simp [-List.all_eq_true, -List.all_eq_false, hblank]
    | false =>
      cases hread : Sample.read.whole text.toList <;>
        simp [-List.all_eq_true, -List.all_eq_false, hblank, hread]

theorem readLine_eq_error_iff {e : SampleError} :
    readLine number line = .error e ↔ Refused line number e := by
  constructor
  · intro h
    rw [readLine] at h
    split at h
    · next hdecode =>
      cases h
      exact .notText hdecode
    · next text hdecode =>
      split at h
      · cases h
      · next hblank =>
        split at h
        · cases h
        · next fault hread =>
          cases h
          exact .noSample hdecode (Bool.eq_false_iff.mpr hblank) hread
  · intro h
    rw [readLine]
    cases h with
    | notText hdecode => rw [hdecode]
    | noSample hdecode hblank hread => simp [hdecode, hblank, hread]

end

/-! ## The loop -/

theorem readLines_cons (done : List Sample) (number : Nat) (line : List UInt8)
    (lines : List (List UInt8)) :
    readLines done number (line :: lines) =
      (readLine number line >>= fun found =>
        readLines (found.toList ++ done) (number + 1) lines) :=
  rfl

theorem readLines_eq_ok_iff {done samples : List Sample} {number : Nat}
    {lines : List (List UInt8)} :
    readLines done number lines = .ok samples ↔
      ∃ found, Decodes lines found ∧ samples = done.reverse ++ found := by
  induction lines generalizing done number with
  | nil =>
    constructor
    · intro h
      cases h
      exact ⟨[], .nil, (List.append_nil _).symm⟩
    · rintro ⟨found, hfound, rfl⟩
      cases hfound
      rw [List.append_nil]
      rfl
  | cons line lines ih =>
    rw [readLines_cons, Outcome.bind_eq_ok_iff]
    constructor
    · rintro ⟨s?, hline, hlines⟩
      obtain ⟨found, hfound, rfl⟩ := ih.mp hlines
      cases s? with
      | none => exact ⟨found, .blank (readLine_eq_none_iff.mp hline) hfound, rfl⟩
      | some s =>
        refine ⟨s :: found, .sample (readLine_eq_some_iff.mp hline) hfound, ?_⟩
        simp
    · rintro ⟨found, hfound, rfl⟩
      cases hfound with
      | blank h hrest => exact ⟨none, readLine_eq_none_iff.mpr h, ih.mpr ⟨found, hrest, rfl⟩⟩
      | @sample _ _ s rest h hrest =>
        refine ⟨some s, readLine_eq_some_iff.mpr h, ih.mpr ⟨rest, hrest, ?_⟩⟩
        simp

/-- An error is that of the first line that is refused; the induction is on the lines before it. -/
theorem readLines_eq_error_iff {done : List Sample} {number : Nat} {lines : List (List UInt8)}
    {e : SampleError} :
    readLines done number lines = .error e ↔
      ∃ before line after found, lines = before ++ line :: after ∧ Decodes before found ∧
        Refused line (number + before.length) e := by
  constructor
  · intro h
    induction lines generalizing done number with
    | nil => cases h
    | cons line lines ih =>
      rw [readLines_cons] at h
      cases hline : readLine number line with
      | error e' =>
        rw [hline] at h
        cases h
        exact ⟨[], line, lines, [], rfl, .nil, readLine_eq_error_iff.mp hline⟩
      | ok s? =>
        rw [hline] at h
        obtain ⟨before, bad, after, found, rfl, hbefore, hbad⟩ := ih h
        have hnumber : number + 1 + before.length = number + (line :: before).length := by
          rw [List.length_cons]
          omega
        rw [hnumber] at hbad
        cases s? with
        | none =>
          have hblank := readLine_eq_none_iff.mp hline
          exact ⟨line :: before, bad, after, found, rfl, .blank hblank hbefore, hbad⟩
        | some s =>
          have hsample := readLine_eq_some_iff.mp hline
          exact ⟨line :: before, bad, after, s :: found, rfl, .sample hsample hbefore, hbad⟩
  · rintro ⟨before, line, after, found, rfl, hbefore, hbad⟩
    induction hbefore generalizing done number with
    | nil =>
      have hline : readLine number line = .error e := readLine_eq_error_iff.mpr hbad
      rw [List.nil_append, readLines_cons, hline]
      rfl
    | blank h _ ih =>
      rw [List.cons_append, readLines_cons, readLine_eq_none_iff.mpr h]
      refine ih ?_
      rwa [List.length_cons, Nat.add_comm _ 1, ← Nat.add_assoc] at hbad
    | sample h _ ih =>
      rw [List.cons_append, readLines_cons, readLine_eq_some_iff.mpr h]
      refine ih ?_
      rwa [List.length_cons, Nat.add_comm _ 1, ← Nat.add_assoc] at hbad

/-! ## A line more -/

/-- An error after a line was put behind the first `before` lines. -/
def SampleError.shifted (before : Nat) : SampleError → SampleError
  | .badLine number fault => .badLine (if number ≤ before then number else number + 1) fault
  | .notText => .notText

section

variable {before number : Nat}

theorem readLine_of_le (h : number ≤ before) (line : List UInt8) :
    (readLine number line).mapError (.shifted before) = readLine number line := by
  cases hline : readLine number line with
  | ok s? => rfl
  | error e =>
    cases readLine_eq_error_iff.mp hline with
    | notText => rfl
    | noSample => rw [Except.mapError, SampleError.shifted, if_pos h]

theorem readLine_succ (h : before < number) (line : List UInt8) :
    readLine (number + 1) line = (readLine number line).mapError (.shifted before) := by
  cases hline : readLine number line with
  | ok s? =>
    cases s? with
    | none => exact readLine_eq_none_iff.mpr (readLine_eq_none_iff.mp hline)
    | some s => exact readLine_eq_some_iff.mpr (readLine_eq_some_iff.mp hline)
  | error e =>
    rw [Except.mapError, readLine_eq_error_iff]
    cases readLine_eq_error_iff.mp hline with
    | notText hdecode => exact .notText hdecode
    | noSample hdecode hblank hread =>
      rw [SampleError.shifted, if_neg (Nat.not_le.mpr h)]
      exact .noSample hdecode hblank hread

/-- Lines that come one later have errors with numbers one larger. -/
theorem readLines_succ (h : before < number) (done : List Sample) (lines : List (List UInt8)) :
    readLines done (number + 1) lines =
      (readLines done number lines).mapError (.shifted before) := by
  induction lines generalizing done number with
  | nil => rfl
  | cons line lines ih =>
    rw [readLines_cons, readLines_cons, readLine_succ h]
    cases readLine number line with
    | error e => rfl
    | ok s? => exact ih (Nat.lt_succ_of_lt h) (s?.toList ++ done)

end

/-- A line of white space among others; the induction is on the lines before it, which are read as
they were. -/
theorem readLines_insert {blank : List UInt8} (hblank : BlankLine blank)
    (before after : List (List UInt8)) {count number : Nat}
    (hcount : number + before.length = count + 1) (done : List Sample) :
    readLines done number (before ++ blank :: after) =
      (readLines done number (before ++ after)).mapError (.shifted count) := by
  induction before generalizing done number with
  | nil =>
    -- all numbers from here on are those of lines behind the new one
    have hlater : count < number := by
      rw [List.length_nil] at hcount
      omega
    rw [List.nil_append, List.nil_append, readLines_cons, readLine_eq_none_iff.mpr hblank]
    exact readLines_succ hlater done after
  | cons line before ih =>
    rw [List.length_cons] at hcount
    -- this line stands before the new one, so its error keeps its number
    have hsame := readLine_of_le (show number ≤ count by omega) line
    rw [List.cons_append, List.cons_append, readLines_cons, readLines_cons]
    cases hline : readLine number line with
    | error e =>
      rw [hline] at hsame
      have herror : e.shifted count = e := Except.error.inj hsame
      exact congrArg Except.error herror.symm
    | ok s? => exact ih (by omega) (s?.toList ++ done)

/-! ## The bytes of a line more -/

/-- The bytes of an ending. -/
def Ending.bytes : Ending → List UInt8
  | .lineFeed => [10]
  | .returnLineFeed => [13, 10]

/-- The line that bytes make before an ending. -/
def Ending.content (line : List UInt8) : Ending → List UInt8
  | .lineFeed => Text.dropReturn line
  | .returnLineFeed => line

theorem Ending.lines_append {line : List UInt8} (h : 10 ∉ line) (ending : Ending)
    (rest : List UInt8) :
    Text.lines (line ++ ending.bytes ++ rest) = ending.content line :: Text.lines rest := by
  cases ending with
  | lineFeed => exact (congrArg _ (List.append_assoc _ _ _)).trans (Text.lines_append_cons h rest)
  | returnLineFeed =>
    have hreturn : 10 ∉ line ++ [13] := by simpa using h
    have hlines := Text.lines_append_cons hreturn rest
    rw [Text.dropReturn_concat] at hlines
    rwa [List.append_assoc] at hlines ⊢

/-- White space that can stand on a line. -/
structure Space where
  chars : List Char
  isBlank : chars.all Text.isBlank = true
  unbroken : '\n' ∉ chars

namespace Space

/-- White space in UTF-8. -/
def bytes (space : Space) : List UInt8 :=
  Text.encode (String.ofList space.chars)

theorem lineFeed_notMem (space : Space) : 10 ∉ space.bytes := by
  rw [bytes, Text.encode, Text.toUTF8_ofList]
  exact mt (Text.lineFeed_mem_iff _).mp space.unbroken

theorem blankLine_bytes (space : Space) : BlankLine space.bytes :=
  ⟨_, Text.decode?_encode _, by rw [String.toList_ofList]; exact space.isBlank⟩

theorem blankLine_content (space : Space) (ending : Ending) :
    BlankLine (ending.content space.bytes) := by
  cases ending with
  | returnLineFeed => exact space.blankLine_bytes
  | lineFeed =>
    rw [Ending.content, bytes, Text.dropReturn_encode]
    refine ⟨_, Text.decode?_encode _, ?_⟩
    rw [String.toList_ofList]
    exact List.all_eq_true.mpr fun c hc =>
      List.all_eq_true.mp space.isBlank c (Text.withoutReturn_subset _ hc)

theorem bytes_ne_nil {space : Space} (h : space.chars ≠ []) : space.bytes ≠ [] := by
  obtain ⟨c, cs, hcs⟩ := List.exists_cons_of_ne_nil h
  rw [bytes, Text.encode, Text.toUTF8_ofList, hcs, List.flatMap_cons]
  exact List.append_ne_nil_of_left_ne_nil String.utf8EncodeChar_ne_nil _

end Space

/-- A line of white space is put into a file behind so many of its lines. -/
inductive Inserted : List UInt8 → Nat → List UInt8 → Prop
  /-- Where a line ends, or at the start, with an ending of its own. -/
  | between {before : List UInt8} (closed : Text.Closed before) (space : Space) (ending : Ending)
      (after : List UInt8) :
      Inserted (before ++ after) (Text.lines before).length
        (before ++ (space.bytes ++ ending.bytes ++ after))
  /-- As the last line, which need not end. -/
  | last {before : List UInt8} (closed : Text.Closed before) (space : Space)
      (visible : space.chars ≠ []) :
      Inserted before (Text.lines before).length (before ++ space.bytes)
  /-- A last line that does not end gets an ending first. A carriage return at its end is none of
  the line any more if a line feed follows it. -/
  | ended {bytes bytes' : List UInt8} {count : Nat} {ending : Ending}
      (unclosed : ¬Text.Closed bytes) (h : Inserted (bytes ++ ending.bytes) count bytes') :
      Inserted bytes count bytes'

/-- The last line of a file that does not end there. -/
theorem exists_line_of_not_closed {bytes : List UInt8} (h : ¬Text.Closed bytes) :
    ∃ before line, bytes = before ++ line ∧ Text.Closed before ∧ line ≠ [] ∧ 10 ∉ line := by
  by_cases hmem : 10 ∈ bytes.reverse
  · obtain ⟨last, first, hbytes, hlast⟩ := List.eq_append_cons_of_mem hmem
    have hsplit : bytes = first.reverse ++ [10] ++ last.reverse := by
      rw [← List.reverse_reverse bytes, hbytes]
      simp
    refine ⟨first.reverse ++ [10], last.reverse, hsplit, .inr ⟨_, rfl⟩, fun hnil => h ?_, by simpa⟩
    exact .inr ⟨first.reverse, by rw [hsplit, hnil, List.append_nil]⟩
  · refine ⟨[], bytes, rfl, .inl rfl, fun hnil => h (.inl hnil), ?_⟩
    rwa [List.mem_reverse] at hmem

/-- An ending takes at most a carriage return from the line before it. -/
theorem Ending.content_cases (line : List UInt8) (ending : Ending) :
    ending.content line = line ∨ line = ending.content line ++ [13] := by
  cases ending with
  | returnLineFeed => exact .inl rfl
  | lineFeed =>
    obtain rfl | ⟨init, b, rfl⟩ := List.eq_nil_or_concat line
    · exact .inl rfl
    rw [List.concat_eq_append, content]
    by_cases hb : b = 13
    · rw [hb, Text.dropReturn_concat]
      exact .inr rfl
    · exact .inl (Text.dropReturn_of_ne (by simpa using hb))

/-! ## A carriage return at the end of a line -/

theorem Sample.steady_read : Json.Steady '\r' Sample.read := by
  refine Json.steady_record rfl ?_ Sample.blank
  have htext : Json.Steady '\r' (Json.optional Json.readText) :=
    (Json.steady_scalar rfl _).optional rfl
  have hlabel : Json.Steady '\r' readLabel := (Json.steady_readValue rfl _).map labelOf?
  simp only [Sample.fields, List.forall_mem_cons]
  exact ⟨htext.map _, htext.map _, hlabel.map _, hlabel.map _, fun _ h => by cases h⟩

/-- Where an error is: the number of its line, unless it is that of bytes that are no text. -/
def SampleError.number? : SampleError → Option Nat
  | .badLine number _ => some number
  | .notText => none

/-- What is on a line is found without the carriage return at its end as well. Only the fault can be
another one. -/
theorem readLine_concat_return (number : Nat) (line : List UInt8) :
    (readLine number (line ++ [13])).mapError SampleError.number? =
      (readLine number line).mapError SampleError.number? := by
  rw [readLine, readLine, Text.decode?_concat_return]
  cases Text.decode? line with
  | none => rfl
  | some text =>
    have hblank : (text.toList ++ ['\r']).all Text.isBlank = text.toList.all Text.isBlank := by
      have hreturn : Text.isBlank '\r' = true := by decide
      rw [List.all_append, List.all_cons, hreturn, List.all_nil, Bool.and_true, Bool.and_true]
    have hwhole := Sample.steady_read.whole_concat rfl text.toList
    rw [Option.map_some]
    dsimp only
    rw [String.toList_ofList, hblank]
    split
    · rfl
    cases hread : Sample.read.whole text.toList with
    | ok s => rw [(hwhole s).mpr hread]
    | error fault =>
      cases hlonger : Sample.read.whole (text.toList ++ ['\r']) with
      | error fault' => rfl
      | ok s =>
        rw [(hwhole s).mp hlonger] at hread
        cases hread

theorem readLines_concat_return (before : List (List UInt8)) (line : List UInt8)
    (done : List Sample) (number : Nat) :
    (readLines done number (before ++ [line ++ [13]])).mapError SampleError.number? =
      (readLines done number (before ++ [line])).mapError SampleError.number? := by
  induction before generalizing done number with
  | nil =>
    rw [List.nil_append, List.nil_append, readLines_cons, readLines_cons, Outcome.mapError_bind,
      Outcome.mapError_bind, readLine_concat_return]
  | cons first before ih =>
    rw [List.cons_append, List.cons_append, readLines_cons, readLines_cons, Outcome.mapError_bind,
      Outcome.mapError_bind]
    exact congrArg _ (funext fun found => ih (found.toList ++ done) (number + 1))

/-- The last line of a file may be ended, with no other result than another fault, and none but the
same if there is no carriage return at its end. -/
theorem readSamples_append_ending {bytes : List UInt8} (h : ¬Text.Closed bytes) (ending : Ending) :
    (readSamples (bytes ++ ending.bytes)).mapError SampleError.number? =
      (readSamples bytes).mapError SampleError.number? ∧
    (bytes.getLast? ≠ some 13 → readSamples (bytes ++ ending.bytes) = readSamples bytes) := by
  obtain ⟨before, line, rfl, hclosed, hne, hline⟩ := exists_line_of_not_closed h
  have hbytes : Text.lines (before ++ line) = Text.lines before ++ [line] := by
    rw [hclosed.lines_append, Text.lines_of_notMem hline]
    simp [hne]
  have hended : Text.lines (before ++ line ++ ending.bytes) =
      Text.lines before ++ [ending.content line] := by
    have hcontent := ending.lines_append hline []
    rw [List.append_nil] at hcontent
    rw [List.append_assoc, hclosed.lines_append, hcontent]
    rfl
  rw [readSamples, readSamples, hbytes, hended]
  obtain hsame | hreturn := ending.content_cases line
  · rw [hsame]
    exact ⟨rfl, fun _ => rfl⟩
  · have hlonger := readLines_concat_return (Text.lines before) (ending.content line) [] 1
    rw [← hreturn] at hlonger
    refine ⟨hlonger.symm, fun hlast => (hlast ?_).elim⟩
    rw [hreturn, ← List.append_assoc, List.getLast?_concat]

/-! ## Files -/

theorem readSamples_insert_line {bytes bytes' blank : List UInt8} {before after : List (List UInt8)}
    (hbytes : Text.lines bytes = before ++ after)
    (hbytes' : Text.lines bytes' = before ++ blank :: after) (hblank : BlankLine blank) :
    readSamples bytes' = (readSamples bytes).mapError (.shifted before.length) := by
  rw [readSamples, readSamples, hbytes, hbytes']
  exact readLines_insert hblank before after (Nat.add_comm _ _) []

theorem mapError_shifted_congr {x y : Except SampleError α} (count : Nat)
    (h : x.mapError SampleError.number? = y.mapError SampleError.number?) :
    (x.mapError (.shifted count)).mapError SampleError.number? =
      (y.mapError (.shifted count)).mapError SampleError.number? := by
  have hnumber (z : Except SampleError α) :
      (z.mapError (.shifted count)).mapError SampleError.number? =
        (z.mapError SampleError.number?).mapError
          (Option.map fun number => if number ≤ count then number else number + 1) := by
    cases z with
    | ok a => rfl
    | error e => cases e <;> rfl
  rw [hnumber, hnumber, h]

/-- A file with a line of white space more, by induction on the endings that come before it. -/
theorem readSamples_insert {bytes bytes' : List UInt8} {count : Nat}
    (h : Inserted bytes count bytes') :
    (readSamples bytes').mapError SampleError.number? =
      ((readSamples bytes).mapError (.shifted count)).mapError SampleError.number? ∧
    (bytes.getLast? ≠ some 13 →
      readSamples bytes' = (readSamples bytes).mapError (.shifted count)) := by
  induction h with
  | @between before closed space ending after =>
    have hlines : Text.lines (before ++ (space.bytes ++ ending.bytes ++ after)) = _ :=
      closed.lines_append _
    rw [ending.lines_append space.lineFeed_notMem] at hlines
    have hread := readSamples_insert_line (closed.lines_append after) hlines
      (space.blankLine_content ending)
    exact ⟨congrArg _ hread, fun _ => hread⟩
  | @last before closed space visible =>
    have hlines : Text.lines (before ++ space.bytes) = Text.lines before ++ [space.bytes] := by
      rw [closed.lines_append, Text.lines_of_notMem space.lineFeed_notMem]
      simp [Space.bytes_ne_nil visible]
    have hread := readSamples_insert_line (List.append_nil _).symm hlines space.blankLine_bytes
    exact ⟨congrArg _ hread, fun _ => hread⟩
  | @ended bytes bytes' count ending unclosed _ ih =>
    obtain ⟨hnumber, hsame⟩ := readSamples_append_ending unclosed ending
    refine ⟨ih.1.trans (mapError_shifted_congr count hnumber), fun hlast => ?_⟩
    have hfeed : (bytes ++ ending.bytes).getLast? ≠ some 13 := by
      cases ending <;> simp [Ending.bytes]
    rw [ih.2 hfeed, hsame hlast]

/-- Files of samples by their lines, which are what stands between line feeds. Samples are read if
every line gives one or is white space, and then they are those of the lines in order. Otherwise the
error is that of the first line that is refused, with its number among all lines unless it is no
text. A line of white space more, wherever lines meet, changes nothing but the numbers of the lines
after it, which become larger by one; only a file that ends with a carriage return may have another
fault on the same line. -/
theorem readSamples_by_lines (bytes : List UInt8) :
    (∀ samples, readSamples bytes = .ok samples ↔
      Decodes (Text.ofPieces (bytes.splitOn 10)) samples) ∧
    (∀ e, readSamples bytes = .error e ↔
      ∃ before line after samples, Text.ofPieces (bytes.splitOn 10) = before ++ line :: after ∧
        Decodes before samples ∧ Refused line (before.length + 1) e) ∧
    ∀ count bytes', Inserted bytes count bytes' →
      (readSamples bytes').mapError SampleError.number? =
        ((readSamples bytes).mapError (.shifted count)).mapError SampleError.number? ∧
      (bytes.getLast? ≠ some 13 →
        readSamples bytes' = (readSamples bytes).mapError (.shifted count)) := by
  rw [← Text.lines_eq]
  refine ⟨fun samples => ?_, fun e => ?_, fun count bytes' => readSamples_insert⟩
  · rw [readSamples, readLines_eq_ok_iff]
    simp
  · rw [readSamples, readLines_eq_error_iff]
    simp only [Nat.add_comm 1]

/-- A space before a line that is another one, and a brace after them that does not close. -/
theorem readSamples_by_lines_brace :
    Inserted [123, 125, 10, 226, 128, 131, 13, 10, 123] 1
      [123, 125, 10, 194, 160, 13, 10, 226, 128, 131, 13, 10, 123] ∧
    readSamples [123, 125, 10, 226, 128, 131, 13, 10, 123] = .error (.badLine 3 .truncated) ∧
    readSamples [123, 125, 10, 194, 160, 13, 10, 226, 128, 131, 13, 10, 123] =
      .error (.badLine 4 .truncated) := by
  have hspace : Text.encode (String.ofList ['\u00a0']) = [194, 160] := by decide +kernel
  have hclosed : Text.Closed [123, 125, 10] := .inr ⟨[123, 125], rfl⟩
  have hinserted := Inserted.between hclosed ⟨['\u00a0'], by decide, by decide⟩ .returnLineFeed
    [226, 128, 131, 13, 10, 123]
  rw [Space.bytes, hspace] at hinserted
  have hshifted :=
    ((readSamples_by_lines [123, 125, 10, 226, 128, 131, 13, 10, 123]).2.2 _ _ hinserted).2
      (by decide)
  have hbad : readSamples [123, 125, 10, 226, 128, 131, 13, 10, 123] =
      .error (.badLine 3 .truncated) := by
    decide +kernel
  rw [hbad] at hshifted
  exact ⟨hinserted, hbad, hshifted⟩

end ScriptFeatures.Table
