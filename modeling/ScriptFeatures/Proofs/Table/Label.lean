import ScriptFeatures.Proofs.Json.Fields
import ScriptFeatures.Proofs.Table.SampleFile
import ScriptFeatures.Proofs.Text.PhysicalLines

/-! Labels of samples. A label may be written as any value, and gives what `Labels` says; but the
whole value is read before it is looked at, so one that nests too deep, or has a number too large
for binary64 or half a character in it, is refused with the sample around it
(`readSamples_labelled`), also where no label would come of it. -/

namespace ScriptFeatures

open Json (Form Marks Literal Value Spaced Answers)

/-! ## Words -/

namespace Text

theorem trim_append {left inner right : List Char} (hleft : left.all isBlank = true)
    (hright : right.all isBlank = true) (hinner : ∀ c ∈ inner, isBlank c = false) :
    trim (left ++ (inner ++ right)) = inner := by
  have hdropLeft : (left ++ (inner ++ right)).dropWhile isBlank =
      (inner ++ right).dropWhile isBlank :=
    List.dropWhile_append_of_pos (List.all_eq_true.mp hleft)
  rw [trim, hdropLeft]
  cases inner with
  | nil =>
    have hdrop : right.dropWhile isBlank = [] :=
      List.dropWhile_eq_nil_iff.mpr (List.all_eq_true.mp hright)
    rw [List.nil_append, hdrop]
    rfl
  | cons c cs =>
    have hfirst : ¬isBlank c = true := by simp [hinner c List.mem_cons_self]
    have hlast : ∀ d ∈ (c :: cs).reverse.head?, isBlank d = false := fun d hd =>
      hinner d (List.mem_reverse.mp (List.mem_of_mem_head? hd))
    -- nothing is taken at the front of the word, and then nothing at its end
    rw [List.cons_append, List.dropWhile_cons_of_neg hfirst, ← List.cons_append,
      List.reverse_append, List.dropWhile_append_of_pos (by simpa using hright)]
    cases hreverse : (c :: cs).reverse with
    | nil => simp at hreverse
    | cons d ds =>
      rw [hreverse] at hlast
      rw [List.dropWhile_cons_of_neg (by simp [hlast d rfl]), ← hreverse, List.reverse_reverse]

/-- A text is what trimming leaves of it, with white space around that. -/
theorem exists_trim (cs : List Char) :
    ∃ left right, cs = left ++ (trim cs ++ right) ∧ left.all isBlank = true ∧
      right.all isBlank = true := by
  refine ⟨cs.takeWhile isBlank, ((cs.dropWhile isBlank).reverse.takeWhile isBlank).reverse, ?_,
    List.all_takeWhile, ?_⟩
  · rw [trim, ← List.reverse_append, List.takeWhile_append_dropWhile, List.reverse_reverse,
      List.takeWhile_append_dropWhile]
  · rw [List.all_reverse]
    exact List.all_takeWhile

/-- White space is no letter. -/
theorem toLower_of_isBlank {c : Char} (h : isBlank c = true) : c.toLower = c := by
  have hcapital : ¬(c.val ≥ 'A'.val ∧ c.val ≤ 'Z'.val) := by
    rintro ⟨hlow, hhigh⟩
    have hlow : 65 ≤ c.toNat := hlow
    have hhigh : c.toNat ≤ 90 := hhigh
    simp only [isBlank, Bool.or_eq_true, Bool.and_eq_true, decide_eq_true_eq, beq_iff_eq] at h
    omega
  exact dif_neg hcapital

end Text

namespace Table

open Outcome

/-- Whether a text is a word with white space around it, in letters of any case. -/
def Spells (word : String) (s : String) : Prop :=
  ∃ left inner right, s.toList = left ++ (inner ++ right) ∧ left.all Text.isBlank = true ∧
    right.all Text.isBlank = true ∧ inner.map Char.toLower = word.toList

theorem spells_iff {word s : String} (hword : word.toList.any Text.isBlank = false) :
    Spells word s ↔ (Text.trim s.toList).map Char.toLower = word.toList := by
  constructor
  · rintro ⟨left, inner, right, hs, hleft, hright, hinner⟩
    have hvisible : ∀ c ∈ inner, Text.isBlank c = false := fun c hc => by
      refine Bool.eq_false_iff.mpr fun hblank => ?_
      -- it would stand in the word itself, since no letter is changed into white space
      have hmem : c ∈ word.toList := by
        rw [← hinner, ← Text.toLower_of_isBlank hblank]
        exact List.mem_map_of_mem hc
      exact List.any_eq_false.mp hword c hmem hblank
    rw [hs, Text.trim_append hleft hright hvisible, hinner]
  · intro h
    obtain ⟨left, right, hs, hleft, hright⟩ := Text.exists_trim s.toList
    exact ⟨left, _, right, hs, hleft, hright, h⟩

/-- The words for a label. -/
def words : Bool → List String
  | true => ["1", "true"]
  | false => ["0", "false"]

theorem spells_words_iff {s : String} {b : Bool} :
    (∃ word ∈ words b, Spells word s) ↔
      ∃ word ∈ words b, (Text.trim s.toList).map Char.toLower = word.toList := by
  have hvisible : ∀ word ∈ words b, word.toList.any Text.isBlank = false := by
    cases b <;> decide
  constructor
  · rintro ⟨word, hword, h⟩
    exact ⟨word, hword, (spells_iff (hvisible word hword)).mp h⟩
  · rintro ⟨word, hword, h⟩
    exact ⟨word, hword, (spells_iff (hvisible word hword)).mpr h⟩

theorem labelOfText?_eq_some_iff {s : String} {b : Bool} :
    labelOfText? s = some b ↔ ∃ word ∈ words b, Spells word s := by
  have heq (cs : List Char) (word : String) :
      (String.ofList cs == word) = true ↔ cs = word.toList := by
    rw [beq_iff_eq, ← String.toList_inj, String.toList_ofList]
  rw [spells_words_iff, labelOfText?]
  generalize (Text.trim s.toList).map Char.toLower = cs
  simp only [Bool.or_eq_true, heq]
  constructor
  · intro h
    split at h
    · next hword =>
      cases h
      simpa [words] using hword
    split at h
    · next hword =>
      cases h
      simpa [words] using hword
    · cases h
  · rintro ⟨word, hword, rfl⟩
    cases b <;> simp only [words, List.mem_cons, List.not_mem_nil, or_false] at hword <;>
      obtain rfl | rfl := hword <;> decide

/-! ## Values -/

/-- What a form that can be read gives as a label: a truth value itself, a number whether it is not
zero in binary64, a text the label whose word it spells; any other value gives none. -/
inductive Labels : Form → Option Bool → Prop
  | null : Labels (.atom .null) none
  | boolean (b : Bool) : Labels (.atom (.boolean b)) (some b)
  | number {l : Literal} {n : Json.Number} (h : l.number? = some n) :
    Labels (.atom (.number l)) (some (n.toFloat != 0))
  | text {marks : Marks} {s : String} {label : Option Bool} (h : marks.string? = some s)
      (hlabel : ∀ b, label = some b ↔ ∃ word ∈ words b, Spells word s) :
    Labels (.atom (.text marks)) label
  | array (items : List Form) : Labels (.array items) none
  | object (members : List (Marks × Form)) : Labels (.object members) none

theorem labels_of_value {f : Form} {v : Value} {depth : Nat} (h : f.value depth = .ok v) :
    Labels f (labelOf? v) := by
  cases f with
  | atom a =>
    rw [Form.value] at h
    cases a with
    | null =>
      cases h
      exact .null
    | boolean b =>
      cases h
      exact .boolean b
    | number l =>
      obtain ⟨n, hn, rfl⟩ := map_eq_ok_iff.mp h
      exact .number (Json.orMalformed_eq_ok_iff.mp hn)
    | text marks =>
      obtain ⟨s, hs, rfl⟩ := map_eq_ok_iff.mp h
      rw [labelOf?]
      exact .text (Json.orMalformed_eq_ok_iff.mp hs) fun b => labelOfText?_eq_some_iff
  | array items =>
    cases depth with
    | zero => cases h
    | succ depth =>
      obtain ⟨vs, -, rfl⟩ := map_eq_ok_iff.mp h
      exact .array items
  | object members =>
    cases depth with
    | zero => cases h
    | succ depth =>
      obtain ⟨ms, -, rfl⟩ := map_eq_ok_iff.mp h
      exact .object members

/-! ## Samples -/

/-- The labels of a sample. -/
inductive LabelField
  | malicious
  | obfuscated

namespace LabelField

/-- The name of the member for a label. -/
def name : LabelField → String
  | .malicious => "malicious"
  | .obfuscated => "obfuscated"

/-- Sets a label. -/
def set : LabelField → Option Bool → Sample → Sample
  | .malicious => fun label s => { s with malicious := label }
  | .obfuscated => fun label s => { s with obfuscated := label }

/-- The field of a sample for a label. -/
def toField (field : LabelField) : Json.Field Sample :=
  .defaulted field.name readLabel field.set

theorem find?_name (field : LabelField) :
    Sample.fields.find? (·.name == field.name) = some field.toField := by
  cases field <;> rfl

end LabelField

/-- An object with a script and a label as its members, in any order. -/
inductive Labelled (script : String) (field : LabelField) (value : Form) : Form → Prop
  | scriptFirst {js text name : Marks} (hjs : js.string? = some "js")
      (htext : text.string? = some script) (hname : name.string? = some field.name) :
    Labelled script field value (.object [(js, .atom (.text text)), (name, value)])
  | labelFirst {js text name : Marks} (hjs : js.string? = some "js")
      (htext : text.string? = some script) (hname : name.string? = some field.name) :
    Labelled script field value (.object [(name, value), (js, .atom (.text text))])

theorem answers_script {text : Marks} {script : String} (h : text.string? = some script) :
    Answers (Json.optional Json.readText) (Form.atom (.text text)).tokens (.ok (some script)) := by
  have htext : Answers Json.readText (Form.atom (.text text)).tokens _ := .scalar _ (.text text)
  rw [Json.Atom.value, h] at htext
  exact htext.optional_text

theorem LabelField.answers (field : LabelField) (value : Form) :
    Answers field.toField.read value.tokens
      ((value.value (Json.depthLimit - 1)).map fun v => field.set (labelOf? v)) := by
  have hlabel := ((Json.answers_readValue value (Json.depthLimit - 1)).map labelOf?).map field.set
  have hmap (x : Except Json.Fault Value) :
      (x.map labelOf?).map field.set = x.map fun v => field.set (labelOf? v) := by
    cases x <;> rfl
  rwa [hmap] at hlabel

theorem Labelled.answers {script : String} {field : LabelField} {value row : Form}
    (h : Labelled script field value row) :
    Answers Sample.read row.tokens
      ((value.value (Json.depthLimit - 1)).map fun v =>
        field.set (labelOf? v) (Sample.ofScript script)) := by
  have hoptional : ∀ field ∈ Sample.fields, field.required = false := by
    rintro _ (_ | ⟨_, _ | ⟨_, _ | ⟨_, _ | ⟨_, ⟨⟩⟩⟩⟩⟩) <;> rfl
  have hfind : Sample.fields.find? (·.name == "js") = some _ := rfl
  have hne : field.name ≠ "js" := by cases field <;> decide
  have hlabel := field.answers value
  cases h with
  | @scriptFirst js text name hjs htext hname =>
    have hscript := (answers_script htext).map fun x (s : Sample) => { s with script := x }
    have hrow := Json.answers_record_pair hoptional Sample.blank hjs hname hfind field.find?_name
      hne hscript hlabel
    generalize value.value (Json.depthLimit - 1) = x at hrow ⊢
    cases x <;> exact hrow
  | @labelFirst js text name hjs htext hname =>
    have hscript := (answers_script htext).map fun x (s : Sample) => { s with script := x }
    have hrow := Json.answers_record_pair hoptional Sample.blank hname hjs field.find?_name hfind
      hne.symm hlabel hscript
    generalize value.value (Json.depthLimit - 1) = x at hrow ⊢
    cases x with
    | error fault => exact hrow
    | ok v => cases field <;> exact hrow

/-! ## Files of one row -/

/-- A file of one line that has something else on it than white space. -/
theorem readSamples_line {line : List Char} (hbreak : '\n' ∉ line)
    (hvisible : ∃ c ∈ line, Text.isBlank c = false) :
    readSamples (Text.encode (String.ofList line)) =
      match Sample.read.whole line with
      | .ok s => .ok [s]
      | .error fault => .error (.badLine 1 fault) := by
  have hlines : Text.lines (Text.encode (String.ofList line)) =
      [Text.encode (String.ofList line)] := by
    obtain ⟨c, hc, -⟩ := hvisible
    obtain ⟨before, after, rfl⟩ := List.append_of_mem hc
    rw [Text.encode, Text.toUTF8_ofList]
    rw [Text.lines_of_notMem (mt (Text.lineFeed_mem_iff _).mp hbreak), List.flatMap_append,
      List.flatMap_cons]
    simp [String.utf8EncodeChar_ne_nil]
  have hline : line.all Text.isBlank = false := by
    obtain ⟨c, hc, hblank⟩ := hvisible
    exact List.all_eq_false.mpr ⟨c, hc, by simp [hblank]⟩
  rw [readSamples, hlines, readLines, readLine, Text.decode?_encode]
  dsimp only
  rw [String.toList_ofList, hline, if_neg Bool.false_ne_true]
  cases Sample.read.whole line <;> rfl

/-- The label of a row is read if its value can be read, and the row is refused if not. -/
theorem readSamples_labelled {script : String} {field : LabelField} {value row : Form}
    {line : List Char} (hrow : Labelled script field value row) (hline : Spaced row.tokens line)
    (hbreak : '\n' ∉ line) :
    (value.Readable 126 →
      ∃ label, Labels value label ∧ readSamples (Text.encode (String.ofList line)) =
        .ok [field.set label (Sample.ofScript script)]) ∧
    (¬value.Readable 126 →
      readSamples (Text.encode (String.ofList line)) = .error (.badLine 1 .malformed)) := by
  have hbrace : '{' ∈ line := by
    have htokens : ∃ ts, row.tokens = ['{'] :: ts := by cases hrow <;> exact ⟨_, rfl⟩
    obtain ⟨ts, hts⟩ := htokens
    rw [hts] at hline
    obtain ⟨blanks, rest, rfl, -⟩ := hline
    simp
  have hread := hrow.answers.whole hline
  change Sample.read.whole line = (value.value 126).map _ at hread
  rw [readSamples_line hbreak ⟨'{', hbrace, by decide⟩, hread]
  obtain ⟨hreadable, v, hv⟩ | ⟨hunreadable, hv⟩ := value.succeedsIff_value 126
  · rw [hv]
    exact ⟨fun _ => ⟨labelOf? v, labels_of_value hv, rfl⟩, fun h => (h hreadable).elim⟩
  · rw [hv]
    exact ⟨fun h => (hunreadable h).elim, fun _ => rfl⟩

/-- A word between spaces, in letters of both cases. -/
theorem readSamples_labelled_word :
    readSamples (Text.encode "\x7b\"js\":\"a\",\"malicious\":\" True \"\x7d") =
      .ok [⟨some "a", none, some true, none⟩] := by
  have hword : Marks.string? (.ofString " True ") = some " True " := Marks.string?_ofString _
  have hrow : Labelled "a" .malicious (.atom (.text (.ofString " True "))) _ :=
    .scriptFirst (Marks.string?_ofString "js") (Marks.string?_ofString "a")
      (Marks.string?_ofString "malicious")
  obtain ⟨label, hlabel, hread⟩ := (readSamples_labelled hrow (Spaced.flatten _) (by decide)).1
    ⟨Nat.zero_le _, by rw [Form.Meant, hword]; rfl⟩
  cases hlabel with
  | text hmarks hlabel =>
    cases hword.symm.trans hmarks
    have hspells : Spells "true" " True " :=
      ⟨[' '], ['T', 'r', 'u', 'e'], [' '], rfl, rfl, rfl, rfl⟩
    rw [(hlabel true).mpr ⟨"true", by decide, hspells⟩] at hread
    exact hread

/-- A number that is too large for binary64. -/
def largeNumber : Literal where
  negative := false
  whole := ⟨1, []⟩
  unpadded _ := rfl
  fraction := none
  exponent := some ⟨false, none, ⟨9, [9, 9]⟩⟩

/-- A number that is too large is refused, though it is not zero. -/
theorem not_readSamples_labelled :
    ∃ row, Labelled "a" .malicious (.atom (.number largeNumber)) row ∧
      Spaced row.tokens "\x7b\"js\":\"a\",\"malicious\":1e999\x7d".toList ∧
      readSamples (Text.encode "\x7b\"js\":\"a\",\"malicious\":1e999\x7d") =
        .error (.badLine 1 .malformed) := by
  refine ⟨_, .scriptFirst (Marks.string?_ofString "js") (Marks.string?_ofString "a")
    (Marks.string?_ofString "malicious"), ?_, by decide +kernel⟩
  exact Spaced.flatten _

end Table

end ScriptFeatures
