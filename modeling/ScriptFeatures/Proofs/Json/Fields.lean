import ScriptFeatures.Json.Record
import ScriptFeatures.Proofs.Json.Answers
import ScriptFeatures.Proofs.Json.Passing

/-! Records are read member by member: a member whose name a field has sets this field, unless it
was set before; any other member is run over, whatever its value is. -/

namespace ScriptFeatures.Json

/-- What a reader makes of a form that is written without blanks. -/
def Read.outcome (read : Read α) (f : Form) : Except Fault α :=
  (read f.tokens.flatten).map Prod.fst

theorem Answers.outcome_eq {read : Read α} {f : Form} {o : Except Fault α}
    (h : Answers read f.tokens o) : read.outcome f = o := by
  have htokens : Spaced (f.tokens ++ []) f.tokens.flatten := by
    rw [List.append_nil]
    exact .flatten _
  have hanswer := h.answer closing_nil htokens
  rw [Read.outcome]
  generalize read f.tokens.flatten = x at hanswer
  cases hanswer <;> rfl

/-- What a member makes of a record and the names of the fields that were set. -/
def fieldOutcome (fields : List (Field σ)) (s : σ × List String) (name : String) (f : Form) :
    Except Fault (σ × List String) :=
  match fields.find? (·.name == name) with
  | none => .ok s
  | some field =>
    if s.2.contains name then .error .mismatch
    else (field.read.outcome f).map fun set => (set s.1, name :: s.2)

theorem fieldOutcome_of_find {fields : List (Field σ)} {s : σ} {seen : List String} {name : String}
    {f : Form} {field : Field σ} {o : Except Fault (σ → σ)}
    (hfield : fields.find? (·.name == name) = some field) (hnew : seen.contains name = false)
    (h : Answers field.read f.tokens o) :
    fieldOutcome fields (s, seen) name f = o.map fun set => (set s, name :: seen) := by
  rw [fieldOutcome, hfield, ← h.outcome_eq]
  exact if_neg (Bool.eq_false_iff.mp hnew)

/-- What members make of a record. -/
def recordOutcome (fields : List (Field σ)) (blank : σ) (members : List (Marks × Form)) :
    Except Fault σ := do
  let (s, seen) ← throughMembers (fieldOutcome fields) members (blank, [])
  if fields.all fun field => !field.required || seen.contains field.name then .ok s
  else .error .mismatch

/-- Where no field has to be there, members that are read make a record. -/
theorem recordOutcome_of_optional {fields : List (Field σ)}
    (h : ∀ field ∈ fields, field.required = false) (blank : σ) (members : List (Marks × Form)) :
    recordOutcome fields blank members =
      (throughMembers (fieldOutcome fields) members (blank, [])).map Prod.fst := by
  have hall (seen : List String) :
      fields.all (fun field => !field.required || seen.contains field.name) = true :=
    List.all_eq_true.mpr fun field hfield => by rw [h field hfield]; rfl
  rw [recordOutcome]
  cases throughMembers (fieldOutcome fields) members (blank, []) with
  | error fault => rfl
  | ok s => exact if_pos (hall s.2)

/-- A member whose value the reader of its field takes or refuses, or one that no field has the
name of. -/
inductive MemberAnswers (fields : List (Field σ)) : Marks × Form → Prop
  | field {name : Marks} {s : String} {f : Form} {field : Field σ} {o : Except Fault (σ → σ)}
      (hname : name.string? = some s) (hfield : fields.find? (·.name == s) = some field)
      (h : Answers field.read f.tokens o) : MemberAnswers fields (name, f)
  | other {name : Marks} {s : String} (hname : name.string? = some s)
      (hother : fields.find? (·.name == s) = none) (f : Form) : MemberAnswers fields (name, f)

section

variable {fields : List (Field σ)}

theorem MemberAnswers.answers_readField {m : Marks × Form} (h : MemberAnswers fields m)
    {name : String} (hname : m.1.string? = some name) (s : σ × List String) :
    Answers (readField fields s name) ([':'] :: m.2.tokens) (fieldOutcome fields s name m.2) := by
  rw [readField, fieldOutcome]
  cases h with
  | other hname' hother f =>
    cases hname.symm.trans hname'
    rw [hother]
    exact ((answers_skipValue f).map fun _ => s).after_colon
  | @field _ _ f field _ hname' hfield h =>
    cases hname.symm.trans hname'
    rw [hfield]
    dsimp only
    by_cases hseen : s.2.contains name = true
    · rw [if_pos hseen, if_pos hseen]
      exact ⟨fun _ _ => .fault .mismatch⟩
    · rw [if_neg hseen, if_neg hseen, h.outcome_eq]
      exact (h.map fun set => (set s.1, name :: s.2)).after_colon

theorem answers_record (blank : σ) {members : List (Marks × Form)}
    (h : ∀ m ∈ members, MemberAnswers fields m) :
    Answers (record fields blank) (Form.object members).tokens
      (recordOutcome fields blank members) where
  answer {ts cs} _ hcs := by
    obtain ⟨rest, hdrop, hanswer⟩ := answer_readMembers_object members
      (fun m hm s _ hname => (h m hm).answers_readField hname s) (blank, []) hcs
    rw [record, hdrop, recordOutcome]
    dsimp only
    rw [if_pos rfl]
    refine hanswer.bind fun s rest _ hrest => ?_
    dsimp only
    split
    · exact .value _ hrest
    · exact .fault _

/-- Where no field has to be there, an object of two members with fields of different names sets
both, the first one first. -/
theorem answers_record_pair (hoptional : ∀ field ∈ fields, field.required = false) (blank : σ)
    {marks marks' : Marks} {name name' : String} {field field' : Field σ} {f f' : Form}
    {o o' : Except Fault (σ → σ)} (hname : marks.string? = some name)
    (hname' : marks'.string? = some name') (hfield : fields.find? (·.name == name) = some field)
    (hfield' : fields.find? (·.name == name') = some field') (hne : name' ≠ name)
    (h : Answers field.read f.tokens o) (h' : Answers field'.read f'.tokens o') :
    Answers (record fields blank) (Form.object [(marks, f), (marks', f')]).tokens
      (o >>= fun set => o'.map fun set' => set' (set blank)) := by
  have hrecord := answers_record blank (List.forall_mem_cons.mpr
    ⟨.field hname hfield h, List.forall_mem_singleton.mpr (.field hname' hfield' h')⟩)
  rw [recordOutcome_of_optional hoptional, throughMembers_cons hname,
    fieldOutcome_of_find hfield rfl h] at hrecord
  have hnew : [name].contains name' = false := by simpa using hne
  have hlater (s : σ) : throughMembers (fieldOutcome fields) [(marks', f')] (s, [name]) =
      o'.map fun set' => (set' s, [name', name]) := by
    rw [throughMembers_cons hname', fieldOutcome_of_find hfield' hnew h']
    cases o' <;> rfl
  cases o with
  | error fault => exact hrecord
  | ok set =>
    change Answers _ _ ((throughMembers _ _ (set blank, [name])).map Prod.fst) at hrecord
    rw [hlater] at hrecord
    cases o' <;> exact hrecord

end

end ScriptFeatures.Json
