import Mathlib.Data.List.Forall2
import ScriptFeatures.Proofs.Json.Document
import ScriptFeatures.Proofs.Json.Fields

/-! Records are completed field by field.

`Remains v f` says that the form `f` is what is left of the written value `v` after members of its
objects were deleted and moved and others, of unknown names, were put in. A record is read from what
is left of it as the one whose fields are those that are still there, and the blank record's
otherwise: `complete given` is the record of which the fields with the names `given` were set, and
each member goes on to one with a field more (`throughMembers_complete`). -/

namespace ScriptFeatures.Json

/-! ## What is left of a value -/

/-- The names of members. -/
def names (members : List (Marks × Form)) : List String :=
  members.filterMap (·.1.string?)

theorem names_cons {marks : Marks} {name : String} (h : marks.string? = some name) (f : Form)
    (members : List (Marks × Form)) : names ((marks, f) :: members) = name :: names members :=
  List.filterMap_cons_some h

/-- A form of what is left of a value after members of its objects were deleted and moved, and
others of unknown names were put in. What is no container is as it was written. -/
inductive Remains : Value → Form → Prop
  | atom {v : Value} {a : Atom} (h : a.chars = v.write .line []) : Remains v (.atom a)
  | array {vs : List Value} {fs : List Form} (h : List.Forall₂ Remains vs fs) :
    Remains (.array vs) (.array fs)
  | object {ms : List (String × Value)} {fs : List (Marks × Form)}
      (hnamed : ∀ m ∈ fs, m.1.string?.isSome = true)
      (honce : ((names fs).filter (ms.map Prod.fst).contains).Nodup)
      (hkept : ∀ m ∈ fs, ∀ name v, m.1.string? = some name → (name, v) ∈ ms → Remains v m.2) :
    Remains (.object ms) (.object fs)

namespace Form

/-- The member of an object with a name. -/
def member? (name : String) : Form → Option Form
  | .object members => (members.find? (·.1.string? == some name)).map Prod.snd
  | _ => none

/-- Whether there is a member at the end of a path. -/
def has : Form → List String → Bool
  | _, [] => true
  | f, name :: path => (f.member? name).any (·.has path)

theorem has_cons_of_member? {f g : Form} {name : String} (h : f.member? name = some g)
    (path : List String) : f.has (name :: path) = g.has path := by
  rw [has, h, Option.any_some]

theorem has_cons_of_none {f : Form} {name : String} (h : f.member? name = none)
    (path : List String) : f.has (name :: path) = false := by
  rw [has, h, Option.any_none]

theorem has_singleton (f : Form) (name : String) : f.has [name] = (f.member? name).isSome := by
  rw [has]
  cases f.member? name <;> rfl

theorem member?_isSome_iff {members : List (Marks × Form)} {name : String} :
    ((Form.object members).member? name).isSome = true ↔ name ∈ names members := by
  rw [member?, Option.isSome_map, List.find?_isSome, names, List.mem_filterMap]
  simp

theorem mem_names_of_mem {members : List (Marks × Form)} {m : Marks × Form} {name : String}
    (hm : m ∈ members) (hname : m.1.string? = some name) : name ∈ names members :=
  List.mem_filterMap.mpr ⟨m, hm, hname⟩

/-- The only member with a name is the member with this name. -/
theorem member?_of_mem {members : List (Marks × Form)} {known : String → Bool} {m : Marks × Form}
    {name : String} (honce : ((names members).filter known).Nodup) (hm : m ∈ members)
    (hname : m.1.string? = some name) (hknown : known name = true) :
    (Form.object members).member? name = some m.2 := by
  induction members with
  | nil => cases hm
  | cons first members ih =>
    by_cases hfirst : first.1.string? = some name
    · rw [member?, List.find?_cons_of_pos (by simp [hfirst])]
      obtain rfl | hlater := List.mem_cons.mp hm
      · rfl
      · have hnames : names (first :: members) = name :: names members := names_cons hfirst _ _
        rw [hnames, List.filter_cons_of_pos hknown, List.nodup_cons] at honce
        exact (honce.1 (List.mem_filter.mpr ⟨mem_names_of_mem hlater hname, hknown⟩)).elim
    · obtain rfl | hlater := List.mem_cons.mp hm
      · exact (hfirst hname).elim
      · have hsublist : (names members).Sublist (names (first :: members)) :=
          (List.sublist_cons_self first members).filterMap _
        rw [member?, List.find?_cons_of_neg (by simp [hfirst])]
        exact ih (honce.sublist (hsublist.filter known)) hlater

end Form

theorem Remains.exists_array {vs : List Value} {f : Form} (h : Remains (.array vs) f) :
    ∃ fs, f = .array fs ∧ List.Forall₂ Remains vs fs := by
  cases h with
  | @atom _ atom hatom =>
    obtain ⟨c, cs, hcs, -, -, hbracket, -⟩ := atom.exists_cons
    obtain ⟨cs', hwrite⟩ := Value.write_array .line vs []
    rw [hcs, hwrite] at hatom
    exact (hbracket (List.cons.inj hatom).1).elim
  | @array _ fs hitems => exact ⟨fs, rfl, hitems⟩

theorem Remains.exists_object {ms : List (String × Value)} {f : Form}
    (h : Remains (.object ms) f) : ∃ members, f = .object members := by
  cases h with
  | @atom _ atom hatom =>
    obtain ⟨c, cs, hcs, -, -, -, hbrace⟩ := atom.exists_cons
    obtain ⟨cs', hwrite⟩ := Value.write_object .line ms []
    rw [hcs, hwrite] at hatom
    exact (hbrace (List.cons.inj hatom).1).elim
  | @object _ members _ _ _ => exact ⟨members, rfl⟩

/-! ## Values that are no records -/

theorem quote_append (s : String) (rest : List Char) : quote s rest = quote s [] ++ rest := by
  rw [quote, quote, List.cons_append]
  refine congrArg (List.cons _) ?_
  induction s.toList with
  | nil => rfl
  | cons c cs ih => rw [List.foldr_cons, List.foldr_cons, ih, List.append_assoc]

theorem Number.write_append (n : Number) (rest : List Char) :
    n.write rest = n.write [] ++ rest := by
  unfold write
  split <;> simp

theorem Scalar.not_array {vs : List Value} {w : Value} (h : Scalar (.array vs) w) : False := by
  obtain ⟨cs, hcs⟩ := Value.write_array .line vs []
  have hread := h .line .nil
  rw [hcs, readScalar_cons_eq_error (by decide)] at hread
  cases hread

theorem Scalar.not_object {ms : List (String × Value)} {w : Value} (h : Scalar (.object ms) w) :
    False := by
  obtain ⟨cs, hcs⟩ := Value.write_object .line ms []
  have hread := h .line .nil
  rw [hcs, readScalar_cons_eq_error (by decide)] at hread
  cases hread

theorem Scalar.write_append {v w : Value} (h : Scalar v w) (rest : List Char) :
    v.write .line rest = v.write .line [] ++ rest := by
  cases v with
  | null => rfl
  | boolean b => cases b <;> rfl
  | number n => exact n.write_append rest
  | text s => exact quote_append s rest
  | array vs => exact h.not_array.elim
  | object ms => exact h.not_object.elim

/-- A scalar is read as it was written. -/
theorem Remains.answers_scalar {read : Read α} {v w : Value} {a : α} {f : Form} (h : Remains v f)
    (hv : Scalar v w) (hread : Reads read v a) : Answers read f.tokens (.ok a) := by
  cases h with
  | @atom _ atom hatom =>
    refine .atom fun {cs rest} hrest hcs => ?_
    rw [hatom, ← hv.write_append rest] at hcs
    exact hread.reads .line hrest hcs
  | array _ => exact hv.not_array.elim
  | object _ _ _ => exact hv.not_object.elim

theorem Remains.answers_word {n : Nat} {f : Form} (h : Remains (.natural n) f)
    (hn : n < UInt64.size) : Answers readWord f.tokens (.ok n) :=
  h.answers_scalar (.natural hn) (.natural hn (Nat.le_refl _))

theorem Remains.answers_boolean {b : Bool} {f : Form} (h : Remains (.boolean b) f) :
    Answers readBoolean f.tokens (.ok b) :=
  h.answers_scalar (.boolean b) (.boolean b)

theorem Remains.answers_text {s : String} {f : Form} (h : Remains (.text s) f) :
    Answers readText f.tokens (.ok s) :=
  h.answers_scalar (.text s) (.text s)

theorem Remains.answers_real {x : Float} {f : Form} (h : Remains (.real x) f)
    (hfinite : x.isFinite = true) (hback : Number.ReadsBack x) :
    Answers readReal f.tokens (.ok x) := by
  have hreads := Reads.real hfinite hback.readable
  rw [hback.reread_eq] at hreads
  exact h.answers_scalar (.real fun _ => hback) hreads

/-- Items are read as those of a list if each of them is. -/
theorem Remains.mapM_outcome {read : Read β} {encode : β → Value} {as : List β} {fs : List Form}
    (h : List.Forall₂ Remains (as.map encode) fs)
    (hread : ∀ a {f}, Remains (encode a) f → Answers read f.tokens (.ok a)) :
    (∀ f ∈ fs, Answers read f.tokens (read.outcome f)) ∧ fs.mapM read.outcome = .ok as := by
  induction as generalizing fs with
  | nil =>
    cases h
    exact ⟨List.forall_mem_nil _, rfl⟩
  | cons a as ih =>
    rw [List.map_cons] at h
    cases h with
    | @cons _ f _ fs hfirst hlater =>
      obtain ⟨hanswers, hmapM⟩ := ih hlater
      have ha := hread a hfirst
      rw [List.mapM_cons, ha.outcome_eq, hmapM]
      exact ⟨List.forall_mem_cons.mpr ⟨ha.outcome_eq ▸ ha, hanswers⟩, rfl⟩

theorem Remains.answers_listOf {read : Read β} {encode : β → Value} {as : List β} {f : Form}
    (h : Remains (.array (as.map encode)) f)
    (hread : ∀ a {f}, Remains (encode a) f → Answers read f.tokens (.ok a)) :
    Answers (listOf read) f.tokens (.ok as) := by
  obtain ⟨fs, rfl, hitems⟩ := h.exists_array
  obtain ⟨hanswers, hmapM⟩ := mapM_outcome hitems hread
  have hlist := Json.answers_listOf fs hanswers
  rwa [hmapM] at hlist

/-! ## Members one after the other -/

/-- The names that are given with one more. -/
def also (name : String) (given : String → Bool) : String → Bool :=
  fun other => other == name || given other

/-- A member sets a field of the record that is completed so far, or is of no field. -/
inductive MemberCompletes (fields : List (Field σ)) (complete : (String → Bool) → σ) :
    Marks × Form → Prop
  | field {name : Marks} {s : String} {f : Form} {field : Field σ} {set : σ → σ}
      (hname : name.string? = some s) (hfield : fields.find? (·.name == s) = some field)
      (h : Answers field.read f.tokens (.ok set))
      (hset : ∀ given, set (complete given) = complete (also s given)) :
    MemberCompletes fields complete (name, f)
  | other {name : Marks} {s : String} (hname : name.string? = some s)
      (hother : fields.find? (·.name == s) = none) (f : Form) :
    MemberCompletes fields complete (name, f)

section

variable {fields : List (Field σ)} {complete : (String → Bool) → σ}

theorem MemberCompletes.answers {m : Marks × Form} (h : MemberCompletes fields complete m) :
    MemberAnswers fields m := by
  cases h with
  | field hname hfield h _ => exact .field hname hfield h
  | other hname hother f => exact .other hname hother f

/-- Whether a field has a name. -/
def isField (fields : List (Field σ)) (name : String) : Bool :=
  (fields.find? (·.name == name)).isSome

/-- Members complete a record, by induction on them: the fields that are set in the end are those
that were set before and those that the members have the names of. -/
theorem throughMembers_complete (members : List (Marks × Form))
    (h : ∀ m ∈ members, MemberCompletes fields complete m) (seen : List String)
    (honce : ((names members).filter (isField fields)).Nodup)
    (hnew : ∀ name ∈ (names members).filter (isField fields), name ∉ seen) :
    ∃ seen', throughMembers (fieldOutcome fields) members (complete seen.contains, seen) =
        .ok (complete seen'.contains, seen') ∧
      ∀ name, isField fields name = true → (name ∈ seen' ↔ name ∈ seen ∨ name ∈ names members) := by
  induction members generalizing seen with
  | nil => exact ⟨seen, rfl, fun name _ => by simp [names]⟩
  | cons m members ih =>
    rw [List.forall_mem_cons] at h
    cases h.1 with
    | @other name s hname hother f =>
      have hunknown : isField fields s = false := by rw [isField, hother]; rfl
      rw [names_cons hname, List.filter_cons_of_neg (by simp [hunknown])] at honce hnew
      obtain ⟨seen', hthrough, hseen'⟩ := ih h.2 seen honce hnew
      refine ⟨seen', ?_, fun name hfield => ?_⟩
      · rw [throughMembers_cons hname, fieldOutcome, hother]
        exact hthrough
      · have hne : name ≠ s := by
          rintro rfl
          exact Bool.false_ne_true (hunknown.symm.trans hfield)
        rw [hseen' name hfield, names_cons hname, List.mem_cons, or_iff_right hne]
    | @field name s f field set hname hfield hread hset =>
      have hknown : isField fields s = true := by rw [isField, hfield]; rfl
      rw [names_cons hname, List.filter_cons_of_pos hknown] at honce hnew
      rw [List.nodup_cons] at honce
      rw [List.forall_mem_cons] at hnew
      have hnew' : ∀ name ∈ (names members).filter (isField fields), name ∉ s :: seen := by
        intro name hname' hmem
        obtain rfl | hmem := List.mem_cons.mp hmem
        · exact honce.1 hname'
        · exact hnew.2 name hname' hmem
      have hstep : set (complete seen.contains) = complete (s :: seen).contains := by
        rw [hset]
        exact congrArg complete (funext fun _ => List.contains_cons.symm)
      obtain ⟨seen', hthrough, hseen'⟩ := ih h.2 (s :: seen) honce.2 hnew'
      refine ⟨seen', ?_, fun name hfield => ?_⟩
      · rw [throughMembers_cons hname,
          fieldOutcome_of_find hfield (by simpa using hnew.1) hread]
        change throughMembers (fieldOutcome fields) members
          (set (complete seen.contains), s :: seen) = _
        rw [hstep]
        exact hthrough
      · rw [hseen' name hfield, names_cons hname, List.mem_cons, List.mem_cons, or_assoc,
          or_left_comm]

end

/-! ## Records -/

/-- A field of a record with the member it is written as: whatever is left of the value of this
member sets the field. -/
structure Completes (complete : (String → Bool) → σ) (members : List (Marks × Form))
    (field : Field σ) (m : String × Value) : Prop where
  name_eq : field.name = m.1
  optional : field.required = false
  answers {f : Form} : (Form.object members).member? m.1 = some f → Remains m.2 f →
    ∃ set, Answers field.read f.tokens (.ok set) ∧
      ∀ given, set (complete given) = complete (also m.1 given)

theorem Completes.defaulted {complete : (String → Bool) → σ} {members : List (Marks × Form)}
    {name : String} {v : Value} {read : Read α} {set : α → σ → σ} {a : α}
    (hread : ∀ {f}, (Form.object members).member? name = some f → Remains v f →
      Answers read f.tokens (.ok a))
    (hset : ∀ given, set a (complete given) = complete (also name given)) :
    Completes complete members (.defaulted name read set) (name, v) where
  name_eq := rfl
  optional := rfl
  answers hmember hleft := ⟨set a, (hread hmember hleft).map set, hset⟩

section

variable {fields : List (Field σ)} {complete : (String → Bool) → σ} {ms : List (String × Value)}
  {members : List (Marks × Form)}

/-- A field is written as the member of its name. -/
theorem exists_member (h : List.Forall₂ (Completes complete members) fields ms) {name : String}
    {field : Field σ} (hfield : fields.find? (·.name == name) = some field) :
    ∃ v, (name, v) ∈ ms ∧ Completes complete members field (name, v) := by
  induction h with
  | nil => cases hfield
  | @cons first m fields ms hfirst _ ih =>
    by_cases hname : first.name = name
    · rw [List.find?_cons_of_pos (by simp [hname])] at hfield
      cases hfield
      obtain ⟨name', v⟩ := m
      obtain rfl : name' = name := hfirst.name_eq.symm.trans hname
      exact ⟨v, List.mem_cons_self, hfirst⟩
    · rw [List.find?_cons_of_neg (by simp [hname])] at hfield
      obtain ⟨v, hv, hcompletes⟩ := ih hfield
      exact ⟨v, List.mem_cons_of_mem _ hv, hcompletes⟩

theorem isField_eq (h : List.Forall₂ (Completes complete members) fields ms) :
    isField fields = (ms.map Prod.fst).contains := by
  funext name
  induction h with
  | nil => rfl
  | @cons first m fields ms hfirst _ ih =>
    rw [List.map_cons, List.contains_cons, ← ih, isField, List.find?_cons, hfirst.name_eq,
      BEq.comm]
    cases name == m.1 <;> rfl

theorem required_eq_false (h : List.Forall₂ (Completes complete members) fields ms) :
    ∀ field ∈ fields, field.required = false := by
  induction h with
  | nil => exact fun _ h => nomatch h
  | cons hfirst _ ih => exact List.forall_mem_cons.mpr ⟨hfirst.optional, ih⟩

/-- A record is read from what is left of its text, completed by the fields that are still there. -/
theorem Remains.answers_record (h : Remains (.object ms) (.object members))
    (hfields : List.Forall₂ (Completes complete members) fields ms)
    (hcongr : ∀ given given', (∀ name ∈ ms.map Prod.fst, given name = given' name) →
      complete given = complete given') :
    Answers (record fields (complete fun _ => false)) (Form.object members).tokens
      (.ok (complete fun name => (Form.object members).has [name])) := by
  cases h with
  | object hnamed honce hkept =>
    have hcompletes : ∀ m ∈ members, MemberCompletes fields complete m := by
      rintro ⟨marks, f⟩ hm
      obtain ⟨name, hname⟩ := Option.isSome_iff_exists.mp (hnamed _ hm)
      cases hfield : fields.find? (·.name == name) with
      | none => exact .other hname hfield f
      | some field =>
        -- the name stands once among the members, so this is the member that the field is read from
        obtain ⟨v, hv, hcompletes⟩ := exists_member hfields hfield
        have hknown : (ms.map Prod.fst).contains name = true :=
          List.contains_iff_mem.mpr (List.mem_map_of_mem hv)
        obtain ⟨set, hread, hset⟩ := hcompletes.answers
          (Form.member?_of_mem honce hm hname hknown) (hkept _ hm name v hname hv)
        exact .field hname hfield hread hset
    rw [← isField_eq hfields] at honce
    obtain ⟨seen, hthrough, hseen⟩ :=
      throughMembers_complete members hcompletes [] honce fun _ _ => List.not_mem_nil
    -- the names that were met are those the members have, as far as the record looks at them
    have hnames : complete seen.contains =
        complete fun name => (Form.object members).has [name] := by
      refine hcongr _ _ fun name hname => ?_
      have hknown : isField fields name = true := by
        rw [isField_eq hfields]
        exact List.contains_iff_mem.mpr hname
      rw [Form.has_singleton, Bool.eq_iff_iff, Form.member?_isSome_iff, List.contains_iff_mem,
        hseen name hknown, or_iff_right List.not_mem_nil]
    have hanswers := Json.answers_record (complete fun _ => false)
      fun m hm => (hcompletes m hm).answers
    change throughMembers _ _ (complete fun _ => false, []) = _ at hthrough
    rw [recordOutcome_of_optional (required_eq_false hfields), hthrough] at hanswers
    rw [← hnames]
    exact hanswers

end

end ScriptFeatures.Json
