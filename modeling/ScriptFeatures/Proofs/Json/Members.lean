import ScriptFeatures.Json.Record
import ScriptFeatures.Proofs.Json.Reads

/-! Written objects are read back.

`Steps step s members t` says that `step` goes from `s` to `t` over the text of the members one by
one; then the text of the whole object is read so, by induction on the members. A record is read
where the members set its fields or have other names and are run over (`Fills`); a value where each
member is a value. -/

namespace ScriptFeatures.Json

/-! ## Members -/

theorem ends_writeMembers (layout : Layout) (members : List (String × Value)) {rest : List Char}
    (h : Ends rest) : Ends (Value.writeMembers layout members rest) := by
  cases members with
  | nil => exact h
  | cons m ms => exact .cons rfl _

theorem nextMember_end (layout : Layout) (first : Bool) (rest : List Char) :
    nextMember first (layout.newline ('}' :: rest)) = .ok (none, rest) := by
  rw [nextMember, dropBlanks_newline, dropBlanks_cons rfl]
  exact if_pos rfl

theorem nextMember_first (layout : Layout) (name : String) (cs : List Char) :
    nextMember true (layout.newline (quote name cs)) = .ok (some name, cs) := by
  rw [nextMember, dropBlanks_newline, quote, dropBlanks_cons rfl]
  simp only [unquote_quote]
  rfl

theorem nextMember_later (layout : Layout) (name : String) (cs : List Char) :
    nextMember false (',' :: layout.newline (quote name cs)) = .ok (some name, cs) := by
  rw [nextMember, dropBlanks_cons rfl]
  simp only [dropBlanks_newline]
  rw [quote, dropBlanks_cons rfl]
  simp only [unquote_quote]
  rfl

theorem readMembers_cons (step : σ → String → Read σ) (b : Char) (bound : List Char)
    (first : Bool) (s : σ) (cs : List Char) :
    readMembers step (b :: bound) first s cs =
      (nextMember first cs >>= fun (name, cs) =>
        match name with
        | none => pure (s, cs)
        | some name => step s name cs >>= fun (s, cs) => readMembers step bound false s cs) :=
  rfl

/-- Members that `step` goes over one after the other, as their values are written. -/
inductive Steps (step : σ → String → Read σ) : σ → List (String × Value) → σ → Prop
  | nil (s : σ) : Steps step s [] s
  | cons {s s' t : σ} {name : String} {v : Value} {members : List (String × Value)}
      (hstep : ∀ (layout inner : Layout) {rest : List Char}, Ends rest →
        step s name (layout.colon (v.write inner rest)) = .ok (s', rest))
      (hrest : Steps step s' members t) : Steps step s ((name, v) :: members) t

section

variable {step : σ → String → Read σ} {s t : σ} {members : List (String × Value)}

/-- The members of an object after the first are taken back, by induction on them. -/
theorem readMembers_writeMembers (layout outer : Layout) (rest : List Char)
    (h : Steps step s members t) (bound : List Char) (hbound : members.length < bound.length) :
    readMembers step bound false s
        (Value.writeMembers layout members (outer.newline ('}' :: rest))) = .ok (t, rest) := by
  induction h generalizing bound with
  | nil s =>
    obtain ⟨b, bound, rfl⟩ := List.exists_cons_of_length_pos hbound
    rw [Value.writeMembers, readMembers_cons, nextMember_end]
    rfl
  | @cons s s' t name v members hstep _ ih =>
    obtain ⟨b, bound, rfl⟩ := List.exists_cons_of_length_pos (Nat.zero_lt_of_lt hbound)
    have hends := ends_writeMembers layout members (ends_newline outer (c := '}') rfl rest)
    rw [Value.writeMembers, readMembers_cons, nextMember_later]
    change (step s name _ >>= fun p => readMembers step bound false p.1 p.2) = _
    rw [hstep layout layout hends]
    exact ih bound (Nat.lt_of_succ_lt_succ hbound)

/-- The members of an object are taken back after its brace. -/
theorem Steps.readMembers_object (h : Steps step s members t) (layout : Layout)
    (rest : List Char) : ∃ cs, (Value.object members).write layout rest = '{' :: cs ∧
      readMembers step ('{' :: cs) true s cs = .ok (t, rest) := by
  cases h with
  | nil => exact ⟨_, rfl, rfl⟩
  | @cons _ s' _ name v members hstep hrest =>
    have hends := ends_writeMembers layout.inner members
      (ends_newline layout (c := '}') rfl rest)
    have hclose := layout.length_newline ('}' :: rest)
    have hlength := Value.length_writeMembers layout.inner members (layout.newline ('}' :: rest))
    have hwrite := length_writeMember layout.inner layout name
      (v.length_write layout.inner (Value.writeMembers layout.inner members
        (layout.newline ('}' :: rest))))
    refine ⟨_, rfl, ?_⟩
    rw [readMembers_cons, nextMember_first]
    change (step s name _ >>= fun p => readMembers step _ false p.1 p.2) = _
    rw [hstep layout layout.inner hends]
    refine readMembers_writeMembers layout.inner layout rest hrest _ ?_
    simp only [List.length_cons] at hclose
    omega

end

/-- What is taken back is taken back after a colon. -/
theorem Reads.after_colon {read : Read α} {v : Value} {a : α} (h : Reads read v a)
    (layout inner : Layout) {rest : List Char} (hrest : Ends rest) :
    ∃ cs, readColon (layout.colon (v.write inner rest)) = .ok ((), cs) ∧
      read cs = .ok (a, rest) := by
  obtain ⟨cs, hcolon, hcs⟩ := readColon_colon layout (v.write inner rest)
  rw [h.dropBlanks_write inner hrest] at hcs
  exact ⟨cs, hcolon, h.reads inner hrest hcs⟩

/-! ## Records -/

/-- Members of an object that make a record: each sets a field that was not set before, or has
another name and is run over. A state is the record so far with the names of the fields it has been
given. -/
inductive Fills (fields : List (Field σ)) :
    σ × List String → List (String × Value) → σ × List String → Prop
  | nil (s : σ × List String) : Fills fields s [] s
  | cons {s : σ} {seen : List String} {name : String} {v : Value}
      {members : List (String × Value)} {t : σ × List String} {field : Field σ} {set : σ → σ}
      (hfield : fields.find? (·.name == name) = some field) (hnew : seen.contains name = false)
      (hread : Reads field.read v set) (hrest : Fills fields (set s, name :: seen) members t) :
      Fills fields (s, seen) ((name, v) :: members) t
  | skip {s : σ × List String} {name : String} {v : Value} {members : List (String × Value)}
      {t : σ × List String} (hother : fields.find? (·.name == name) = none)
      (hskip : Reads skipValue v ()) (hrest : Fills fields s members t) :
      Fills fields s ((name, v) :: members) t

theorem Fills.steps {fields : List (Field σ)} {s t : σ × List String}
    {members : List (String × Value)} (h : Fills fields s members t) :
    Steps (readField fields) s members t := by
  induction h with
  | nil s => exact .nil s
  | cons hfield hnew hread _ ih =>
    refine .cons (fun layout inner rest hrest => ?_) ih
    obtain ⟨cs, hcolon, hvalue⟩ := hread.after_colon layout inner hrest
    rw [readField, hfield]
    simp only [hnew, Bool.false_eq_true, if_false]
    rw [Read.bind_of_ok hcolon, Read.bind_of_ok hvalue]
    rfl
  | skip hother hskip _ ih =>
    refine .cons (fun layout inner rest hrest => ?_) ih
    obtain ⟨cs, hcolon, hvalue⟩ := hskip.after_colon layout inner hrest
    rw [readField, hother]
    dsimp only
    rw [Read.bind_of_ok hcolon, Read.bind_of_ok hvalue]
    rfl

/-- Members of other names may stand anywhere between those that set fields. -/
theorem Fills.of_filter {fields : List (Field σ)} {s t : σ × List String}
    {members : List (String × Value)}
    (h : Fills fields s (members.filter fun m => (fields.find? (·.name == m.1)).isSome) t)
    (hskip : ∀ m ∈ members, fields.find? (·.name == m.1) = none → Reads skipValue m.2 ()) :
    Fills fields s members t := by
  induction members generalizing s with
  | nil => exact h
  | cons m members ih =>
    rw [List.forall_mem_cons] at hskip
    cases hfield : fields.find? (·.name == m.1) with
    | none =>
      rw [List.filter_cons_of_neg (by simp [hfield])] at h
      exact .skip hfield (hskip.1 hfield) (ih h hskip.2)
    | some field =>
      rw [List.filter_cons_of_pos (by simp [hfield])] at h
      cases h with
      | cons hfield' hnew hread hrest => exact .cons hfield' hnew hread (ih hrest hskip.2)
      | skip hother => exact nomatch hother.symm.trans hfield

/-- An object is taken back as a record if its members fill all fields that have to be there. -/
theorem Reads.record {fields : List (Field σ)} {blank a : σ} {members : List (String × Value)}
    {seen : List String} (h : Fills fields (blank, []) members (a, seen))
    (hall : fields.all (fun field => !field.required || seen.contains field.name) = true) :
    Reads (record fields blank) (.object members) a where
  starts layout rest _ := by
    obtain ⟨cs, hcs⟩ := Value.write_object layout members rest
    exact ⟨'{', cs, hcs, rfl, by decide⟩
  reads layout rest cs hrest hcs := by
    obtain ⟨cs', hobject, hmembers⟩ := h.steps.readMembers_object layout rest
    rw [Json.record, hcs, hobject]
    simp only [if_true]
    rw [hmembers]
    change (if fields.all _ = true then _ else _) = _
    rw [if_pos hall]
    rfl

/-- Members that make `a` out of the record `s`, whichever of the fields in `names` it has been
given before. Fields that may be missing need no separate cases then. -/
def Makes (fields : List (Field σ)) (names : List String) (s : σ)
    (members : List (String × Value)) (a : σ) : Prop :=
  ∀ seen, seen ⊆ names → ∃ seen', Fills fields (s, seen) members (a, seen')

namespace Makes

variable {fields : List (Field σ)} {names : List String} {s a : σ} {name : String}
  {members : List (String × Value)} {field : Field σ}

theorem nil : Makes fields names a [] a :=
  fun seen _ => ⟨seen, .nil _⟩

theorem cons {v : Value} {set : σ → σ} (hfield : fields.find? (·.name == name) = some field)
    (hnew : name ∉ names) (hread : Reads field.read v set)
    (hrest : Makes fields (name :: names) (set s) members a) :
    Makes fields names s ((name, v) :: members) a := by
  intro seen hseen
  obtain ⟨seen', hfills⟩ := hrest (name :: seen) (List.cons_subset_cons _ hseen)
  have hcontains : seen.contains name = false := by simpa using fun h => hnew (hseen h)
  exact ⟨seen', .cons hfield hcontains hread hfills⟩

/-- A member that is written if there is something to write. -/
theorem optional {o : Option β} {encode : β → Value} {set : β → σ → σ}
    (hfield : fields.find? (·.name == name) = some field) (hnew : name ∉ names)
    (hread : ∀ b, Reads field.read (encode b) (set b))
    (hrest : Makes fields (name :: names) (o.elim s (set · s)) members a) :
    Makes fields names s ((o.toList.map fun b => (name, encode b)) ++ members) a := by
  cases o with
  | none => exact fun seen hseen => hrest seen fun _ h => List.mem_cons_of_mem _ (hseen h)
  | some b => exact cons hfield hnew (hread b) hrest

theorem of_filter
    (h : Makes fields names s
      (members.filter fun m => (fields.find? (·.name == m.1)).isSome) a)
    (hskip : ∀ m ∈ members, fields.find? (·.name == m.1) = none → Reads skipValue m.2 ()) :
    Makes fields names s members a := by
  intro seen hseen
  obtain ⟨seen', hfills⟩ := h seen hseen
  exact ⟨seen', hfills.of_filter hskip⟩

end Makes

/-- An object is taken back as a record without fields that have to be there. -/
theorem Reads.record_of_makes {fields : List (Field σ)} {blank a : σ}
    {members : List (String × Value)} (h : Makes fields [] blank members a)
    (hall : fields.all (fun field => !field.required) = true) :
    Reads (Json.record fields blank) (.object members) a := by
  obtain ⟨seen, hfills⟩ := h [] (List.Subset.refl _)
  refine .record hfills (List.all_eq_true.mpr fun field hfield => ?_)
  rw [List.all_eq_true.mp hall field hfield, Bool.true_or]

/-! ## Values -/

/-- Reads the value of a member of a value; `done` holds the members before, the last first. -/
def readMember (depth : Nat) (done : List (String × Value)) (name : String) :
    Read (List (String × Value)) := do
  readColon
  let v ← readValue depth
  return (name, v) :: done

theorem steps_readMember {depth : Nat} {members : List (String × Value)}
    (h : ∀ m ∈ members, Reads (readValue depth) m.2 m.2) (done : List (String × Value)) :
    Steps (readMember depth) done members (members.reverse ++ done) := by
  induction members generalizing done with
  | nil => exact .nil done
  | cons m members ih =>
    rw [List.forall_mem_cons] at h
    rw [List.reverse_cons, List.append_assoc]
    refine .cons (fun layout inner rest hrest => ?_) (ih h.2 (m :: done))
    obtain ⟨cs, hcolon, hvalue⟩ := h.1.after_colon layout inner hrest
    rw [readMember, Read.bind_of_ok hcolon, Read.bind_of_ok hvalue]
    rfl

/-- An object is taken back as a value if its members are. -/
theorem Reads.object {depth : Nat} {members : List (String × Value)}
    (h : ∀ m ∈ members, Reads (readValue depth) m.2 m.2) :
    Reads (readValue (depth + 1)) (.object members) (.object members) where
  starts layout rest _ := by
    obtain ⟨cs, hcs⟩ := Value.write_object layout members rest
    exact ⟨'{', cs, hcs, rfl, by decide⟩
  reads layout rest cs hrest hcs := by
    obtain ⟨cs', hobject, hmembers⟩ := (steps_readMember h []).readMembers_object layout rest
    rw [List.append_nil] at hmembers
    rw [readValue]
    dsimp only
    rw [hcs, hobject]
    change (readMembers (readMember depth) ('{' :: cs') true [] cs' >>= fun p =>
      pure (Value.object p.1.reverse, p.2)) = _
    rw [hmembers]
    change Except.ok (Value.object members.reverse.reverse, rest) = _
    rw [List.reverse_reverse]

end ScriptFeatures.Json
