import ScriptFeatures.Json.Document
import ScriptFeatures.Proofs.Json.Numeral
import ScriptFeatures.Proofs.Json.Quoted
import ScriptFeatures.Proofs.Json.Write

/-! Readers that take written values back.

`Reads read v a` says that `read` takes the text of `v` back as `a`, in every layout, after any
blanks and before anything that does not go on a number. A reader of a list has this property if the
reader of its items has it, by induction on them. -/

namespace ScriptFeatures.Json

/-- A reader that takes a written value back. Its text starts with a character that is no blank and
does not close an array, which is how the items of an array are told from its end. -/
structure Reads (read : Read α) (v : Value) (a : α) : Prop where
  starts (layout : Layout) {rest : List Char} : Ends rest →
    ∃ c cs, v.write layout rest = c :: cs ∧ isBlank c = false ∧ c ≠ ']'
  reads (layout : Layout) {rest cs : List Char} : Ends rest →
    dropBlanks cs = v.write layout rest → read cs = .ok (a, rest)

/-! ## Blanks -/

theorem dropBlanks_cons {c : Char} (h : isBlank c = false) (cs : List Char) :
    dropBlanks (c :: cs) = c :: cs :=
  List.dropWhile_cons_of_neg (by simp [h])

theorem dropBlanks_blank {c : Char} (h : isBlank c = true) (cs : List Char) :
    dropBlanks (c :: cs) = dropBlanks cs :=
  List.dropWhile_cons_of_pos h

theorem dropBlanks_newline (layout : Layout) (cs : List Char) :
    dropBlanks (layout.newline cs) = dropBlanks cs := by
  cases layout with
  | line => rfl
  | indented level =>
    rw [Layout.newline, dropBlanks_blank rfl]
    induction 2 * level with
    | zero => rfl
    | succ n ih => rwa [List.replicate_succ, List.cons_append, dropBlanks_blank rfl]

theorem ends_newline (layout : Layout) {c : Char} (h : goesOn c = false) (cs : List Char) :
    Ends (layout.newline (c :: cs)) := by
  cases layout with
  | line => exact .cons h cs
  | indented level => exact .cons rfl _

theorem readColon_colon (layout : Layout) (cs : List Char) :
    ∃ cs', readColon (layout.colon cs) = .ok ((), cs') ∧ dropBlanks cs' = dropBlanks cs := by
  cases layout with
  | line => exact ⟨cs, rfl, rfl⟩
  | indented level => exact ⟨' ' :: cs, rfl, dropBlanks_blank rfl cs⟩

section

variable {read : Read α} {v : Value} {a : α} {rest : List Char} (h : Reads read v a)
include h

theorem Reads.dropBlanks_write (layout : Layout) (hrest : Ends rest) :
    dropBlanks (v.write layout rest) = v.write layout rest := by
  obtain ⟨c, cs, hcs, hblank, -⟩ := h.starts layout hrest
  rw [hcs, dropBlanks_cons hblank]

theorem Reads.reads_write (layout : Layout) (hrest : Ends rest) :
    read (v.write layout rest) = .ok (a, rest) :=
  h.reads layout hrest (h.dropBlanks_write layout hrest)

end

theorem Value.write_array (layout : Layout) (items : List Value) (rest : List Char) :
    ∃ cs, (Value.array items).write layout rest = '[' :: cs := by
  cases items <;> exact ⟨_, rfl⟩

theorem Value.write_object (layout : Layout) (members : List (String × Value))
    (rest : List Char) : ∃ cs, (Value.object members).write layout rest = '{' :: cs := by
  cases members <;> exact ⟨_, rfl⟩

/-! ## Scalars -/

/-- A scalar `v` whose text is read as `w`, which is `v` itself unless a number is rounded. -/
def Scalar (v w : Value) : Prop :=
  ∀ (layout : Layout) {rest : List Char}, Ends rest →
    readScalar (v.write layout rest) = .ok (w, rest)

/-- No scalar starts with a blank or a bracket. -/
theorem readScalar_cons_eq_error {c : Char} (h : c ∈ [' ', '\t', '\n', '\r', ']', '[', '{'])
    (cs : List Char) : readScalar (c :: cs) = .error .malformed := by
  simp only [List.mem_cons, List.not_mem_nil, or_false] at h
  obtain rfl | rfl | rfl | rfl | rfl | rfl | rfl := h <;> rfl

theorem exists_cons_of_readScalar {cs rest : List Char} {v : Value}
    (h : readScalar cs = .ok (v, rest)) :
    ∃ c cs', cs = c :: cs' ∧ isBlank c = false ∧ c ≠ ']' ∧ opens cs = false := by
  cases cs with
  | nil => exact nomatch h
  | cons c cs =>
    have hc : c ∉ [' ', '\t', '\n', '\r', ']', '[', '{'] := fun hmem => by
      rw [readScalar_cons_eq_error hmem] at h
      exact nomatch h
    refine ⟨c, cs, rfl, ?_⟩
    simp only [List.mem_cons, List.not_mem_nil, or_false, not_or] at hc
    simp [isBlank, opens, hc]

theorem Scalar.starts {v w : Value} (h : Scalar v w) (layout : Layout) {rest : List Char}
    (hrest : Ends rest) :
    ∃ c cs, v.write layout rest = c :: cs ∧ isBlank c = false ∧ c ≠ ']' := by
  obtain ⟨c, cs, hcs, hblank, hclose, -⟩ := exists_cons_of_readScalar (h layout hrest)
  exact ⟨c, cs, hcs, hblank, hclose⟩

namespace Scalar

theorem null : Scalar .null .null := by
  intro layout rest _
  rfl

theorem text (s : String) : Scalar (.text s) (.text s) := by
  intro layout rest _
  rw [Value.write, quote, readScalar, if_pos rfl, unquote_quote]
  rfl

theorem boolean (b : Bool) : Scalar (.boolean b) (.boolean b) := by
  intro layout rest _
  cases b <;> rfl

/-- A number is read before other text as it is read when nothing stands after it. -/
theorem number {n n' : Number} {text : List Char} (hwrite : ∀ rest, n.write rest = text ++ rest)
    (htake : Number.take text = .ok (n', [])) : Scalar (.number n) (.number n') := by
  intro layout rest hrest
  have htake := Number.take_append hrest htake
  rw [Value.write, hwrite]
  obtain ⟨c, cs, hcs, hc⟩ := Number.exists_cons_of_take htake
  rw [hcs] at htake ⊢
  have hletter : ∀ x ∈ ['"', 'n', 't', 'f'], c ≠ x := by
    rintro x hx rfl
    simp only [List.mem_cons, List.not_mem_nil, or_false] at hx
    obtain rfl | rfl | rfl | rfl := hx <;> exact nomatch hc
  simp only [List.forall_mem_cons] at hletter
  simp [readScalar, hletter, hc, htake, Except.map]

theorem natural {n : Nat} (h : n < UInt64.size) : Scalar (.natural n) (.natural n) :=
  .number (fun _ => rfl) (Number.take_toDigits h)

end Scalar

theorem Reads.scalar {choose : Value → Option α} {v w : Value} {a : α} (hv : Scalar v w)
    (hchoose : choose w = some a) : Reads (scalar choose) v a where
  starts layout _ hrest := hv.starts layout hrest
  reads layout rest cs hrest hcs := by
    obtain ⟨-, -, -, -, -, hopens⟩ := exists_cons_of_readScalar (hv layout hrest)
    rw [Json.scalar, hcs, hopens]
    refine Outcome.bind_eq_ok_iff.mpr ⟨_, hv layout hrest, ?_⟩
    dsimp only
    rw [hchoose]
    rfl

theorem Reads.text (s : String) : Reads readText (.text s) s :=
  .scalar (.text s) rfl

theorem Reads.boolean (b : Bool) : Reads readBoolean (.boolean b) b :=
  .scalar (.boolean b) rfl

theorem Reads.natural {n bound : Nat} (h : n < bound) (hbound : bound ≤ UInt64.size) :
    Reads (readNatural bound) (.natural n) n := by
  refine .scalar (.natural (by omega)) ?_
  simp [Value.natural, h]

/-- Whether the text of a binary64 number is a number. Reading multiplies by a power of ten in
binary64, which could go out of range. -/
def Number.Readable (x : Float) : Prop :=
  ∃ n, take (realText x) = .ok (n, [])

/-- What the text of a binary64 number is read as. It can differ from the number in its last place,
since reading rounds twice. -/
def Number.reread (x : Float) : Float :=
  match take (realText x) with
  | .ok (n, _) => n.toFloat
  | .error _ => x

/-- Whether a binary64 number is read back from its text. -/
def Number.ReadsBack (x : Float) : Prop :=
  ∃ n, take (realText x) = .ok (n, []) ∧ n.toFloat = x

theorem Number.ReadsBack.readable {x : Float} (h : ReadsBack x) : Readable x := by
  obtain ⟨n, hn, -⟩ := h
  exact ⟨n, hn⟩

theorem Number.ReadsBack.reread_eq {x : Float} (h : ReadsBack x) : reread x = x := by
  obtain ⟨n, hn, hx⟩ := h
  rw [reread, hn]
  exact hx

theorem Reads.real {x : Float} (hfinite : x.isFinite = true) (h : Number.Readable x) :
    Reads readReal (.real x) (Number.reread x) := by
  obtain ⟨n, hn⟩ := h
  rw [Value.real, if_pos hfinite, Number.reread, hn]
  exact .scalar (.number (fun _ => rfl) hn) rfl

/-! ## Readers built from others -/

theorem Read.bind_of_ok {x : Read α} {f : α → Read β} {a : α} {cs rest : List Char}
    (h : x cs = .ok (a, rest)) : (x >>= f) cs = f a rest := by
  change (x cs >>= fun p => f p.1 p.2) = _
  rw [h]
  rfl

theorem Reads.map {read : Read α} {v : Value} {a : α} (h : Reads read v a) (f : α → β) :
    Reads (f <$> read) v (f a) where
  starts := h.starts
  reads layout rest cs hrest hcs := by
    change (read >>= fun a => pure (f a)) cs = _
    rw [Read.bind_of_ok (h.reads layout hrest hcs)]
    rfl

theorem Reads.name {named : String → Option α} {s : String} {a : α} (h : named s = some a) :
    Reads (readName named) (.text s) a where
  starts layout rest hrest := (Reads.text s).starts layout hrest
  reads layout rest cs hrest hcs := by
    rw [readName, hcs, Value.write, quote]
    dsimp only
    rw [if_pos rfl]
    refine Reads.reads_write (v := .text s) (Reads.scalar (.text s) ?_) layout hrest
    exact h

/-- A value that does not start as `null` does is taken back as something. -/
theorem Reads.optional {read : Read α} {v : Value} {a : α} (h : Reads read v a) {c : Char}
    (hc : c ≠ 'n') (hv : ∀ layout rest, ∃ cs, v.write layout rest = c :: cs) :
    Reads (optional read) v (some a) where
  starts := h.starts
  reads layout rest cs hrest hcs := by
    have hread := h.reads_write layout hrest
    obtain ⟨cs', hcs'⟩ := hv layout rest
    rw [hcs'] at hread hcs
    rw [Json.optional, hcs]
    split
    · next heq =>
      cases heq
      exact (hc rfl).elim
    · rw [hread]
      rfl

/-- `null` is taken back as nothing. -/
theorem Reads.null (read : Read α) : Reads (Json.optional read) .null none where
  starts layout rest _ := ⟨'n', _, rfl, rfl, by decide⟩
  reads layout rest cs _ hcs := by
    rw [Json.optional, hcs]
    rfl

/-- A scalar is taken back where a value of any shape may stand. -/
theorem Reads.value {v w : Value} (h : Scalar v w) (depth : Nat) : Reads (readValue depth) v w where
  starts layout _ hrest := h.starts layout hrest
  reads layout rest cs hrest hcs := by
    have hread := h layout hrest
    obtain ⟨c, cs', hwrite, -, -, hopens⟩ := exists_cons_of_readScalar hread
    rw [hwrite] at hread hcs hopens
    cases depth with
    | zero =>
      rw [readValue]
      dsimp only
      rw [hcs, hopens, if_neg Bool.false_ne_true, hread]
    | succ depth =>
      simp only [opens, Bool.or_eq_false_iff, decide_eq_false_iff_not] at hopens
      rw [readValue]
      dsimp only
      rw [hcs]
      simp only [hopens, if_false, hread]

/-! ## Lists -/

theorem ends_writeItems (layout : Layout) (items : List Value) {rest : List Char}
    (h : Ends rest) : Ends (Value.writeItems layout items rest) := by
  cases items with
  | nil => exact h
  | cons v vs => exact .cons rfl _

theorem nextItem_end (layout : Layout) (first : Bool) (rest : List Char) :
    nextItem first (layout.newline (']' :: rest)) = .ok (false, rest) := by
  rw [nextItem, dropBlanks_newline, dropBlanks_cons rfl]
  exact if_pos rfl

section

variable {read : Read α} {v : Value} {a : α} (h : Reads read v a)
include h

theorem Reads.nextItem_first (layout inner : Layout) {rest : List Char} (hrest : Ends rest) :
    nextItem true (layout.newline (v.write inner rest)) = .ok (true, v.write inner rest) := by
  have hblank := h.dropBlanks_write inner hrest
  obtain ⟨c, cs, hcs, -, hclose⟩ := h.starts inner hrest
  rw [nextItem, dropBlanks_newline, hblank, hcs]
  simp [hclose]

theorem Reads.nextItem_later (layout inner : Layout) {rest : List Char} (hrest : Ends rest) :
    nextItem false (',' :: layout.newline (v.write inner rest)) =
      .ok (true, v.write inner rest) := by
  have hblank := h.dropBlanks_write inner hrest
  obtain ⟨c, cs, hcs, -, hclose⟩ := h.starts inner hrest
  rw [nextItem, dropBlanks_cons rfl]
  simp only [dropBlanks_newline]
  rw [hblank, hcs]
  simp [hclose]

end

theorem readItems_cons (read : Read α) (b : Char) (bound : List Char) (first : Bool)
    (done : List α) (cs : List Char) :
    readItems read (b :: bound) first done cs =
      (nextItem first cs >>= fun (more, cs) =>
        if more then read cs >>= fun (a, cs) => readItems read bound false (a :: done) cs
        else pure (done.reverse, cs)) :=
  rfl

/-- The items of a list after the first are taken back, by induction on them. A text that is longer
than there are items bounds the loop. -/
theorem readItems_writeItems {read : Read β} {encode : α → Value} {decode : α → β}
    (layout outer : Layout) (rest : List Char) (as : List α)
    (h : ∀ a ∈ as, Reads read (encode a) (decode a)) (bound : List Char)
    (hbound : as.length < bound.length) (done : List β) :
    readItems read bound false done
        (Value.writeItems layout (as.map encode) (outer.newline (']' :: rest))) =
      .ok (done.reverse ++ as.map decode, rest) := by
  induction as generalizing bound done with
  | nil =>
    obtain ⟨b, bound, rfl⟩ := List.exists_cons_of_length_pos hbound
    rw [List.map_nil, List.map_nil, Value.writeItems, readItems_cons, nextItem_end,
      List.append_nil]
    rfl
  | cons a as ih =>
    obtain ⟨b, bound, rfl⟩ := List.exists_cons_of_length_pos (Nat.zero_lt_of_lt hbound)
    have hends := ends_writeItems layout (as.map encode) (ends_newline outer (c := ']') rfl rest)
    have ha := h a List.mem_cons_self
    have hlater := ih (fun a' ha' => h a' (List.mem_cons_of_mem a ha')) bound
      (Nat.lt_of_succ_lt_succ hbound) (decode a :: done)
    rw [List.map_cons, Value.writeItems, readItems_cons, ha.nextItem_later layout layout hends]
    change (read _ >>= fun p => readItems read bound false (p.1 :: done) p.2) = _
    rw [ha.reads_write layout hends]
    change readItems read bound false (decode a :: done) _ = _
    rw [hlater, List.reverse_cons, List.append_assoc]
    rfl

theorem Reads.items {read : Read β} {encode : α → Value} {decode : α → β} {as : List α}
    (h : ∀ a ∈ as, Reads read (encode a) (decode a)) :
    Reads (listOf read) (.array (as.map encode)) (as.map decode) where
  starts layout rest _ := by
    obtain ⟨cs, hcs⟩ := Value.write_array layout (as.map encode) rest
    exact ⟨'[', cs, hcs, rfl, by decide⟩
  reads layout rest cs hrest hcs := by
    cases as with
    | nil =>
      rw [listOf, hcs]
      rfl
    | cons a as =>
      have ha := h a List.mem_cons_self
      have hends := ends_writeItems layout.inner (as.map encode)
        (ends_newline layout (c := ']') rfl rest)
      have hfirst := ha.nextItem_first layout.inner layout.inner hends
      have hclose := layout.length_newline (']' :: rest)
      have hlength := Value.length_writeItems layout.inner (as.map encode)
        (layout.newline (']' :: rest))
      have hwrite := (encode a).length_write layout.inner
        (Value.writeItems layout.inner (as.map encode) (layout.newline (']' :: rest)))
      have hline := layout.inner.length_newline ((encode a).write layout.inner
        (Value.writeItems layout.inner (as.map encode) (layout.newline (']' :: rest))))
      rw [listOf, hcs, List.map_cons, Value.write]
      change readItems read ('[' :: _) true [] _ = _
      rw [readItems_cons, hfirst]
      change (read _ >>= fun p => readItems read _ false [p.1] p.2) = _
      rw [ha.reads_write layout.inner hends]
      -- the loop is bounded by the text after the bracket, which has a character for each item
      refine readItems_writeItems layout.inner layout rest as
        (fun a' ha' => h a' (List.mem_cons_of_mem a ha')) _ ?_ [decode a]
      simp only [List.length_cons, List.length_map] at hclose hlength ⊢
      omega

theorem Reads.list {read : Read α} {encode : α → Value} {as : List α}
    (h : ∀ a ∈ as, Reads read (encode a) a) :
    Reads (listOf read) (.array (as.map encode)) as := by
  have hitems : Reads (listOf read) (.array (as.map encode)) (as.map id) := Reads.items h
  rwa [List.map_id] at hitems

theorem Reads.whole {read : Read α} {v : Value} {a : α} (h : Reads read v a) (layout : Layout) :
    read.whole (v.write layout []) = .ok a := by
  rw [Read.whole, h.reads_write layout .nil]
  rfl

end ScriptFeatures.Json
