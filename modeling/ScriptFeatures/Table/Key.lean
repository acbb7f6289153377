import ScriptFeatures.Json.Record
import ScriptFeatures.Json.Write

/-! The keys of feature columns. A key is a group, which says what the column was computed from, and
a name. Keys are ordered by group, then by name. -/

namespace ScriptFeatures.Table

/-- What a column was computed from, in the order of the groups. -/
inductive Group
  | statistical
  | lexical
  | syntactic
  deriving DecidableEq, Hashable, Repr, Inhabited

namespace Group

def label : Group → String
  | .statistical => "statistical"
  | .lexical => "lexical"
  | .syntactic => "syntactic"

def ofLabel? : String → Option Group
  | "statistical" => some .statistical
  | "lexical" => some .lexical
  | "syntactic" => some .syntactic
  | _ => none

def rank : Group → Nat
  | .statistical => 0
  | .lexical => 1
  | .syntactic => 2

def read : Json.Read Group :=
  Json.readName ofLabel?

end Group

structure Key where
  group : Group
  name : String
  deriving DecidableEq, Hashable, Repr, Inhabited

namespace Key

/-- The text of a key: group and name with a colon between them. -/
def text (k : Key) : String :=
  k.group.label ++ ":" ++ k.name

theorem toList_text (k : Key) :
    k.text.toList = k.group.label.toList ++ ':' :: k.name.toList := by
  simp [text]

/-- A key is determined by its text, since the names of groups have no colon. -/
theorem text_injective {k l : Key} (h : k.text = l.text) : k = l := by
  have hlist := congrArg String.toList h
  rw [toList_text, toList_text] at hlist
  obtain ⟨g, name⟩ := k
  obtain ⟨g', name'⟩ := l
  cases g <;> cases g' <;> simp [Group.label] at hlist
  all_goals rw [String.toList_injective hlist]

/-- Keys are ordered by group, then by the characters of the name. -/
instance : LE Key where
  le a b := a.group.rank < b.group.rank ∨ (a.group.rank = b.group.rank ∧ a.name ≤ b.name)

instance : DecidableLE Key := fun a b =>
  inferInstanceAs (Decidable (a.group.rank < b.group.rank ∨
    (a.group.rank = b.group.rank ∧ a.name ≤ b.name)))

def toJson (k : Key) : Json.Value :=
  .object [("group", .text k.group.label), ("name", .text k.name)]

def read : Json.Read Key :=
  Json.record
    [.needed "group" Group.read fun g k => { k with group := g },
      .needed "name" Json.readText fun s k => { k with name := s }]
    default

end Key

end ScriptFeatures.Table
