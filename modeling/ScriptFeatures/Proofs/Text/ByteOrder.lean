import Mathlib.Tactic.SplitIfs
import ScriptFeatures.Proofs.Text.Bytes

/-! The order of texts is the order of their bytes. Of two characters the smaller one has fewer
bytes and a smaller first byte, or as many bytes, of which the first that differs is smaller; so the
bytes of two texts part where their characters do (`encode_lt_iff`). -/

namespace ScriptFeatures.Text

/-- Two lists of bytes part: at some place, before which they are the same, the first one has the
smaller byte. -/
def Parts : List UInt8 → List UInt8 → Prop
  | b :: bs, b' :: bs' => b < b' ∨ b = b' ∧ Parts bs bs'
  | _, _ => False

/-- Where lists of bytes part, it does not matter what follows. -/
theorem Parts.append_lt {bs bs' : List UInt8} (h : Parts bs bs') (rest rest' : List UInt8) :
    bs ++ rest < bs' ++ rest' := by
  induction bs generalizing bs' with
  | nil => exact h.elim
  | cons b bs ih =>
    cases bs' with
    | nil => exact h.elim
    | cons b' bs' =>
      rw [List.cons_append, List.cons_append, List.cons_lt_cons_iff]
      exact h.imp_right fun ⟨heq, hparts⟩ => ⟨heq, ih hparts⟩

theorem ofNat_lt_ofNat {m n : Nat} (hm : m < 256) (hn : n < 256) :
    UInt8.ofNat m < UInt8.ofNat n ↔ m < n := by
  rw [UInt8.lt_iff_toNat_lt, UInt8.toNat_ofNat_of_lt' hm, UInt8.toNat_ofNat_of_lt' hn]

theorem ofNat_eq_ofNat {m n : Nat} (hm : m < 256) (hn : n < 256) :
    UInt8.ofNat m = UInt8.ofNat n ↔ m = n := by
  rw [← UInt8.toNat_inj, UInt8.toNat_ofNat_of_lt' hm, UInt8.toNat_ofNat_of_lt' hn]

theorem val_toNat_lt (c : Char) : c.val.toNat < 0x110000 := by
  have hvalid : c.val.toNat.isValidChar := c.valid
  rw [Nat.isValidChar] at hvalid
  omega

/-- The encodings of two characters part as the characters compare. The cases are the numbers of
bytes that the two take. -/
theorem parts_utf8EncodeChar {c d : Char} (h : c < d) :
    Parts (String.utf8EncodeChar c) (String.utf8EncodeChar d) := by
  have hlt : c.val.toNat < d.val.toNat := h
  have hc := val_toNat_lt c
  have hd := val_toNat_lt d
  unfold String.utf8EncodeChar
  generalize c.val.toNat = m at *
  generalize d.val.toNat = n at *
  -- the digits to base 64 come from divisions one after the other, and the first is small
  have hdigits : ∀ k : Nat, k < 0x110000 →
      k / 64 / 64 = k / 4096 ∧ k / 4096 / 64 = k / 262144 ∧ k / 262144 % 8 = k / 262144 :=
    fun k hk => by omega
  have hm := hdigits m hc
  have hn := hdigits n hd
  dsimp only
  split_ifs <;> simp (disch := omega) only [Parts, ofNat_lt_ofNat, ofNat_eq_ofNat] <;> omega

theorem flatMap_lt_of_lt {a b : List Char} (h : a < b) :
    a.flatMap String.utf8EncodeChar < b.flatMap String.utf8EncodeChar := by
  induction h with
  | @nil c rest =>
    have hne := String.utf8EncodeChar_ne_nil (c := c)
    obtain ⟨byte, bytes, hbytes⟩ := List.exists_cons_of_ne_nil hne
    rw [List.flatMap_nil, List.flatMap_cons, hbytes]
    exact List.nil_lt_cons _ _
  | cons hrest ih =>
    rw [List.flatMap_cons, List.flatMap_cons]
    exact List.append_left_lt ih
  | rel hlt =>
    rw [List.flatMap_cons, List.flatMap_cons]
    exact (parts_utf8EncodeChar hlt).append_lt _ _

theorem encode_lt_of_lt {a b : String} (h : a < b) : encode a < encode b := by
  have hchars : a.toList < b.toList := h
  have hlist := flatMap_lt_of_lt hchars
  rw [← toUTF8_ofList, ← toUTF8_ofList, String.ofList_toList, String.ofList_toList] at hlist
  exact hlist

/-- The order of two texts is that of their bytes. -/
theorem encode_lt_iff {a b : String} : encode a < encode b ↔ a < b := by
  refine ⟨fun h => ?_, encode_lt_of_lt⟩
  obtain hlt | rfl | hgt := Std.lt_trichotomy a b
  · exact hlt
  · exact absurd h (List.lt_irrefl _)
  · exact absurd h (List.lt_asymm (encode_lt_of_lt hgt))

end ScriptFeatures.Text
