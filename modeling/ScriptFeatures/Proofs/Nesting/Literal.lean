import Mathlib.Tactic.SplitIfs
import ScriptFeatures.Proofs.Nesting.Position

/-! What a literal holds between its marks, byte by byte, and that a scan which is inside the
literal passes over it whole. A backslash hides one byte in each of them; what else may not stand
there differs. -/

namespace ScriptFeatures.Nesting

variable {b quote : UInt8} {text rest : List UInt8}

/-! ## Strings -/

/-- The quotes of string literals. -/
inductive Quote
  | single
  | double
  deriving DecidableEq, Repr

def Quote.byte : Quote → UInt8
  | single => 0x27
  | double => 0x22

/-- What a string literal with a quote holds: no quote, backslash or line break but behind a
backslash. -/
inductive StringText (quote : UInt8) : List UInt8 → Prop
  | nil : StringText quote []
  | hidden (b : UInt8) {text : List UInt8} (others : StringText quote text) :
      StringText quote (0x5C :: b :: text)
  | plain {b : UInt8} {text : List UInt8} (hslash : b ≠ 0x5C) (hquote : b ≠ quote)
      (hbreak : isBreakByte b = false) (others : StringText quote text) :
      StringText quote (b :: text)

namespace StringText

theorem of_forall (h : ∀ b ∈ text, b ≠ 0x5C ∧ b ≠ quote ∧ isBreakByte b = false) :
    StringText quote text := by
  induction text with
  | nil => exact .nil
  | cons b text ih =>
    rw [List.forall_mem_cons] at h
    obtain ⟨⟨hslash, hquote, hbreak⟩, hothers⟩ := h
    exact .plain hslash hquote hbreak (ih hothers)

/-- Inside of the literal it is as if what has been read were not there. -/
theorem skipString_append (h : StringText quote text) (rest : List UInt8) :
    skipString quote (text ++ rest) = skipString quote rest := by
  induction h with
  | nil => rfl
  | hidden b _ ih => exact ih
  | @plain b _ hslash hquote hbreak _ ih =>
    rw [List.cons_append, skipString_cons, if_neg (mt beq_iff_eq.mp hslash), hbreak,
      if_neg Bool.false_ne_true, if_neg (mt beq_iff_eq.mp hquote), ih]

end StringText

theorem skipString_quote (q : Quote) (rest : List UInt8) :
    skipString q.byte (q.byte :: rest) = rest := by
  cases q <;> rfl

/-! ## Templates -/

/-- What a template without expressions holds: no backquote but behind a backslash, and no brace
behind a dollar sign that is not hidden. -/
inductive TemplateText : List UInt8 → Prop
  | nil : TemplateText []
  | hidden (b : UInt8) {text : List UInt8} (others : TemplateText text) :
      TemplateText (0x5C :: b :: text)
  | plain {b : UInt8} {text : List UInt8} (hslash : b ≠ 0x5C) (hquote : b ≠ 0x60)
      (hopen : b = 0x24 → text.head? ≠ some 0x7B) (others : TemplateText text) :
      TemplateText (b :: text)

theorem TemplateText.skipTemplate (h : TemplateText text) (rest : List UInt8) :
    skipTemplate (text ++ 0x60 :: rest) = (.closed, rest) := by
  induction h with
  | nil => rfl
  | hidden b _ ih => exact ih
  | @plain b text hslash hquote hopen _ ih =>
    have hnext : (b == 0x24 && (text ++ 0x60 :: rest).head? == some 0x7B) = false := by
      by_cases hb : b = 0x24
      · have hhead := hopen hb
        cases text with
        | nil => exact Bool.and_false _
        | cons c text =>
          have hc : (c == 0x7B) = false :=
            beq_false_of_ne fun hc => hhead (congrArg some hc)
          show (b == 0x24 && c == 0x7B) = false
          rw [hc, Bool.and_false]
      · rw [beq_false_of_ne hb, Bool.false_and]
    rw [List.cons_append, skipTemplate_cons, if_neg (mt beq_iff_eq.mp hslash),
      if_neg (mt beq_iff_eq.mp hquote), hnext, if_neg Bool.false_ne_true, ih]

/-! ## Regular expressions -/

/-- What a regular expression holds from a place in or outside of a character class on: every class
is closed, and a slash that is not hidden stands in a class. -/
inductive RegExpText : Bool → List UInt8 → Prop
  | nil : RegExpText false []
  | hidden {inClass : Bool} (b : UInt8) {text : List UInt8} (others : RegExpText inClass text) :
      RegExpText inClass (0x5C :: b :: text)
  | opening {inClass : Bool} {text : List UInt8} (others : RegExpText true text) :
      RegExpText inClass (0x5B :: text)
  | closing {inClass : Bool} {text : List UInt8} (others : RegExpText false text) :
      RegExpText inClass (0x5D :: text)
  | slash {text : List UInt8} (others : RegExpText true text) : RegExpText true (0x2F :: text)
  | plain {inClass : Bool} {b : UInt8} {text : List UInt8}
      (hb : b ∉ [0x5C, 0x5B, 0x5D, 0x2F, 0x0A, 0x0D]) (others : RegExpText inClass text) :
      RegExpText inClass (b :: text)

theorem RegExpText.skipRegExpBody {inClass : Bool} (h : RegExpText inClass text)
    (rest : List UInt8) : skipRegExpBody inClass (text ++ 0x2F :: rest) = (rest, true) := by
  induction h with
  | nil => rfl
  | hidden b _ ih => exact ih
  | opening _ ih => exact ih
  | closing _ ih => exact ih
  | slash _ ih => exact ih
  | @plain inClass b _ hb _ ih =>
    simp only [List.mem_cons, List.not_mem_nil, or_false, not_or] at hb
    obtain ⟨hslash, hopen, hclose, hend, hfeed, hreturn⟩ := hb
    rw [List.cons_append, skipRegExpBody_cons, isBreakByte, beq_false_of_ne hslash,
      beq_false_of_ne hfeed, beq_false_of_ne hreturn, beq_false_of_ne hopen,
      beq_false_of_ne hclose, beq_false_of_ne hend]
    exact ih

end ScriptFeatures.Nesting
