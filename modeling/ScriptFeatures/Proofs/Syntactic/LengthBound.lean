import ScriptFeatures.Proofs.Nesting.Bound
import ScriptFeatures.Proofs.Syntactic.LimitOrder
import ScriptFeatures.Proofs.Text.Bytes

/-! What the length of a text says about the checks before the parser: the estimate is at most the
number of bytes, so a text is never refused for being deeper than it is long. -/

namespace ScriptFeatures.Syntactic

open Nesting (Scan)

/-- A text that is refused as too deep before the parser runs is refused for its estimate. -/
theorem tooDeep_of_not_admits {l : Limits} {source : String} {depth limit : Nat}
    (h : ¬l.Admits source) (hparse : parse l source = .error (.tooDeep depth limit)) :
    limit < depth ∧
      (depth = (Nesting.estimate source).descent ∨ depth = (Nesting.estimate source).depth) := by
  obtain hcase | ⟨hlimit, hcase⟩ | ⟨hlimit, hcase⟩ | hcase := refusal_cases h
  all_goals rw [hcase] at hparse
  · exact nomatch hparse
  · cases hparse
    exact ⟨hlimit, .inl rfl⟩
  · cases hparse
    exact ⟨hlimit, .inr rfl⟩
  · exact nomatch hparse

/-- The estimates are bounded by one another and by the bytes of the text. So is every counter in
every state of the scan, with all others taken together, and so is the depth for which a text is
refused before the parser runs. -/
theorem estimate_le_utf8ByteSize (source : String) :
    (Nesting.estimate source).descent ≤ (Nesting.estimate source).depth ∧
    (Nesting.estimate source).depth ≤ source.utf8ByteSize ∧
    (∀ steps, (Scan.run steps .start source.toUTF8.toList).level ≤ source.utf8ByteSize ∧
      ∀ f ∈ (Scan.run steps .start source.toUTF8.toList).levels,
        f.descent + f.chained ≤ source.utf8ByteSize) ∧
    ∀ (l : Limits) (depth limit : Nat), ¬l.Admits source →
      parse l source = .error (.tooDeep depth limit) →
      limit < depth ∧ depth ≤ source.utf8ByteSize := by
  have hrun := Nesting.run_le_length source.toUTF8.toList
  rw [Text.length_toUTF8] at hrun
  obtain ⟨-, -, hdescent, hdepth⟩ := hrun source.toUTF8.toList.length
  refine ⟨hdescent, hdepth, fun steps => ⟨(hrun steps).1, (hrun steps).2.1⟩, ?_⟩
  intro l depth limit hadmits hparse
  obtain ⟨hlimit, rfl | rfl⟩ := tooDeep_of_not_admits hadmits hparse
  · exact ⟨hlimit, Nat.le_trans hdescent hdepth⟩
  · exact ⟨hlimit, hdepth⟩

/-- Three bytes are refused as two levels deep where one is allowed. -/
theorem estimate_le_utf8ByteSize_of_refused :
    ¬Limits.Admits ⟨10, 1, 10, 1⟩ "!!x" ∧
    parse ⟨10, 1, 10, 1⟩ "!!x" = .error (.tooDeep 2 1) ∧ 1 < 2 ∧ 2 ≤ "!!x".utf8ByteSize := by
  have hestimate : Nesting.estimate "!!x" = ⟨2, 2⟩ := by decide +kernel
  have hadmits : ¬Limits.Admits ⟨10, 1, 10, 1⟩ "!!x" := by
    intro h
    have hnesting := h.nesting
    rw [hestimate] at hnesting
    exact absurd hnesting (by decide)
  have hparse : parse ⟨10, 1, 10, 1⟩ "!!x" = .error (.tooDeep 2 1) := by
    rw [parse, hestimate]
    rfl
  exact ⟨hadmits, hparse, (estimate_le_utf8ByteSize "!!x").2.2.2 _ _ _ hadmits hparse⟩

end ScriptFeatures.Syntactic
