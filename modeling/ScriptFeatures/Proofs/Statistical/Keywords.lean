import Mathlib.Algebra.Order.BigOperators.Group.List
import Mathlib.Algebra.Order.Ring.Nat
import ScriptFeatures.Proofs.Text.Occurrences
import ScriptFeatures.Statistical.Keywords

/-! How often keywords stand in texts that are put side by side. What is true of one word is summed
over the keywords of a bucket: nothing is lost at the join, one occurrence of each word can arise
there, and none does where no keyword stands over the join. -/

namespace ScriptFeatures.Statistical.KeywordBucket

open Text (occurrences occurrences_append Straddles)

theorem count_eq_sum (bucket : KeywordBucket) (text : List Char) :
    bucket.count text = (bucket.keywords.map fun word => occurrences word.toList text).sum := by
  rw [List.sum_eq_foldl, List.foldl_map]
  rfl

theorem keyword_ne_nil (bucket : KeywordBucket) :
    ∀ word ∈ bucket.keywords, word.toList ≠ [] := by
  cases bucket <;> decide

theorem sum_occurrences (bucket : KeywordBucket) (a b : List Char) :
    bucket.count a + bucket.count b = (bucket.keywords.map fun word =>
      occurrences word.toList a + occurrences word.toList b).sum := by
  rw [List.sum_map_add, count_eq_sum, count_eq_sum]

/-- Each keyword is found in two texts side by side as often as in both, or once more. So a bucket
counts at least as much there as in both, and the same if none of its keywords stands over the
join. -/
theorem count_append (bucket : KeywordBucket) (a b : List Char) :
    (∀ word ∈ bucket.keywords,
      occurrences word.toList a + occurrences word.toList b ≤ occurrences word.toList (a ++ b) ∧
        occurrences word.toList (a ++ b) ≤
          occurrences word.toList a + occurrences word.toList b + 1) ∧
      bucket.count a + bucket.count b ≤ bucket.count (a ++ b) ∧
      ((∀ word ∈ bucket.keywords, ¬Straddles word.toList a b) →
        bucket.count (a ++ b) = bucket.count a + bucket.count b) := by
  have hword := fun word hmem => occurrences_append (bucket.keyword_ne_nil word hmem) a b
  rw [sum_occurrences, count_eq_sum]
  refine ⟨fun word hmem => ⟨(hword word hmem).1, (hword word hmem).2.1⟩, ?_, fun hapart => ?_⟩
  · exact List.sum_le_sum fun word hmem => (hword word hmem).1
  · refine congrArg List.sum (List.map_congr_left fun word hmem => ?_)
    exact (hword word hmem).2.2 (hapart word hmem)

/-- The copy of `escape` over the join of `unesca` and `pescape` ends with the letter that the one
in the second text begins with, and is taken instead of it. Over the join of the other two texts no
keyword stands. -/
theorem count_append_escape :
    let word := "escape"
    let a := "unesca".toList
    let b := "pescape".toList
    let c := "a.split(string)".toList
    word ∈ encoding.keywords ∧
      occurrences word.toList a + occurrences word.toList b ≤ occurrences word.toList (a ++ b) ∧
      occurrences word.toList b = 1 ∧ occurrences word.toList (a ++ b) = 1 ∧
      encoding.count (a ++ b) = 2 ∧
      (∀ word ∈ encoding.keywords, ¬Straddles word.toList c b) ∧
      encoding.count (c ++ b) = encoding.count c + encoding.count b := by
  intro word a b c
  have hmem : word ∈ encoding.keywords := by decide
  have hapart : ∀ word ∈ encoding.keywords, ¬Straddles word.toList c b := by decide
  obtain ⟨hword, -, -⟩ := count_append encoding a b
  obtain ⟨-, -, hequal⟩ := count_append encoding c b
  exact ⟨hmem, (hword word hmem).1, by decide, by decide, by decide, hapart, hequal hapart⟩

end ScriptFeatures.Statistical.KeywordBucket
