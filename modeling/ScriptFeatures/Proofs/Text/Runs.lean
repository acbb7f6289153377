import Mathlib.Data.List.TakeWhile
import ScriptFeatures.Text.Words

/-! The maximal runs of a text. A text is empty, starts with a character outside of the class or
starts with a whole run; proofs about runs follow these cases (`run_induction`). Runs are found from
left to right, and what is found are exactly the cuts of the text around a run that goes on to
neither side (`runs_cuts`). A character outside of the class separates what is found before it from
what is found behind it (`runs_append_cons`). -/

namespace ScriptFeatures.Text

section

variable {inClass : Char → Bool}

/-- A run does not go on into what stands behind it. -/
def RunEnds (inClass : Char → Bool) (rest : List Char) : Prop :=
  ∀ c ∈ rest.head?, inClass c = false

theorem RunEnds.nil : RunEnds inClass [] := nofun

theorem runEnds_cons {c : Char} {rest : List Char} :
    RunEnds inClass (c :: rest) ↔ inClass c = false := by
  simp [RunEnds]

theorem runEnds_dropWhile (text : List Char) : RunEnds inClass (text.dropWhile inClass) := by
  intro c hc
  have hhead := List.head?_dropWhile_not inClass text
  rw [Option.mem_def.mp hc] at hhead
  simpa using hhead

theorem takeWhile_run {run rest : List Char} (hclass : ∀ c ∈ run, inClass c = true)
    (hrest : RunEnds inClass rest) : (run ++ rest).takeWhile inClass = run := by
  rw [List.takeWhile_append_of_pos hclass]
  cases rest with
  | nil => simp
  | cons c rest => simp [runEnds_cons.mp hrest]

/-- Texts are built of characters outside of the class and of whole runs. -/
theorem run_induction (inClass : Char → Bool) {motive : List Char → Prop} (nil : motive [])
    (gap : ∀ c rest, inClass c = false → motive rest → motive (c :: rest))
    (run : ∀ run rest, run ≠ [] → (∀ c ∈ run, inClass c = true) → RunEnds inClass rest →
      motive rest → motive (run ++ rest))
    (text : List Char) : motive text := by
  induction hlength : text.length using Nat.strongRecOn generalizing text with
  | ind n ih =>
    cases text with
    | nil => exact nil
    | cons c rest =>
      rw [List.length_cons] at hlength
      cases hc : inClass c with
      | false => exact gap c rest hc (ih rest.length (by omega) rest rfl)
      | true =>
        have hshort : (rest.dropWhile inClass).length ≤ rest.length :=
          (List.dropWhile_sublist inClass).length_le
        have htext : c :: rest = (c :: rest.takeWhile inClass) ++ rest.dropWhile inClass := by
          rw [List.cons_append, List.takeWhile_append_dropWhile]
        rw [htext]
        refine run _ _ (List.cons_ne_nil _ _) ?_ (runEnds_dropWhile rest)
          (ih _ (by omega) _ rfl)
        intro a ha
        obtain rfl | ha := List.mem_cons.mp ha
        · exact hc
        · exact List.mem_takeWhile_imp ha

/-! ## Finding runs -/

theorem runsOnto_eq_append (done : List (List Char)) (run text : List Char) :
    runsOnto inClass done run text = done.reverse ++ runsOnto inClass [] run text := by
  induction text generalizing done run with
  | nil =>
    rw [runsOnto, runsOnto]
    split <;> simp
  | cons c rest ih =>
    rw [runsOnto, runsOnto]
    split
    · exact ih done (c :: run)
    · rw [ih, ih (if run.isEmpty then [] else [run.reverse])]
      split <;> simp

theorem runsOnto_append {word : List Char} (h : ∀ c ∈ word, inClass c = true)
    (done : List (List Char)) (run rest : List Char) :
    runsOnto inClass done run (word ++ rest) =
      runsOnto inClass done (word.reverse ++ run) rest := by
  induction word generalizing run with
  | nil => rfl
  | cons c word ih =>
    have hc : inClass c = true := h c List.mem_cons_self
    rw [List.cons_append, runsOnto, if_pos hc, ih fun a ha => h a (List.mem_cons_of_mem c ha),
      List.reverse_cons, List.append_assoc]
    rfl

@[simp] theorem runs_nil : runs inClass [] = [] := rfl

theorem runs_cons {c : Char} (h : inClass c = false) (rest : List Char) :
    runs inClass (c :: rest) = runs inClass rest := by
  rw [runs, runsOnto, h]
  rfl

theorem runs_append {run rest : List Char} (hne : run ≠ [])
    (hclass : ∀ c ∈ run, inClass c = true) (hrest : RunEnds inClass rest) :
    runs inClass (run ++ rest) = run :: runs inClass rest := by
  have hempty : run.reverse.isEmpty = false := by simpa using hne
  rw [runs, runsOnto_append hclass, List.append_nil]
  cases rest with
  | nil => simp [runsOnto, hempty]
  | cons c rest =>
    have hc := runEnds_cons.mp hrest
    rw [runsOnto, hc, hempty, runs_cons hc, runs]
    simp only [Bool.false_eq_true, if_false, List.reverse_reverse]
    exact runsOnto_eq_append [run] [] rest

theorem runs_append_cons {c : Char} (h : inClass c = false) (first second : List Char) :
    runs inClass (first ++ c :: second) = runs inClass first ++ runs inClass second := by
  induction first using run_induction inClass with
  | nil => exact runs_cons h second
  | gap a rest ha ih => rw [List.cons_append, runs_cons ha, runs_cons ha, ih]
  | run run rest hne hclass hrest ih =>
    have hnext : RunEnds inClass (rest ++ c :: second) := by
      cases rest with
      | nil => exact runEnds_cons.mpr h
      | cons a rest => exact runEnds_cons.mpr (runEnds_cons.mp hrest)
    rw [List.append_assoc, runs_append hne hclass hnext, runs_append hne hclass hrest, ih]
    rfl

end

/-! ## Cuts -/

/-- A text that is cut in front of some of its characters and behind them. -/
structure Cut where
  before : List Char
  run : List Char
  after : List Char

namespace Cut

def text (cut : Cut) : List Char :=
  cut.before ++ cut.run ++ cut.after

/-- The characters in the middle are a run of a class that goes on to neither side. -/
structure Maximal (inClass : Char → Bool) (cut : Cut) : Prop where
  nonempty : cut.run ≠ []
  inside : ∀ c ∈ cut.run, inClass c = true
  starts : ∀ c ∈ cut.before.getLast?, inClass c = false
  ends : RunEnds inClass cut.after

/-- The same cut in a text with something in front of it. -/
def behind (front : List Char) (cut : Cut) : Cut :=
  { cut with before := front ++ cut.before }

theorem text_behind (front : List Char) (cut : Cut) :
    (cut.behind front).text = front ++ cut.text := by
  simp only [text, behind, List.append_assoc]

section

variable {inClass : Char → Bool} {cut : Cut} {front rest word : List Char} {c : Char}

theorem Maximal.behind (h : cut.Maximal inClass)
    (hfront : cut.before = [] → ∀ c ∈ front.getLast?, inClass c = false) :
    (cut.behind front).Maximal inClass where
  nonempty := h.nonempty
  inside := h.inside
  starts := by
    rw [Cut.behind, List.getLast?_append]
    cases hlast : cut.before.getLast? with
    | none => exact hfront (List.getLast?_eq_none_iff.mp hlast)
    | some a =>
      rintro _ ⟨⟩
      exact h.starts a hlast
  ends := h.ends

theorem Maximal.of_behind (front : List Char) (h : (cut.behind front).Maximal inClass) :
    cut.Maximal inClass where
  nonempty := h.nonempty
  inside := h.inside
  starts := by
    intro c hc
    refine h.starts c ?_
    rw [Cut.behind, List.getLast?_append, Option.mem_def.mp hc]
    rfl
  ends := h.ends

theorem Maximal.not_ends (h : cut.Maximal inClass) : ¬RunEnds inClass (cut.run ++ rest) := by
  obtain ⟨c, run, hrun⟩ := List.exists_cons_of_ne_nil h.nonempty
  have hc : inClass c = true := h.inside c (by simp [hrun])
  rw [hrun, List.cons_append, runEnds_cons, hc]
  exact Bool.noConfusion

/-- No run starts at a character outside of the class. -/
theorem maximal_cons_iff (hc : inClass c = false) :
    cut.text = c :: rest ∧ cut.Maximal inClass ↔
      ∃ inner : Cut, inner.behind [c] = cut ∧ inner.text = rest ∧ inner.Maximal inClass := by
  constructor
  · rintro ⟨htext, hmaximal⟩
    obtain ⟨before, run, after⟩ := cut
    cases before with
    | nil =>
      have hends : RunEnds inClass (run ++ after) := by
        rw [show run ++ after = c :: rest from htext]
        exact runEnds_cons.mpr hc
      exact absurd hends hmaximal.not_ends
    | cons a before =>
      obtain ⟨rfl, hrest⟩ := List.cons_eq_cons.mp htext
      exact ⟨⟨before, run, after⟩, rfl, hrest, hmaximal.of_behind [a]⟩
  · rintro ⟨inner, rfl, rfl, hmaximal⟩
    refine ⟨text_behind [c] inner, hmaximal.behind fun _ => ?_⟩
    rintro _ ⟨⟩
    exact hc

/-- A run at the start of a text is found as a whole or lies in front of what is found. -/
theorem maximal_append_iff (hne : word ≠ []) (hclass : ∀ c ∈ word, inClass c = true)
    (hrest : RunEnds inClass rest) :
    cut.text = word ++ rest ∧ cut.Maximal inClass ↔
      cut = ⟨[], word, rest⟩ ∨
      ∃ inner : Cut, inner.behind word = cut ∧ inner.text = rest ∧ inner.Maximal inClass := by
  constructor
  · rintro ⟨htext, hmaximal⟩
    obtain ⟨before, run, after⟩ := cut
    cases hlast : before.getLast? with
    | none =>
      obtain rfl := List.getLast?_eq_none_iff.mp hlast
      have htext : run ++ after = word ++ rest := htext
      have hrun : run = word := calc
        run = (run ++ after).takeWhile inClass :=
          (takeWhile_run hmaximal.inside hmaximal.ends).symm
        _ = (word ++ rest).takeWhile inClass := by rw [htext]
        _ = word := takeWhile_run hclass hrest
      subst hrun
      rw [List.append_cancel_left htext]
      exact .inl rfl
    | some a =>
      have ha : inClass a = false := hmaximal.starts a hlast
      rw [text, List.append_assoc, List.append_eq_append_iff] at htext
      obtain ⟨more, hword, -⟩ | ⟨inner, rfl, hinner⟩ := htext
      · -- then a character outside of the class would belong to the run
        have hmem : a ∈ word := by
          rw [hword]
          exact List.mem_append_left more (List.mem_of_getLast? hlast)
        exact nomatch ha.symm.trans (hclass a hmem)
      · refine .inr ⟨⟨inner, run, after⟩, rfl, ?_, hmaximal.of_behind word⟩
        rw [hinner, text, List.append_assoc]
  · rintro (rfl | ⟨inner, rfl, rfl, hmaximal⟩)
    · exact ⟨rfl, hne, hclass, nofun, hrest⟩
    · refine ⟨text_behind word inner, hmaximal.behind fun hnil => ?_⟩
      rw [text, hnil] at hrest
      exact absurd hrest hmaximal.not_ends

end

end Cut

/-- What is found are exactly the maximal runs, in the order in which they stand in the text. -/
theorem runs_cuts (inClass : Char → Bool) (text : List Char) :
    ∃ cuts : List Cut, runs inClass text = cuts.map Cut.run ∧
      cuts.Pairwise (fun a b => a.before.length < b.before.length) ∧
      ∀ cut, cut ∈ cuts ↔ cut.text = text ∧ cut.Maximal inClass := by
  induction text using run_induction inClass with
  | nil =>
    refine ⟨[], rfl, .nil, fun cut => iff_of_false List.not_mem_nil ?_⟩
    rintro ⟨htext, hmaximal⟩
    simp only [Cut.text, List.append_eq_nil_iff] at htext
    exact hmaximal.nonempty htext.1.2
  | gap c rest hc ih =>
    obtain ⟨cuts, hruns, horder, hcuts⟩ := ih
    refine ⟨cuts.map (Cut.behind [c]), ?_, ?_, fun cut => ?_⟩
    · rw [runs_cons hc, hruns, List.map_map]
      rfl
    · refine List.pairwise_map.mpr (horder.imp fun h => ?_)
      simpa [Cut.behind] using h
    · rw [Cut.maximal_cons_iff hc, List.mem_map]
      simp only [hcuts, and_comm]
  | run word rest hne hclass hrest ih =>
    obtain ⟨cuts, hruns, horder, hcuts⟩ := ih
    refine ⟨⟨[], word, rest⟩ :: cuts.map (Cut.behind word), ?_, ?_, fun cut => ?_⟩
    · rw [runs_append hne hclass hrest, hruns, List.map_cons, List.map_map]
      rfl
    · refine List.pairwise_cons.mpr ⟨?_, List.pairwise_map.mpr (horder.imp fun h => ?_)⟩
      · intro cut hcut
        obtain ⟨inner, -, rfl⟩ := List.mem_map.mp hcut
        have hpos := List.length_pos_iff.mpr hne
        simp only [Cut.behind, List.length_nil, List.length_append]
        omega
      · simpa [Cut.behind] using h
    · rw [Cut.maximal_append_iff hne hclass hrest, List.mem_cons, List.mem_map]
      simp only [hcuts, and_comm]

end ScriptFeatures.Text
