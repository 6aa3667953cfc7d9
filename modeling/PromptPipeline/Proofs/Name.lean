import PromptPipeline.Name
import PromptPipeline.Proofs.Text.Joining
import PromptPipeline.Proofs.Text.Letter

/-!
# The form of names

The stems of a title are its maximal runs of letters and digits. The loop that spells a name keeps
in mind whether it has to put a dash, and what it writes is the stems in lowercase with one dash
between each two (`ofTitleFrom_started`, `ofTitleFrom_fresh`). So a name can be read: its stems are
those of the title in lowercase, and if these consist of letters and digits the name is in kebab
case and is its own name.

There is one letter whose lowercase form has more than letters, the capital I with a dot above. Its
dot stays in the name, and goes when the name is taken for a title.

Main statement: `Name.kebab_unless_dotted`.
-/

namespace PromptPipeline.Name

open Text

variable {c : Char} {title : List Char} {runs : List (List Char)}

/-- The maximal runs of letters and digits of a title. -/
def stems (title : List Char) : List (List Char) :=
  segments (!isAlphanumeric ·) title

/-- A name in kebab case: at least one run of letters and digits, with one dash between each two. -/
def IsKebab (name : String) : Prop :=
  ∃ runs : List (List Char), runs ≠ [] ∧
    (∀ run ∈ runs, run ≠ [] ∧ ∀ c ∈ run, isAlphanumeric c = true) ∧
    name = "-".intercalate (runs.map .ofList)

/-! ## What the loop writes -/

/-- The pieces of a title in lowercase, as far as they are not empty, each behind a dash. -/
def dashed (pieces : List (List Char)) : List Char :=
  (pieces.filter (· ≠ [])).flatMap fun piece => '-' :: lowercase piece

/-- Behind the first letter of a name the loop finishes the piece that it is in, or starts the next
one with a dash, and all pieces that follow come with a dash. -/
theorem ofTitleFrom_started {piece : List Char} {pieces : List (List Char)}
    (hsplit : splitWhere (!isAlphanumeric ·) title = piece :: pieces) :
    ofTitleFrom true false title = lowercase piece ++ dashed pieces ∧
      ofTitleFrom true true title = dashed (piece :: pieces) := by
  induction title generalizing piece pieces with
  | nil =>
    obtain ⟨rfl, rfl⟩ := List.cons.inj hsplit
    exact ⟨rfl, rfl⟩
  | cons c title ih =>
    cases hrest : splitWhere (!isAlphanumeric ·) title with
    | nil => exact absurd hrest (splitWhere_ne_nil _ title)
    | cons next others =>
      obtain ⟨hfinish, hstart⟩ := ih hrest
      rw [splitWhere, hrest] at hsplit
      by_cases hc : isAlphanumeric c = true
      · rw [hc] at hsplit
        obtain ⟨rfl, rfl⟩ := List.cons.inj hsplit
        have hdashed : dashed ((c :: next) :: others) =
            '-' :: lowercaseChar c ++ (lowercase next ++ dashed others) := by
          simp [dashed, lowercase]
        rw [ofTitleFrom, ofTitleFrom, if_pos hc, if_pos hc, hfinish, hdashed]
        constructor
        · simp [lowercase]
        · simp
      · rw [eq_false_of_ne_true hc] at hsplit
        obtain ⟨rfl, rfl⟩ := List.cons.inj hsplit
        rw [ofTitleFrom, ofTitleFrom, if_neg hc, if_neg hc, hstart]
        exact ⟨rfl, rfl⟩

/-- Before the first letter the loop does not put dashes. -/
theorem ofTitleFrom_fresh (pending : Bool) (title : List Char) :
    ofTitleFrom false pending title = joinWith ['-'] ((stems title).map lowercase) := by
  induction title generalizing pending with
  | nil => rfl
  | cons c title ih =>
    by_cases hc : isAlphanumeric c = true
    · cases hrest : splitWhere (!isAlphanumeric ·) title with
      | nil => exact absurd hrest (splitWhere_ne_nil _ title)
      | cons piece pieces =>
        obtain ⟨hfinish, -⟩ := ofTitleFrom_started hrest
        have hstems : stems (c :: title) = (c :: piece) :: pieces.filter (· ≠ []) := by
          rw [stems, segments, splitWhere, hrest, hc]
          rfl
        rw [ofTitleFrom, if_pos hc, hfinish, hstems, List.map_cons, joinWith_cons_eq_flatMap,
          List.flatMap_map]
        simp [lowercase, dashed]
    · have hstems : stems (c :: title) = stems title := by
        rw [stems, segments, splitWhere, eq_false_of_ne_true hc]
        rfl
      rw [ofTitleFrom, if_neg hc, ih, hstems]

theorem toList_ofTitle (title : String) :
    (ofTitle title).toList = joinWith ['-'] ((stems title.toList).map lowercase) := by
  rw [ofTitle, String.toList_ofList, ofTitleFrom_fresh]

/-- A name is the stems of its title in lowercase with one dash between each two. -/
theorem ofTitle_eq_intercalate (title : String) : ofTitle title =
    "-".intercalate (((stems title.toList).map lowercase).map .ofList) := by
  rw [ofTitle, ofTitleFrom_fresh]
  exact ofList_joinWith ['-'] _

/-! ## Stems -/

theorem of_mem_stems {stem : List Char} (h : stem ∈ stems title) :
    stem ≠ [] ∧ ∀ c ∈ stem, isAlphanumeric c = true := by
  obtain ⟨hne, hletters⟩ := of_mem_segments h
  exact ⟨hne, by simpa using hletters⟩

theorem mem_of_mem_stems {stem : List Char} (h : stem ∈ stems title) (hc : c ∈ stem) :
    c ∈ title := by
  have hletter : (!isAlphanumeric c) = false := by simp [(of_mem_stems h).2 c hc]
  exact (exists_mem_segments_iff hletter).mp ⟨stem, h, hc⟩

theorem lowercase_ne_nil {stem : List Char} (h : stem ≠ []) : lowercase stem ≠ [] := by
  obtain ⟨c, rest, rfl⟩ := List.exists_cons_of_ne_nil h
  rw [lowercase, List.flatMap_cons]
  have hne : lowercaseChar c ≠ [] := by
    have hlowers := lowers_lowercaseChar c
    generalize lowercaseChar c = form at hlowers
    cases hlowers with
    | ascii | dotted | run | same => exact List.cons_ne_nil _ _
  exact List.append_ne_nil_of_left_ne_nil hne _

theorem ofTitle_eq_empty_iff (title : String) :
    ofTitle title = "" ↔ ∀ c ∈ title.toList, isAlphanumeric c = false := by
  have hstems : stems title.toList = [] ↔ ∀ c ∈ title.toList, isAlphanumeric c = false := by
    rw [stems, segments_eq_nil_iff]
    simp
  rw [← hstems, ← String.toList_inj, toList_ofTitle]
  constructor
  · intro hempty
    by_contra hsome
    obtain ⟨stem, others, hcons⟩ := List.exists_cons_of_ne_nil hsome
    rw [hcons, List.map_cons, joinWith_cons_eq_flatMap] at hempty
    have hstem : stem ≠ [] := (of_mem_stems (hcons ▸ List.mem_cons_self)).1
    exact lowercase_ne_nil hstem (List.append_eq_nil_iff.mp hempty).1
  · intro hnone
    rw [hnone]
    rfl

/-! ## Titles without the dotted letter -/

section

variable (hplain : dottedI ∉ title)

include hplain

theorem ne_dottedI {stem : List Char} (h : stem ∈ stems title) (hc : c ∈ stem) : c ≠ dottedI :=
  ne_of_mem_of_not_mem (mem_of_mem_stems h hc) hplain

/-- A stem in lowercase is a run of letters and digits. -/
theorem isAlphanumeric_of_mem_lowercase {run : List Char}
    (h : run ∈ (stems title).map lowercase) :
    run ≠ [] ∧ ∀ d ∈ run, isAlphanumeric d = true := by
  obtain ⟨stem, hstem, rfl⟩ := List.mem_map.mp h
  obtain ⟨hne, hletters⟩ := of_mem_stems hstem
  refine ⟨lowercase_ne_nil hne, ?_⟩
  intro d hd
  obtain ⟨c, hc, hd⟩ := List.mem_flatMap.mp hd
  exact isAlphanumeric_of_mem_lowercaseChar (hletters c hc) (ne_dottedI hplain hstem hc) hd

/-- A stem in lowercase has itself for its lowercase form. -/
theorem lowercase_lowercase {stem : List Char} (h : stem ∈ stems title) :
    lowercase (lowercase stem) = lowercase stem := by
  have hsame : ∀ d ∈ lowercase stem, lowercaseChar d = [d] := by
    intro d hd
    obtain ⟨c, hc, hd⟩ := List.mem_flatMap.mp hd
    exact lowercaseChar_of_mem (ne_dottedI hplain h hc) hd
  calc lowercase (lowercase stem) = (lowercase stem).flatMap fun d => [d] :=
        List.flatMap_congr hsame
    _ = lowercase stem := List.flatMap_singleton' _

/-- The stems of the name are those of the title in lowercase. -/
theorem stems_name : stems (joinWith ['-'] ((stems title).map lowercase)) =
    (stems title).map lowercase := by
  have hdash : (!isAlphanumeric '-') = true := by
    decide +kernel
  apply segments_joinWith (p := (!isAlphanumeric ·)) hdash
  intro run hrun
  obtain ⟨hne, hletters⟩ := isAlphanumeric_of_mem_lowercase hplain hrun
  exact ⟨hne, by simpa using hletters⟩

end

theorem isKebab_ofTitle {title : String} (hplain : dottedI ∉ title.toList)
    (hne : ofTitle title ≠ "") : IsKebab (ofTitle title) := by
  refine ⟨(stems title.toList).map lowercase, ?_, ?_, ?_⟩
  · intro hnone
    apply hne
    rw [← String.toList_inj, toList_ofTitle, hnone]
    rfl
  · exact fun run hrun => isAlphanumeric_of_mem_lowercase hplain hrun
  · exact ofTitle_eq_intercalate title

/-- The name of a name. -/
theorem ofTitle_ofTitle {title : String} (hplain : dottedI ∉ title.toList) :
    ofTitle (ofTitle title) = ofTitle title := by
  rw [← String.toList_inj, toList_ofTitle, toList_ofTitle, stems_name hplain, List.map_map]
  congr 1
  exact List.map_congr_left fun stem hstem => lowercase_lowercase hplain hstem

/-! ## Titles with the dotted letter -/

theorem isAlphanumeric_dottedI : isAlphanumeric dottedI = true := by
  decide +kernel

/-- The dot of the letter stays in the name. -/
theorem combiningDot_mem_ofTitle_iff {title : String} :
    combiningDot ∈ (ofTitle title).toList ↔ dottedI ∈ title.toList := by
  rw [toList_ofTitle]
  constructor
  · intro hdot
    rcases mem_or_of_mem_joinWith hdot with hdash | ⟨run, hrun, hdot⟩
    · exact absurd hdash (by decide)
    · obtain ⟨stem, hstem, rfl⟩ := List.mem_map.mp hrun
      obtain ⟨c, hc, hdot⟩ := List.mem_flatMap.mp hdot
      rw [← eq_dottedI_of_combiningDot_mem ((of_mem_stems hstem).2 c hc) hdot]
      exact mem_of_mem_stems hstem hc
  · intro hletter
    have hkept : (!isAlphanumeric dottedI) = false := by simp [isAlphanumeric_dottedI]
    obtain ⟨stem, hstem, hmem⟩ :=
      (exists_mem_segments_iff (p := (!isAlphanumeric ·)) hkept).mpr hletter
    have hlower : combiningDot ∈ lowercase stem :=
      List.mem_flatMap.mpr ⟨dottedI, hmem, by rw [lowercaseChar_dottedI]; simp⟩
    exact mem_joinWith (List.mem_map_of_mem hstem) hlower

/-- No name has the letter itself. -/
theorem dottedI_notMem_ofTitle (title : String) : dottedI ∉ (ofTitle title).toList := by
  rw [toList_ofTitle]
  intro hletter
  rcases mem_or_of_mem_joinWith hletter with hdash | ⟨run, hrun, hletter⟩
  · exact absurd hdash (by decide)
  · obtain ⟨stem, -, rfl⟩ := List.mem_map.mp hrun
    obtain ⟨c, -, hletter⟩ := List.mem_flatMap.mp hletter
    exact dottedI_notMem_lowercaseChar c hletter

/-- A name in kebab case has letters, digits and dashes only. -/
theorem IsKebab.combiningDot_notMem {name : String} (h : IsKebab name) :
    combiningDot ∉ name.toList := by
  obtain ⟨runs, -, hruns, rfl⟩ := h
  rw [show "-" = String.ofList ['-'] from rfl, ← ofList_joinWith, String.toList_ofList]
  intro hdot
  rcases mem_or_of_mem_joinWith hdot with hdash | ⟨run, hrun, hdot⟩
  · exact absurd hdash (by decide)
  · have hletter := (hruns run hrun).2 combiningDot hdot
    rw [isAlphanumeric_combiningDot] at hletter
    cases hletter

/-- **Names are stable and in kebab case, unless the title has a dotted capital I.** A name is the
stems of its title in lowercase with one dash between each two, and it is empty if and only if the
title has no letter or digit. Every other name is in kebab case, and every name is its own name, in
each case if and only if the title does not have the capital letter whose lowercase form is not all
letters. -/
theorem kebab_unless_dotted (title : String) :
    ofTitle title =
      "-".intercalate ((stems title.toList).map fun stem => .ofList (lowercase stem)) ∧
    (ofTitle title = "" ↔ ∀ c ∈ title.toList, isAlphanumeric c = false) ∧
    (ofTitle title = "" ∨ IsKebab (ofTitle title) ↔ dottedI ∉ title.toList) ∧
    (ofTitle (ofTitle title) = ofTitle title ↔ dottedI ∉ title.toList) := by
  refine ⟨?_, ofTitle_eq_empty_iff title, ⟨?_, ?_⟩, ⟨?_, ofTitle_ofTitle⟩⟩
  · rw [ofTitle_eq_intercalate, List.map_map]
    rfl
  · intro hform hletter
    have hdot := combiningDot_mem_ofTitle_iff.mpr hletter
    rcases hform with hempty | hkebab
    · rw [hempty] at hdot
      cases hdot
    · exact hkebab.combiningDot_notMem hdot
  · intro hplain
    by_cases hempty : ofTitle title = ""
    · exact .inl hempty
    · exact .inr (isKebab_ofTitle hplain hempty)
  · intro hstable hletter
    have hdot := combiningDot_mem_ofTitle_iff.mpr hletter
    rw [← hstable] at hdot
    exact dottedI_notMem_ofTitle title (combiningDot_mem_ofTitle_iff.mp hdot)

/-- The name of a title that is only the dotted letter has a character that is no letter, and
another name. -/
theorem dotted_name_is_unstable : ¬IsKebab (ofTitle "İ") ∧ ofTitle (ofTitle "İ") ≠ ofTitle "İ" := by
  obtain ⟨-, -, hform, hstable⟩ := kebab_unless_dotted "İ"
  have hletter : ¬dottedI ∉ "İ".toList := by
    decide
  exact ⟨fun hkebab => hletter (hform.mp (.inr hkebab)), fun heq => hletter (hstable.mp heq)⟩

end PromptPipeline.Name
