import PromptPipeline.Expectation.Count
import PromptPipeline.Proofs.Text.Words

/-!
# How the counts of a text hang together

Lines, words and paragraphs are counted in different ways, but what is counted is nested: a word
stands on one line (`words_eq_flatMap`), a line that is not blank has a word, and a paragraph has
such a line. Paragraphs are counted where they start, and each start belongs to one maximal run of
lines that are not blank (`encard_runs`). Between two texts a blank line separates words, lines and
paragraphs, and a mark that ends a sentence separates sentences.

Main statement: `TextUnit.counts_consistent`.
-/

namespace PromptPipeline

namespace Text

variable {s t line : List Char} {ls ls' : List (List Char)} {inside : Bool}

theorem isBlankText_iff : isBlankText s = true ↔ ∀ c ∈ s, isBlank c = true :=
  List.all_eq_true

/-! ## Pieces and lines -/

/-- A carriage return is white space, so a line is blank with it if it is blank without. -/
theorem isBlankText_dropCarriageReturn (line : List Char) :
    isBlankText (dropCarriageReturn line) = isBlankText line := by
  unfold dropCarriageReturn
  split
  next hlast =>
    obtain ⟨start, rfl⟩ := List.getLast?_eq_some_iff.mp hlast
    have hreturn : isBlank '\r' = true := by decide
    simp [isBlankText, hreturn]
  next => rfl

theorem length_filter_closeLines (ls : List (List Char)) :
    ((closeLines ls).filter (!isBlankText ·)).length = (ls.filter (!isBlankText ·)).length := by
  fun_induction closeLines ls with
  | case1 => rfl
  | case2 => rfl
  | case3 last hne => rfl
  | case4 piece rest hrest ih =>
    rw [List.filter_cons, List.filter_cons, isBlankText_dropCarriageReturn]
    split
    next => rw [List.length_cons, List.length_cons, ih]
    next => exact ih

theorem paragraphStarts_closeLines (inside : Bool) (ls : List (List Char)) :
    paragraphStarts inside (closeLines ls) = paragraphStarts inside ls := by
  fun_induction closeLines ls generalizing inside with
  | case1 => rfl
  | case2 => rfl
  | case3 last hne => rfl
  | case4 piece rest hrest ih =>
    rw [paragraphStarts, paragraphStarts, isBlankText_dropCarriageReturn, ih, ih]

theorem countLines_eq (s : List Char) :
    countLines s = ((pieces s).filter (!isBlankText ·)).length :=
  length_filter_closeLines (pieces s)

theorem countParagraphs_eq (s : List Char) :
    countParagraphs s = paragraphStarts false (pieces s) :=
  paragraphStarts_closeLines false (pieces s)

/-- No word goes across a line feed. -/
theorem words_eq_flatMap (s : List Char) : words s = (pieces s).flatMap words := by
  suffices h : ∀ u : List Char, (∀ c ∈ u, (c == '\n') = false) →
      words (u ++ s) = (pieces (u ++ s)).flatMap words from h [] (List.forall_mem_nil _)
  induction s with
  | nil =>
    intro u hu
    rw [List.append_nil, pieces, splitWhere_of_forall hu, List.flatMap_singleton]
  | cons c s ih =>
    intro u hu
    cases hc : c == '\n' with
    | true =>
      obtain rfl := eq_of_beq hc
      have hline : words u = (pieces u).flatMap words := by
        rw [pieces, splitWhere_of_forall hu, List.flatMap_singleton]
      rw [words_append_blank (by decide), pieces_append, List.flatMap_append, ← hline]
      exact congrArg (words u ++ ·) (ih [] (List.forall_mem_nil _))
    | false =>
      rw [List.append_cons]
      exact ih (u ++ [c]) (List.forall_mem_append.mpr ⟨hu, List.forall_mem_singleton.mpr hc⟩)

/-! ## From characters to paragraphs -/

theorem words_eq_nil_iff : words s = [] ↔ isBlankText s = true := by
  rw [isBlankText_iff, words_eq_segments, segments_eq_nil_iff]

theorem countWords_le_length (s : List Char) : countWords s ≤ s.length := by
  have hne : ∀ w ∈ words s, 1 ≤ w.length :=
    fun w hw => List.length_pos_iff.mpr (mem_solid.mp (solid_of_mem_words hw)).1
  calc countWords s = ((words s).map List.length).length := (List.length_map _).symm
    _ ≤ ((words s).map List.length).sum :=
      List.length_le_sum_of_one_le _ (List.forall_mem_map.mpr hne)
    _ = (s.filter (!isBlank ·)).length := by rw [← List.length_flatten, flatten_words]
    _ ≤ s.length := List.length_filter_le _ _

/-- Each line that is not blank has a word. -/
theorem countLines_le_countWords (s : List Char) : countLines s ≤ countWords s := by
  rw [countLines_eq, countWords, words_eq_flatMap]
  induction pieces s with
  | nil => exact Nat.le_refl _
  | cons line ls ih =>
    rw [List.filter_cons, List.flatMap_cons, List.length_append]
    split
    next hline =>
      have hword : words line ≠ [] := by
        rw [Ne, words_eq_nil_iff]
        simpa using hline
      have := List.length_pos_iff.mpr hword
      rw [List.length_cons]
      omega
    next => omega

/-- Each paragraph has a line that is not blank. -/
theorem countParagraphs_le_countLines (s : List Char) : countParagraphs s ≤ countLines s := by
  rw [countParagraphs_eq, countLines_eq]
  generalize false = inside
  induction pieces s generalizing inside with
  | nil => exact Nat.le_refl _
  | cons line ls ih =>
    rw [paragraphStarts, List.filter_cons]
    cases isBlankText line with
    | true => exact ih false
    | false =>
      have := ih true
      cases inside <;> simp <;> omega

theorem paragraphStarts_eq_zero (h : paragraphStarts false ls = 0) :
    ∀ line ∈ ls, isBlankText line = true := by
  induction ls with
  | nil => exact List.forall_mem_nil _
  | cons line ls ih =>
    rw [paragraphStarts] at h
    split at h
    next hblank => exact List.forall_mem_cons.mpr ⟨hblank, ih h⟩
    next => simp at h

/-- A text without paragraphs is blank. -/
theorem isBlankText_of_countParagraphs (h : countParagraphs s = 0) : isBlankText s = true := by
  rw [countParagraphs_eq] at h
  have hwords : (pieces s).flatMap words = [] :=
    List.flatMap_eq_nil_iff.mpr fun line hline =>
      words_eq_nil_iff.mpr (paragraphStarts_eq_zero h line hline)
  rw [← words_eq_nil_iff, words_eq_flatMap, hwords]

theorem countWords_eq_zero_iff : countWords s = 0 ↔ isBlankText s = true := by
  rw [countWords, List.length_eq_zero_iff, words_eq_nil_iff]

theorem countLines_eq_zero_iff : countLines s = 0 ↔ isBlankText s = true := by
  refine ⟨fun h => isBlankText_of_countParagraphs ?_, fun h => ?_⟩
  · have := countParagraphs_le_countLines s
    omega
  · have := countLines_le_countWords s
    have := countWords_eq_zero_iff.mpr h
    omega

theorem countParagraphs_eq_zero_iff : countParagraphs s = 0 ↔ isBlankText s = true := by
  refine ⟨isBlankText_of_countParagraphs, fun h => ?_⟩
  have := countParagraphs_le_countLines s
  have := countLines_eq_zero_iff.mpr h
  omega

/-- The number of pages is the least one on which the words fit. -/
theorem isLeast_countPages (s : List Char) :
    IsLeast {p | countWords s ≤ wordsPerPage * p} (countPages s) := by
  constructor
  · show countWords s ≤ wordsPerPage * ((countWords s + (wordsPerPage - 1)) / wordsPerPage)
    unfold wordsPerPage
    omega
  · intro p hp
    have hp : countWords s ≤ wordsPerPage * p := hp
    show (countWords s + (wordsPerPage - 1)) / wordsPerPage ≤ p
    unfold wordsPerPage at *
    omega

theorem countPages_eq_zero_iff : countPages s = 0 ↔ isBlankText s = true := by
  rw [← countWords_eq_zero_iff]
  unfold countPages wordsPerPage
  omega

/-! ## Paragraphs as runs of lines -/

/-- The maximal runs of lines that are not blank, each with the lines before and after it. -/
def runs (ls : List (List Char)) : Set (List (List Char) × List (List Char) × List (List Char)) :=
  {(before, run, after) | ls = before ++ run ++ after ∧ run ≠ [] ∧
    (∀ line ∈ run, isBlankText line = false) ∧
    (∀ line ∈ before.getLast?, isBlankText line = true) ∧
    ∀ line ∈ after.head?, isBlankText line = true}

/-- The runs that start in the lines, of which the first one may have started before. -/
def runsFrom (inside : Bool) (ls : List (List Char)) :
    Set (List (List Char) × List (List Char) × List (List Char)) :=
  {r ∈ runs ls | r.1 = [] → inside = false}

/-- The run with one more line before it. -/
def behind (line : List Char) (r : List (List Char) × List (List Char) × List (List Char)) :
    List (List Char) × List (List Char) × List (List Char) :=
  (line :: r.1, r.2)

theorem behind_injective (line : List Char) : Function.Injective (behind line) := by
  intro r r' h
  obtain ⟨hbefore, hrest⟩ := Prod.mk.inj h
  exact Prod.ext (List.cons.inj hbefore).2 hrest

/-- A run that does not start with the first line is one of the other lines, and starts there. -/
theorem behind_mem_runsFrom_iff {r : List (List Char) × List (List Char) × List (List Char)} :
    behind line r ∈ runsFrom inside (line :: ls) ↔ r ∈ runsFrom (!isBlankText line) ls := by
  obtain ⟨before, run, after⟩ := r
  cases before with
  | nil => simp [behind, runsFrom, runs]; tauto
  | cons first before => simp [behind, runsFrom, runs]

/-- The run that starts with the first line, if that is not blank. -/
def firstRun (ls : List (List Char)) :
    List (List Char) × List (List Char) × List (List Char) :=
  ([], ls.takeWhile (!isBlankText ·), ls.dropWhile (!isBlankText ·))

/-- A run without a line before it ends at the first blank line. -/
theorem nil_mem_runs_iff {run after : List (List Char)} :
    ([], run, after) ∈ runs (line :: ls) ↔
      isBlankText line = false ∧ ([], run, after) = firstRun (line :: ls) := by
  constructor
  · rintro ⟨heq, hne, hrun, -, hafter⟩
    obtain ⟨first, run, rfl⟩ := List.exists_cons_of_ne_nil hne
    obtain ⟨rfl, rfl⟩ := List.cons.inj heq
    have hsolid : ∀ l ∈ line :: run, (!isBlankText l) = true := by simpa using hrun
    have hstop : ∀ l ∈ after.head?, (!isBlankText l) = false := by
      intro l hl
      simp [hafter l hl]
    refine ⟨hrun line List.mem_cons_self, ?_⟩
    show _ = firstRun ((line :: run) ++ after)
    rw [firstRun, takeWhile_run_append hsolid hstop, dropWhile_run_append hsolid hstop]
  · rintro ⟨hline, heq⟩
    obtain ⟨rfl, rfl⟩ := Prod.mk.inj (Prod.mk.inj heq).2
    refine ⟨(List.takeWhile_append_dropWhile (p := (!isBlankText ·))).symm, ?_, ?_, ?_, ?_⟩
    · rw [List.takeWhile_cons_of_pos (by simp [hline])]
      exact List.cons_ne_nil _ _
    · intro l hl
      simpa using List.mem_takeWhile_imp hl
    · intro l hl
      cases hl
    · intro l hl
      simpa using head?_dropWhile (p := (!isBlankText ·)) (line :: ls) l hl

theorem runsFrom_cons (inside : Bool) (line : List Char) (ls : List (List Char)) :
    runsFrom inside (line :: ls) = behind line '' runsFrom (!isBlankText line) ls ∪
      {r | (inside = false ∧ isBlankText line = false) ∧ r = firstRun (line :: ls)} := by
  ext ⟨before, run, after⟩
  cases before with
  | nil =>
    have hbehind : ([], run, after) ∉ behind line '' runsFrom (!isBlankText line) ls := by
      rintro ⟨r, -, hr⟩
      cases hr
    rw [Set.mem_union, or_iff_right hbehind]
    show ([], run, after) ∈ runs (line :: ls) ∧ ([] = [] → inside = false) ↔ _
    rw [nil_mem_runs_iff]
    simp only [Set.mem_ofPred_eq, forall_const]
    tauto
  | cons first before =>
    have hfirst : (first :: before, run, after) ≠ firstRun (line :: ls) := by
      intro h
      cases h
    simp only [Set.mem_union, Set.mem_ofPred_eq, hfirst, and_false, or_false]
    constructor
    · intro h
      obtain rfl : line = first := (List.cons.inj h.1.1).1
      exact ⟨(before, run, after), behind_mem_runsFrom_iff.mp h, rfl⟩
    · rintro ⟨⟨before', run', after'⟩, hr, heq⟩
      rw [← heq]
      exact behind_mem_runsFrom_iff.mpr hr

/-- **Paragraphs are maximal runs of lines that are not blank**, counted where they start. -/
theorem encard_runsFrom (inside : Bool) (ls : List (List Char)) :
    (runsFrom inside ls).encard = paragraphStarts inside ls := by
  induction ls generalizing inside with
  | nil =>
    have hnone : runsFrom inside [] = ∅ := by
      ext ⟨before, run, after⟩
      refine iff_of_false (fun h => h.1.2.1 ?_) (Set.notMem_empty _)
      exact (List.append_eq_nil_iff.mp (List.append_eq_nil_iff.mp h.1.1.symm).1).2
    rw [hnone, Set.encard_empty]
    rfl
  | cons line ls ih =>
    have hdisjoint : Disjoint (behind line '' runsFrom (!isBlankText line) ls)
        {r | (inside = false ∧ isBlankText line = false) ∧ r = firstRun (line :: ls)} := by
      rw [Set.disjoint_left]
      rintro _ ⟨r, -, rfl⟩ ⟨-, h⟩
      cases h
    rw [runsFrom_cons, Set.encard_union_eq hdisjoint, (behind_injective line).encard_image, ih,
      paragraphStarts]
    cases isBlankText line <;> cases inside <;> simp [add_comm]

theorem encard_runs (ls : List (List Char)) : (runs ls).encard = paragraphStarts false ls := by
  rw [← encard_runsFrom]
  congr 1
  ext r
  exact (and_iff_left fun _ => rfl).symm

/-! ## Texts side by side -/

theorem paragraphStarts_append (inside : Bool) (ls ls' : List (List Char)) :
    paragraphStarts inside (ls ++ [] :: ls') =
      paragraphStarts inside ls + paragraphStarts false ls' := by
  induction ls generalizing inside with
  | nil => exact (Nat.zero_add _).symm
  | cons line ls ih =>
    rw [List.cons_append, paragraphStarts, paragraphStarts, ih, ih]
    split
    next => rfl
    next => exact (Nat.add_assoc _ _ _).symm

theorem pieces_blankLine (s t : List Char) :
    pieces (s ++ '\n' :: '\n' :: t) = pieces s ++ [] :: pieces t := by
  rw [pieces_append]
  exact congrArg (pieces s ++ ·) (pieces_append [] t)

/-- A blank line separates words, lines and paragraphs. -/
theorem counts_blankLine (s t : List Char) :
    countWords (s ++ '\n' :: '\n' :: t) = countWords s + countWords t ∧
    countLines (s ++ '\n' :: '\n' :: t) = countLines s + countLines t ∧
    countParagraphs (s ++ '\n' :: '\n' :: t) = countParagraphs s + countParagraphs t := by
  refine ⟨?_, ?_, ?_⟩
  · rw [countWords, words_eq_flatMap, pieces_blankLine, List.flatMap_append, List.flatMap_cons,
      ← words_eq_flatMap, ← words_eq_flatMap, List.length_append]
    rfl
  · rw [countLines_eq, pieces_blankLine, List.filter_append, List.length_append, countLines_eq,
      countLines_eq]
    rfl
  · rw [countParagraphs_eq, pieces_blankLine, paragraphStarts_append, countParagraphs_eq,
      countParagraphs_eq]

theorem countSentences_append {x : Char} (hx : endsSentence x = true) (s t : List Char) :
    countSentences (s ++ x :: t) = countSentences s + countSentences t := by
  rw [countSentences, splitWhere_append hx, List.filter_append, List.length_append]
  rfl

end Text

namespace TextUnit

open Text

/-- **The counts of a text are mutually consistent.** Each paragraph has a line, each line a word
and each word a character; the pages are the fewest that hold the words; one of the counts is zero
if and only if the text is blank, and so are then the others; the paragraphs are the maximal runs
of lines that are not blank. A blank line between two texts adds up their words, lines and
paragraphs, and a mark that ends a sentence adds up their sentences. -/
theorem counts_consistent (t : String) :
    (paragraphs.count t ≤ lines.count t ∧ lines.count t ≤ words.count t ∧
      words.count t ≤ characters.count t) ∧
    IsLeast {p | words.count t ≤ 250 * p} (pages.count t) ∧
    (∀ unit ∈ [paragraphs, lines, words, pages],
      unit.count t = 0 ↔ ∀ c ∈ t.toList, isBlank c = true) ∧
    (runs (Text.lines t.toList)).encard = paragraphs.count t ∧
    (∀ u : String, ∀ unit ∈ [words, lines, paragraphs],
      unit.count (t ++ "\n\n" ++ u) = unit.count t + unit.count u) ∧
    ∀ u : String, ∀ x ∈ [".", "!", "?"],
      sentences.count (t ++ x ++ u) = sentences.count t + sentences.count u := by
  refine ⟨⟨countParagraphs_le_countLines _, countLines_le_countWords _, countWords_le_length _⟩,
    isLeast_countPages _, ?_, encard_runs _, fun u => ?_, fun u => ?_⟩
  · simp only [List.forall_mem_cons, List.not_mem_nil, false_imp_iff, implies_true, and_true,
      ← isBlankText_iff]
    exact ⟨countParagraphs_eq_zero_iff, countLines_eq_zero_iff, countWords_eq_zero_iff,
      countPages_eq_zero_iff⟩
  · obtain ⟨hwords, hlines, hparagraphs⟩ := counts_blankLine t.toList u.toList
    simp [count, hwords, hlines, hparagraphs]
  · have hmark {x : Char} (hx : endsSentence x = true) :
        countSentences (t.toList ++ x :: u.toList) =
          countSentences t.toList + countSentences u.toList := countSentences_append hx _ _
    simp [count, hmark (x := '.') rfl, hmark (x := '!') rfl, hmark (x := '?') rfl]

/-- A letter of two paragraphs, counted in its parts. -/
theorem letter_counted_by_paragraph :
    (runs (Text.lines "Dear Ada,\nhow are you?\n\nYours".toList)).encard = (2 : ℕ) ∧
    lines.count ("Dear Ada,\nhow are you?" ++ "\n\n" ++ "Yours") = 2 + 1 ∧
    sentences.count ("Dear Ada,\nhow are you" ++ "?" ++ "\n\nYours") = 1 + 1 := by
  obtain ⟨-, -, -, hruns, -, -⟩ := counts_consistent "Dear Ada,\nhow are you?\n\nYours"
  obtain ⟨-, -, -, -, hblank, -⟩ := counts_consistent "Dear Ada,\nhow are you?"
  obtain ⟨-, -, -, -, -, hmark⟩ := counts_consistent "Dear Ada,\nhow are you"
  exact ⟨hruns, hblank "Yours" lines (by decide), hmark "\n\nYours" "?" (by decide)⟩

end TextUnit

end PromptPipeline
