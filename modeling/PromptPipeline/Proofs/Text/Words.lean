import Mathlib
import PromptPipeline.Proofs.Text.Joining
import PromptPipeline.Text.Fold

/-!
# Words and white space

A text that neither starts nor ends with white space is its words with white space between them. A
phrase is a row of languages, one for each word (`phrase`), and such a text is in the phrase if and
only if its words are in the languages, one by one (`mem_phrase_iff`). So it makes no difference
whether a phrase is matched character by character or word by word.
-/

namespace PromptPipeline.Text

/-! ## Languages of characters -/

/-- The texts of characters that all satisfy `p`. -/
def many (p : Char → Bool) : Language Char :=
  {s | ∀ c ∈ s, p c = true}

/-- The texts of one or more characters that all satisfy `p`. -/
def many1 (p : Char → Bool) : Language Char :=
  {s | s ≠ [] ∧ ∀ c ∈ s, p c = true}

/-- The white space between two words. -/
def gap : Language Char :=
  many1 isBlank

/-- The texts of one word. -/
def solid : Language Char :=
  many1 (!isBlank ·)

theorem mem_many1 {p : Char → Bool} {s : List Char} :
    s ∈ many1 p ↔ s ≠ [] ∧ ∀ c ∈ s, p c = true :=
  Iff.rfl

theorem mem_solid {s : List Char} : s ∈ solid ↔ s ≠ [] ∧ ∀ c ∈ s, isBlank c = false := by
  simp [solid, mem_many1]

theorem space_mem_gap : [' '] ∈ gap :=
  mem_many1.mpr ⟨List.cons_ne_nil _ _, List.forall_mem_singleton.mpr (by decide)⟩

variable {s t w g : List Char}

/-! ## Trimming -/

section

variable {p : Char → Bool} {g' : List Char}

theorem head?_dropWhile {α : Type} {p : α → Bool} (s : List α) :
    ∀ c ∈ (s.dropWhile p).head?, p c = false := by
  intro c hc
  have hhead := List.head?_dropWhile_not p s
  rw [Option.mem_def.mp hc] at hhead
  exact hhead

/-- A run of characters at the end of a text is dropped as a whole. -/
theorem dropEndWhile_append_run (hg : g ∈ many p) (hs : ∀ c ∈ s.getLast?, p c = false) :
    dropEndWhile p (s ++ g) = s := by
  have hrun : ∀ c ∈ g.reverse, p c = true := fun c hc => hg c (List.mem_reverse.mp hc)
  have hend : ∀ c ∈ s.reverse.head?, p c = false := by
    rwa [List.head?_reverse]
  unfold dropEndWhile
  rw [List.reverse_append, dropWhile_run_append hrun hend, List.reverse_reverse]

theorem exists_eq_dropEndWhile_append (p : Char → Bool) (s : List Char) :
    ∃ g ∈ many p, s = dropEndWhile p s ++ g := by
  refine ⟨(s.reverse.takeWhile p).reverse,
    fun c hc => List.mem_takeWhile_imp (List.mem_reverse.mp hc), ?_⟩
  unfold dropEndWhile
  rw [← List.reverse_append, List.takeWhile_append_dropWhile, List.reverse_reverse]

/-- Trimming takes characters from both ends of a text. -/
theorem exists_eq_append_trimWhile (p : Char → Bool) (s : List Char) :
    ∃ g ∈ many p, ∃ g' ∈ many p, s = g ++ (trimWhile p s ++ g') := by
  obtain ⟨g', hg', heq⟩ := exists_eq_dropEndWhile_append p (s.dropWhile p)
  refine ⟨s.takeWhile p, fun c => List.mem_takeWhile_imp, g', hg', ?_⟩
  unfold trimWhile
  rw [← heq, List.takeWhile_append_dropWhile]

/-- What is left starts with a character of another kind. -/
theorem head?_trimWhile (p : Char → Bool) (s : List Char) :
    ∀ c ∈ (trimWhile p s).head?, p c = false := by
  intro c hc
  have hbeginning : trimWhile p s <+: s.dropWhile p := by
    unfold trimWhile dropEndWhile
    rw [← List.reverse_suffix, List.reverse_reverse]
    exact List.dropWhile_suffix p
  obtain ⟨rest, hrest⟩ := hbeginning
  apply head?_dropWhile s c
  rw [← hrest, List.head?_append, hc]
  rfl

theorem getLast?_trimWhile (p : Char → Bool) (s : List Char) :
    ∀ c ∈ (trimWhile p s).getLast?, p c = false := by
  unfold trimWhile dropEndWhile
  rw [List.getLast?_reverse]
  exact head?_dropWhile _

/-- Trimming takes off what was put round a text that starts and ends with other characters. -/
theorem trimWhile_append (hg : g ∈ many p) (hg' : g' ∈ many p) (hstart : ∀ c ∈ s.head?, p c = false)
    (hstop : ∀ c ∈ s.getLast?, p c = false) : trimWhile p (g ++ (s ++ g')) = s := by
  have hdrop : (g ++ (s ++ g')).dropWhile p = if s = [] then [] else s ++ g' := by
    rw [List.dropWhile_append_of_pos hg]
    cases s with
    | nil => exact List.dropWhile_eq_nil_iff.mpr hg'
    | cons c s => exact List.dropWhile_cons_of_neg (by simp [hstart c rfl])
  unfold trimWhile
  rw [hdrop]
  by_cases hs : s = []
  · rw [if_pos hs, hs]
    rfl
  · rw [if_neg hs, dropEndWhile_append_run hg' hstop]

end

/-! ## Words -/

theorem words_append_blank {c : Char} (hc : isBlank c = true) (s t : List Char) :
    words (s ++ c :: t) = words s ++ words t := by
  unfold words
  rw [splitWhere_append hc, List.filter_append]

theorem words_gap_append (hg : g ∈ many isBlank) (t : List Char) : words (g ++ t) = words t := by
  induction g with
  | nil => rfl
  | cons c g ih =>
    obtain ⟨hc, hg⟩ := List.forall_mem_cons.mp hg
    exact (words_append_blank hc [] (g ++ t)).trans (ih hg)

theorem words_of_solid (hs : s ∈ solid) : words s = [s] := by
  obtain ⟨hne, hsolid⟩ := mem_solid.mp hs
  unfold words
  rw [splitWhere_of_forall hsolid]
  exact List.filter_cons_of_pos (decide_eq_true hne)

theorem words_append (hw : w ∈ solid) (hg : g ∈ gap) (t : List Char) :
    words (w ++ (g ++ t)) = w :: words t := by
  obtain ⟨hne, hblank⟩ := mem_many1.mp hg
  obtain ⟨c, g, rfl⟩ := List.exists_cons_of_ne_nil hne
  obtain ⟨hc, hg⟩ := List.forall_mem_cons.mp hblank
  rw [List.cons_append, words_append_blank hc, words_of_solid hw, words_gap_append hg]
  rfl

theorem solid_of_mem_words (h : w ∈ words s) : w ∈ solid :=
  mem_solid.mpr (of_mem_segments h)

theorem words_append_gap (s : List Char) (hg : g ∈ many isBlank) : words (s ++ g) = words s := by
  cases g with
  | nil => rw [List.append_nil]
  | cons c g =>
    obtain ⟨hc, hg⟩ := List.forall_mem_cons.mp hg
    have hnil : words g = words [] := by rw [← words_gap_append hg [], List.append_nil]
    rw [words_append_blank hc, hnil]
    exact List.append_nil _

theorem words_trim (s : List Char) : words (trim s) = words s := by
  obtain ⟨g, hg, g', hg', heq⟩ := exists_eq_append_trimWhile isBlank s
  calc words (trim s) = words (g ++ (trim s ++ g')) := by
        rw [words_gap_append hg, words_append_gap _ hg']
    _ = words s := congrArg words heq.symm

/-- The words of a text have its characters but the white space. -/
theorem flatten_words (s : List Char) : (words s).flatten = s.filter (!isBlank ·) :=
  flatten_segments isBlank s

theorem exists_mem_words_iff {c : Char} (hc : isBlank c = false) :
    (∃ w ∈ words s, c ∈ w) ↔ c ∈ s :=
  exists_mem_segments_iff hc

/-! ## Runs of characters -/

section

variable {p : Char → Bool} {c : Char} (hc : p c = false) (s t : List Char)

include hc

/-- A run of characters ends before a character of another kind. -/
theorem takeWhile_append_cons : (s ++ c :: t).takeWhile p = s.takeWhile p := by
  induction s with
  | nil => simp [hc]
  | cons d s ih => rw [List.cons_append, List.takeWhile_cons, List.takeWhile_cons, ih]

theorem dropWhile_append_cons : (s ++ c :: t).dropWhile p = s.dropWhile p ++ c :: t := by
  induction s with
  | nil => simp [hc]
  | cons d s ih =>
    rw [List.cons_append, List.dropWhile_cons, List.dropWhile_cons, ih]
    split <;> rfl

theorem dropEndWhile_append_cons : dropEndWhile p (s ++ c :: t) = s ++ c :: dropEndWhile p t := by
  unfold dropEndWhile
  rw [List.reverse_append, List.reverse_cons, List.append_assoc, List.singleton_append,
    dropWhile_append_cons hc]
  simp

end

/-! ## The first word -/

theorem firstWord?_eq_none_iff : firstWord? s = none ↔ ∀ c ∈ s, isBlank c = false := by
  have hrest : s.dropWhile (!isBlank ·) = [] ↔ ∀ c ∈ s, isBlank c = false := by
    rw [List.dropWhile_eq_nil_iff]
    simp
  rw [← hrest]
  unfold firstWord?
  cases s.dropWhile (!isBlank ·) <;> simp

/-- The first word ends at white space, behind which the text goes on without any. -/
theorem firstWord?_eq_some_iff : firstWord? s = some (w, t) ↔ ∃ g ∈ gap, s = w ++ (g ++ t) ∧
    (∀ c ∈ w, isBlank c = false) ∧ ∀ c ∈ t.head?, isBlank c = false := by
  constructor
  · intro h
    unfold firstWord? at h
    dsimp only at h
    split at h
    next => cases h
    next hrest =>
      obtain ⟨rfl, rfl⟩ := Prod.mk.inj (Option.some.inj h)
      obtain ⟨c, rest, heq⟩ := List.exists_cons_of_ne_nil hrest
      have hc : isBlank c = true := by
        simpa using head?_dropWhile (p := (!isBlank ·)) s c (by rw [heq]; rfl)
      refine ⟨(s.dropWhile (!isBlank ·)).takeWhile isBlank, mem_many1.mpr ⟨?_, ?_⟩, ?_, ?_, ?_⟩
      · rw [heq, List.takeWhile_cons_of_pos hc]
        exact List.cons_ne_nil _ _
      · exact fun c hc => List.mem_takeWhile_imp hc
      · unfold trimStart
        rw [List.takeWhile_append_dropWhile, List.takeWhile_append_dropWhile]
      · intro c hc
        simpa using List.mem_takeWhile_imp hc
      · exact head?_dropWhile _
  · rintro ⟨g, hg, rfl, hw, ht⟩
    obtain ⟨hne, hblank⟩ := mem_many1.mp hg
    have hsolid : ∀ c ∈ w, (!isBlank c) = true := by simpa using hw
    obtain ⟨c, rest, rfl⟩ := List.exists_cons_of_ne_nil hne
    have hc : isBlank c = true := hblank c List.mem_cons_self
    have hhead : ∀ d ∈ (c :: rest ++ t).head?, (!isBlank d) = false := by
      intro d hd
      obtain rfl := Option.some.inj hd
      simp [hc]
    have hword := takeWhile_run_append hsolid hhead
    have hrest := dropWhile_run_append hsolid hhead
    have hstart : trimStart (c :: rest ++ t) = t := dropWhile_run_append hblank ht
    unfold firstWord?
    dsimp only
    rw [hword, hrest, hstart]
    rfl

theorem head?_solid_append (hw : w ∈ solid) (t : List Char) :
    ∀ c ∈ (w ++ t).head?, isBlank c = false := by
  obtain ⟨hne, hsolid⟩ := mem_solid.mp hw
  obtain ⟨first, rest, rfl⟩ := List.exists_cons_of_ne_nil hne
  intro c hc
  obtain rfl := Option.some.inj hc
  exact hsolid _ List.mem_cons_self

theorem firstWord?_append (hw : w ∈ solid) (hg : g ∈ gap)
    (ht : ∀ c ∈ t.head?, isBlank c = false) : firstWord? (w ++ (g ++ t)) = some (w, t) :=
  firstWord?_eq_some_iff.mpr ⟨g, hg, rfl, (mem_solid.mp hw).2, ht⟩

/-! ## Texts without surrounding white space -/

/-- The text neither starts nor ends with white space. -/
structure Trimmed (s : List Char) : Prop where
  start : ∀ c ∈ s.head?, isBlank c = false
  stop : ∀ c ∈ s.getLast?, isBlank c = false

theorem trimmed_trim (s : List Char) : Trimmed (trim s) where
  start := head?_trimWhile isBlank s
  stop := getLast?_trimWhile isBlank s

/-- White space round such a text is trimmed off, and nothing else. -/
theorem Trimmed.trim_append {g' : List Char} (hs : Trimmed s) (hg : g ∈ many isBlank)
    (hg' : g' ∈ many isBlank) : trim (g ++ (s ++ g')) = s :=
  trimWhile_append hg hg' hs.start hs.stop

theorem Trimmed.trim_eq (hs : Trimmed s) : trim s = s := by
  have hnone : [] ∈ many isBlank := List.forall_mem_nil _
  have htrim := hs.trim_append hnone hnone
  rwa [List.nil_append, List.append_nil] at htrim

theorem trim_of_solid (hs : s ∈ solid) : trim s = s := by
  have hblank := (mem_solid.mp hs).2
  exact Trimmed.trim_eq ⟨fun c hc => hblank c (List.mem_of_head? hc),
    fun c hc => hblank c (List.mem_of_getLast? hc)⟩

/-- Such a text is empty, or one word, or a word, white space and such a text. -/
theorem Trimmed.cases (hs : Trimmed s) : s = [] ∨ s ∈ solid ∨
    ∃ w ∈ solid, ∃ g ∈ gap, ∃ t, Trimmed t ∧ t ≠ [] ∧ s = w ++ (g ++ t) := by
  by_cases hne : s = []
  · exact .inl hne
  cases hfirst : firstWord? s with
  | none => exact .inr (.inl (mem_solid.mpr ⟨hne, firstWord?_eq_none_iff.mp hfirst⟩))
  | some parts =>
    obtain ⟨w, t⟩ := parts
    obtain ⟨g, hg, rfl, hw, ht⟩ := firstWord?_eq_some_iff.mp hfirst
    obtain ⟨hgap, hblank⟩ := mem_many1.mp hg
    have hwne : w ≠ [] := by
      rintro rfl
      obtain ⟨c, g, rfl⟩ := List.exists_cons_of_ne_nil hgap
      exact absurd (hblank c List.mem_cons_self) (by simp [hs.start c rfl])
    have htne : t ≠ [] := by
      rintro rfl
      obtain ⟨c, hc⟩ := Option.isSome_iff_exists.mp (List.getLast?_isSome.mpr hgap)
      have hlast : (w ++ (g ++ [])).getLast? = some c := by
        rw [List.append_nil, List.getLast?_append, hc]
        rfl
      exact absurd (hblank c (List.mem_of_getLast? hc)) (by simp [hs.stop c hlast])
    have hstop : ∀ c ∈ t.getLast?, isBlank c = false := by
      intro c hc
      refine hs.stop c ?_
      rw [List.getLast?_append, List.getLast?_append, hc]
      rfl
    exact .inr (.inr ⟨w, mem_solid.mpr ⟨hwne, hw⟩, g, hg, t, ⟨ht, hstop⟩, htne, rfl⟩)

/-- Such a text without words is empty. -/
theorem Trimmed.eq_nil_of_words (hs : Trimmed s) (h : words s = []) : s = [] := by
  cases s with
  | nil => rfl
  | cons c s =>
    have hblank := segments_eq_nil_iff.mp h c List.mem_cons_self
    exact absurd hblank (by simp [hs.start c rfl])

/-! ## Phrases -/

/-- The texts of words in the languages, one by one, with white space between them. -/
def phrase : List (Language Char) → Language Char
  | [] => 1
  | [L] => L
  | L :: rest => L * gap * phrase rest

variable {Ls : List (Language Char)}

theorem mem_phrase_cons {L L' : Language Char} :
    s ∈ phrase (L :: L' :: Ls) ↔
      ∃ w ∈ L, ∃ g ∈ gap, ∃ t ∈ phrase (L' :: Ls), s = w ++ (g ++ t) := by
  show s ∈ L * gap * phrase (L' :: Ls) ↔ _
  rw [mul_assoc]
  simp only [Language.mem_mul, @eq_comm _ s]
  constructor
  · rintro ⟨w, hw, _, ⟨g, hg, t, ht, rfl⟩, rfl⟩
    exact ⟨w, hw, g, hg, t, ht, rfl⟩
  · rintro ⟨w, hw, g, hg, t, ht, rfl⟩
    exact ⟨w, hw, _, ⟨g, hg, t, ht, rfl⟩, rfl⟩

/-- The words of a phrase are in its languages. -/
theorem forall₂_words_of_mem_phrase (hLs : ∀ L ∈ Ls, L ≤ solid) (h : s ∈ phrase Ls) :
    List.Forall₂ (· ∈ ·) (words s) Ls := by
  induction Ls generalizing s with
  | nil =>
    obtain rfl : s = [] := h
    exact .nil
  | cons L Ls ih =>
    obtain ⟨hL, hLs⟩ := List.forall_mem_cons.mp hLs
    cases Ls with
    | nil =>
      rw [words_of_solid (hL h)]
      exact .cons h .nil
    | cons L' Ls =>
      obtain ⟨w, hw, g, hg, t, ht, rfl⟩ := mem_phrase_cons.mp h
      rw [words_append (hL hw) hg]
      exact .cons hw (ih hLs ht)

/-- A text without surrounding white space is in a phrase if its words are. -/
theorem mem_phrase_of_forall₂_words (hs : Trimmed s) (h : List.Forall₂ (· ∈ ·) (words s) Ls) :
    s ∈ phrase Ls := by
  induction Ls generalizing s with
  | nil =>
    exact hs.eq_nil_of_words (List.forall₂_nil_right_iff.mp h)
  | cons L Ls ih =>
    rcases hs.cases with rfl | hsolid | ⟨w, hw, g, hg, t, ht, hne, rfl⟩
    · cases h
    · rw [words_of_solid hsolid] at h
      obtain ⟨hL, hLs⟩ := List.forall₂_cons.mp h
      obtain rfl := List.forall₂_nil_left_iff.mp hLs
      exact hL
    · rw [words_append hw hg] at h
      obtain ⟨hL, hLs⟩ := List.forall₂_cons.mp h
      cases Ls with
      | nil => exact absurd (ih ht hLs) hne
      | cons L' Ls => exact mem_phrase_cons.mpr ⟨w, hL, g, hg, t, ih ht hLs, rfl⟩

/-- **A text without surrounding white space is in a phrase if and only if its words are.** -/
theorem mem_phrase_iff (hLs : ∀ L ∈ Ls, L ≤ solid) (hs : Trimmed s) :
    s ∈ phrase Ls ↔ List.Forall₂ (· ∈ ·) (words s) Ls :=
  ⟨forall₂_words_of_mem_phrase hLs, mem_phrase_of_forall₂_words hs⟩

end PromptPipeline.Text
