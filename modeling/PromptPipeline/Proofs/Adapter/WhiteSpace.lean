import PromptPipeline.Adapter.TextFunction
import PromptPipeline.Proofs.Text.Words

/-!
# Normal white space

White space is brought to normal form character by character: the text is trimmed, and of each run
of white space the first character turns into a space and the others go. Words are split off in
another way, at every character of white space. Both see the same words (`collapseBlanks_eq`): a
text without surrounding white space is a word, or a word, white space and such a text again, and
over each of these parts the two ways agree.

Main statement: `BuiltIn.normal_form_is_words_joined`.
-/

namespace PromptPipeline

namespace Text

variable {s t w : List Char} {ws : List (List Char)}

/-! ## Words with one space between each two -/

/-- The text has white space neither at its ends nor twice in a row. -/
structure SingleSpaced (s : List Char) : Prop extends Trimmed s where
  single : s.IsChain fun c d => ¬(isBlank c = true ∧ isBlank d = true)

theorem SingleSpaced.nil : SingleSpaced [] where
  start := nofun
  stop := nofun
  single := .nil

theorem SingleSpaced.of_solid (hw : w ∈ solid) : SingleSpaced w where
  start c hc := (mem_solid.mp hw).2 c (List.mem_of_head? hc)
  stop c hc := (mem_solid.mp hw).2 c (List.mem_of_getLast? hc)
  single := by
    apply List.Pairwise.isChain
    apply List.pairwise_of_forall_mem_list
    intro c hc d _ hblank
    exact absurd hblank.1 (by simp [(mem_solid.mp hw).2 c hc])

/-- A word goes before such a text, with a space between them. -/
theorem SingleSpaced.cons (hs : SingleSpaced s) (hne : s ≠ []) (hw : w ∈ solid) :
    SingleSpaced (w ++ ' ' :: s) where
  start := head?_solid_append hw _
  stop := by
    intro c hc
    apply hs.stop c
    rw [List.getLast?_append, List.getLast?_cons, Option.some_or] at hc
    cases hlast : s.getLast? with
    | none => exact absurd (List.getLast?_eq_none_iff.mp hlast) hne
    | some d =>
      rw [hlast] at hc
      exact hc
  single := by
    rw [List.isChain_append, List.isChain_cons]
    refine ⟨(of_solid hw).single, ⟨?_, hs.single⟩, ?_⟩
    · intro d hd hblank
      exact absurd hblank.2 (by simp [hs.start d hd])
    · intro c hc d _ hblank
      exact absurd hblank.1 (by simp [(of_solid hw).stop c hc])

theorem joinWith_ne_nil (hws : ∀ w ∈ ws, w ∈ solid) (hne : ws ≠ []) : joinWith [' '] ws ≠ [] := by
  obtain ⟨w, ws, rfl⟩ := List.exists_cons_of_ne_nil hne
  obtain ⟨hw, -⟩ := List.forall_mem_cons.mp hws
  intro hnil
  rw [joinWith_cons_eq_flatMap] at hnil
  exact (mem_solid.mp hw).1 (List.append_eq_nil_iff.mp hnil).1

theorem singleSpaced_joinWith (hws : ∀ w ∈ ws, w ∈ solid) : SingleSpaced (joinWith [' '] ws) := by
  induction ws with
  | nil => exact .nil
  | cons w ws ih =>
    obtain ⟨hw, hrest⟩ := List.forall_mem_cons.mp hws
    by_cases hlast : ws = []
    · rw [hlast]
      exact .of_solid hw
    · rw [joinWith_cons hlast, List.append_assoc]
      exact (ih hrest).cons (joinWith_ne_nil hrest hlast) hw

/-- The words of a text that is joined from words are these. -/
theorem words_joinWith (hws : ∀ w ∈ ws, w ∈ solid) : words (joinWith [' '] ws) = ws :=
  segments_joinWith (by decide) fun w hw => mem_solid.mp (hws w hw)

end Text

namespace Answer

open Text

variable {s t w g : List Char}

/-! ## Runs of white space -/

/-- A word stays as it is. -/
theorem collapseBlanks_solid (hw : ∀ c ∈ w, isBlank c = false) (t : List Char) :
    collapseBlanks false (w ++ t) = w ++ collapseBlanks false t := by
  induction w with
  | nil => rfl
  | cons c w ih =>
    obtain ⟨hc, hw⟩ := List.forall_mem_cons.mp hw
    rw [List.cons_append, collapseBlanks, hc, ih hw]
    rfl

/-- Behind white space no more of it is kept. -/
theorem collapseBlanks_blank (hg : ∀ c ∈ g, isBlank c = true) (t : List Char) :
    collapseBlanks true (g ++ t) = collapseBlanks true t := by
  induction g with
  | nil => rfl
  | cons c g ih =>
    obtain ⟨hc, hg⟩ := List.forall_mem_cons.mp hg
    rw [List.cons_append, collapseBlanks, hc, ih hg]
    rfl

theorem collapseBlanks_start (ht : ∀ c ∈ t.head?, isBlank c = false) :
    collapseBlanks true t = collapseBlanks false t := by
  cases t with
  | nil => rfl
  | cons c t =>
    have hc : isBlank c = false := ht c rfl
    rw [collapseBlanks, collapseBlanks, hc]
    rfl

/-- A run of white space between words turns into one space. -/
theorem collapseBlanks_gap (hg : g ∈ gap) (ht : ∀ c ∈ t.head?, isBlank c = false) :
    collapseBlanks false (g ++ t) = ' ' :: collapseBlanks false t := by
  obtain ⟨hne, hblank⟩ := mem_many1.mp hg
  obtain ⟨c, g, rfl⟩ := List.exists_cons_of_ne_nil hne
  obtain ⟨hc, hblank⟩ := List.forall_mem_cons.mp hblank
  rw [List.cons_append, collapseBlanks, hc, collapseBlanks_blank hblank, collapseBlanks_start ht]
  rfl

/-- **A text without surrounding white space is brought to normal form word by word.** -/
theorem collapseBlanks_eq (hs : Trimmed s) : collapseBlanks false s = joinWith [' '] (words s) := by
  -- the induction is on the words, since the text loses one of them and a gap at each step
  induction hwords : words s generalizing s with
  | nil =>
    rw [hs.eq_nil_of_words hwords]
    rfl
  | cons first rest ih =>
    rcases hs.cases with rfl | hsolid | ⟨w, hw, g, hg, t, ht, hne, rfl⟩
    · cases hwords
    · obtain ⟨rfl, rfl⟩ := List.cons.inj ((words_of_solid hsolid).symm.trans hwords)
      have hkeep := collapseBlanks_solid (mem_solid.mp hsolid).2 []
      rw [List.append_nil] at hkeep
      rw [hkeep]
      exact List.append_nil s
    · obtain ⟨rfl, hrest⟩ := List.cons.inj ((words_append hw hg t).symm.trans hwords)
      have hrestne : rest ≠ [] := by
        rintro rfl
        exact hne (ht.eq_nil_of_words hrest)
      rw [collapseBlanks_solid (mem_solid.mp hw).2, collapseBlanks_gap hg ht.start, ih ht hrest,
        joinWith_cons hrestne, List.append_assoc]
      rfl

theorem normalizeWhitespaces_eq (s : List Char) :
    normalizeWhitespaces s = joinWith [' '] (words s) := by
  rw [normalizeWhitespaces, collapseBlanks_eq (trimmed_trim s), words_trim]

end Answer

open Text

/-- **The normal form of a text is its words with one space between each two.** So it has the words
of the text and is its own normal form, and it has white space neither at its ends nor twice in a
row. -/
theorem BuiltIn.normal_form_is_words_joined (v : String) :
    ∃ w, BuiltIn.normalizeWhitespaces.apply v = .ok w ∧
      w = " ".intercalate ((words v.toList).map .ofList) ∧
      BuiltIn.normalizeWhitespaces.apply w = .ok w ∧
      TextUnit.words.count w = TextUnit.words.count v ∧ SingleSpaced w.toList := by
  have hsolid : ∀ w ∈ words v.toList, w ∈ solid := fun w hw => solid_of_mem_words hw
  have hwords : words (joinWith [' '] (words v.toList)) = words v.toList := words_joinWith hsolid
  have happly (u : String) : BuiltIn.normalizeWhitespaces.apply u =
      .ok (String.ofList (joinWith [' '] (words u.toList))) :=
    congrArg (fun t => Except.ok (String.ofList t)) (Answer.normalizeWhitespaces_eq u.toList)
  refine ⟨String.ofList (joinWith [' '] (words v.toList)), happly v, ?_, ?_, ?_, ?_⟩
  · exact ofList_joinWith [' '] (words v.toList)
  · rw [happly, String.toList_ofList, hwords]
  · show countWords (String.ofList _).toList = countWords v.toList
    rw [String.toList_ofList, countWords, hwords, countWords]
  · rw [String.toList_ofList]
    exact singleSpaced_joinWith hsolid

end PromptPipeline
