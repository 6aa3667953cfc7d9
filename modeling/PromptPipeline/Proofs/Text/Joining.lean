import Mathlib
import PromptPipeline.Text.Line

/-!
# Splitting and joining

The segments of a text are what stands between the characters that separate, as far as it is not
empty (`segments`): words are the segments between white space. Splitting takes apart what joining
put together, as long as no separator stands in a part (`splitWhere_joinWith`, `segments_joinWith`),
and joining puts together again what was split at one character (`joinWith_splitWhere`).
-/

namespace PromptPipeline.Text

variable {p : Char → Bool} {c : Char} {separator part s : List Char} {parts : List (List Char)}

/-! ## Joining -/

theorem joinWith_cons (hparts : parts ≠ []) :
    joinWith separator (part :: parts) = part ++ separator ++ joinWith separator parts := by
  cases parts with
  | nil => exact absurd rfl hparts
  | cons next parts => rfl

/-- Behind the first part each part comes with a separator before it. -/
theorem joinWith_cons_eq_flatMap (part : List Char) (parts : List (List Char)) :
    joinWith separator (part :: parts) = part ++ parts.flatMap (separator ++ ·) := by
  induction parts generalizing part with
  | nil => simp [joinWith]
  | cons next parts ih =>
    rw [joinWith_cons (List.cons_ne_nil next parts), ih, List.flatMap_cons]
    simp only [List.append_assoc]

/-- A joined text has no character that is neither in the separator nor in a part. -/
theorem mem_or_of_mem_joinWith (h : c ∈ joinWith separator parts) :
    c ∈ separator ∨ ∃ part ∈ parts, c ∈ part := by
  cases parts with
  | nil => cases h
  | cons part parts =>
    rw [joinWith_cons_eq_flatMap, List.mem_append, List.mem_flatMap] at h
    rcases h with hpart | ⟨next, hnext, hmem⟩
    · exact .inr ⟨part, List.mem_cons_self, hpart⟩
    · rcases List.mem_append.mp hmem with hseparator | hmem
      · exact .inl hseparator
      · exact .inr ⟨next, List.mem_cons_of_mem part hnext, hmem⟩

theorem mem_joinWith (hpart : part ∈ parts) (hc : c ∈ part) : c ∈ joinWith separator parts := by
  cases parts with
  | nil => cases hpart
  | cons first parts =>
    rw [joinWith_cons_eq_flatMap, List.mem_append, List.mem_flatMap]
    rcases List.mem_cons.mp hpart with rfl | hpart
    · exact .inl hc
    · exact .inr ⟨part, hpart, List.mem_append_right _ hc⟩

/-- The text that is joined from texts. -/
theorem ofList_joinWith (separator : List Char) (parts : List (List Char)) :
    String.ofList (joinWith separator parts) =
      (String.ofList separator).intercalate (parts.map String.ofList) := by
  induction parts with
  | nil => rfl
  | cons part parts ih =>
    by_cases hlast : parts = []
    · rw [hlast, List.map_singleton, String.intercalate_singleton]
      rfl
    · rw [joinWith_cons hlast, List.map_cons,
        String.intercalate_cons_of_ne_nil (by simpa using hlast), ← ih, String.ofList_append,
        String.ofList_append]

/-- How often a character that does not separate stands in a joined text. -/
theorem count_joinWith (hc : c ∉ separator) (parts : List (List Char)) :
    (joinWith separator parts).count c = (parts.map (List.count c)).sum := by
  induction parts with
  | nil => rfl
  | cons part parts ih =>
    by_cases hlast : parts = []
    · simp [hlast, joinWith]
    · rw [joinWith_cons hlast, List.count_append, List.count_append, ih,
        List.count_eq_zero_of_not_mem hc, List.map_cons, List.sum_cons, Nat.add_zero]

/-! ## Splitting -/

/-- A joined text is split into its parts again. -/
theorem splitWhere_joinWith (hc : p c = true) (hparts : parts ≠ [])
    (h : ∀ part ∈ parts, ∀ d ∈ part, p d = false) :
    splitWhere p (joinWith [c] parts) = parts := by
  induction parts with
  | nil => exact absurd rfl hparts
  | cons part parts ih =>
    obtain ⟨hpart, hrest⟩ := List.forall_mem_cons.mp h
    by_cases hlast : parts = []
    · rw [hlast]
      exact splitWhere_of_forall hpart
    · have hjoin : joinWith [c] (part :: parts) = part ++ c :: joinWith [c] parts := by
        rw [joinWith_cons hlast, List.append_assoc]
        rfl
      rw [hjoin, splitWhere_append hc, splitWhere_of_forall hpart, ih hlast hrest]
      rfl

/-- What was split at one character is joined by it again. -/
theorem joinWith_splitWhere (c : Char) (s : List Char) :
    joinWith [c] (splitWhere (· == c) s) = s := by
  induction s with
  | nil => rfl
  | cons d s ih =>
    rw [splitWhere]
    cases hsplit : splitWhere (· == c) s with
    | nil => exact absurd hsplit (splitWhere_ne_nil _ s)
    | cons piece pieces =>
      rw [hsplit] at ih
      by_cases hd : (d == c) = true
      · rw [if_pos hd, joinWith_cons (List.cons_ne_nil piece pieces), ih, eq_of_beq hd]
        rfl
      · rw [if_neg hd, joinWith_cons_eq_flatMap, List.cons_append, ← joinWith_cons_eq_flatMap, ih]

/-! ## Pieces between line feeds -/

/-- The pieces of the text between line feeds. -/
def pieces (s : List Char) : List (List Char) :=
  splitWhere (· == '\n') s

theorem pieces_append (s t : List Char) : pieces (s ++ '\n' :: t) = pieces s ++ pieces t :=
  splitWhere_append rfl s t

theorem pieces_of_notMem (h : '\n' ∉ s) : pieces s = [s] :=
  splitWhere_of_forall fun _ hd => beq_eq_false_iff_ne.mpr (ne_of_mem_of_not_mem hd h)

theorem notMem_of_mem_pieces (h : part ∈ pieces s) : '\n' ∉ part :=
  fun hmem => absurd (forall_of_mem_splitWhere h '\n' hmem) (by decide)

theorem joinLines_pieces (s : List Char) : joinLines (pieces s) = s :=
  joinWith_splitWhere '\n' s

theorem pieces_joinLines (hparts : parts ≠ []) (h : ∀ part ∈ parts, '\n' ∉ part) :
    pieces (joinLines parts) = parts :=
  splitWhere_joinWith rfl hparts fun part hpart _ hd =>
    beq_eq_false_iff_ne.mpr (ne_of_mem_of_not_mem hd (h part hpart))

/-- The first line is the first piece, or that without its carriage return if pieces follow. -/
theorem exists_of_closeLines_cons {pieces rest : List (List Char)}
    (h : closeLines pieces = part :: rest) :
    ∃ piece pieces', pieces = piece :: pieces' ∧ rest = closeLines pieces' ∧
      (part = dropCarriageReturn piece ∨ part = piece ∧ pieces' = []) := by
  unfold closeLines at h
  split at h
  next => cases h
  next last =>
    split at h
    next => cases h
    next =>
      obtain ⟨rfl, rfl⟩ := List.cons.inj h
      exact ⟨last, [], rfl, rfl, .inr ⟨rfl, rfl⟩⟩
  next piece pieces' _ =>
    obtain ⟨rfl, rfl⟩ := List.cons.inj h
    exact ⟨piece, pieces', rfl, rfl, .inl rfl⟩

/-- Lines before others are pieces without the carriage returns at their ends. -/
theorem exists_of_closeLines_append {pieces before after : List (List Char)}
    (hafter : after ≠ []) (h : closeLines pieces = before ++ after) :
    ∃ before' after', pieces = before' ++ after' ∧ before = before'.map dropCarriageReturn ∧
      closeLines after' = after := by
  induction before generalizing pieces with
  | nil => exact ⟨[], pieces, rfl, rfl, h⟩
  | cons line before ih =>
    obtain ⟨piece, pieces', rfl, hrest, hline⟩ := exists_of_closeLines_cons h
    obtain ⟨before', after', rfl, rfl, hclose⟩ := ih hrest.symm
    rcases hline with rfl | ⟨-, hnone⟩
    · exact ⟨piece :: before', after', rfl, rfl, hclose⟩
    · -- a last piece is the last line, but more lines follow
      rw [(List.append_eq_nil_iff.mp hnone).2] at hclose
      exact absurd hclose.symm hafter

/-! ## Segments -/

/-- The maximal runs of characters that do not separate. -/
def segments (p : Char → Bool) (s : List Char) : List (List Char) :=
  (splitWhere p s).filter (· ≠ [])

theorem words_eq_segments (s : List Char) : words s = segments isBlank s :=
  rfl

theorem of_mem_segments (h : part ∈ segments p s) : part ≠ [] ∧ ∀ d ∈ part, p d = false := by
  obtain ⟨hmem, hne⟩ := List.mem_filter.mp h
  exact ⟨of_decide_eq_true hne, forall_of_mem_splitWhere hmem⟩

theorem flatten_segments (p : Char → Bool) (s : List Char) :
    (segments p s).flatten = s.filter (!p ·) := by
  rw [← flatten_splitWhere]
  exact List.flatten_filter_ne_nil

theorem exists_mem_segments_iff (hc : p c = false) : (∃ part ∈ segments p s, c ∈ part) ↔ c ∈ s := by
  rw [← List.mem_flatten, flatten_segments, List.mem_filter]
  simp [hc]

/-- A text has no segments if and only if all its characters separate. -/
theorem segments_eq_nil_iff : segments p s = [] ↔ ∀ d ∈ s, p d = true := by
  constructor
  · intro hnone d hd
    by_contra hkept
    obtain ⟨part, hpart, -⟩ := (exists_mem_segments_iff (eq_false_of_ne_true hkept)).mpr hd
    rw [hnone] at hpart
    cases hpart
  · intro hall
    apply List.eq_nil_iff_forall_not_mem.mpr
    intro part hpart
    obtain ⟨hne, hkept⟩ := of_mem_segments hpart
    obtain ⟨d, rest, rfl⟩ := List.exists_cons_of_ne_nil hne
    have hd : p d = false := hkept d List.mem_cons_self
    have hmem : d ∈ s := (exists_mem_segments_iff hd).mp ⟨_, hpart, List.mem_cons_self⟩
    exact absurd (hall d hmem) (by simp [hd])

/-- The segments of a joined text are its parts. -/
theorem segments_joinWith (hc : p c = true)
    (h : ∀ part ∈ parts, part ≠ [] ∧ ∀ d ∈ part, p d = false) :
    segments p (joinWith [c] parts) = parts := by
  by_cases hparts : parts = []
  · rw [hparts]
    rfl
  · rw [segments, splitWhere_joinWith hc hparts fun part hpart => (h part hpart).2]
    exact List.filter_eq_self.mpr fun part hpart => decide_eq_true (h part hpart).1

end PromptPipeline.Text
