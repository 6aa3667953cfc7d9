/-!
# White space

A property of characters is a table of inclusive code-point ranges; a character has the property
when one of the ranges holds its code point (`inRanges_iff`).

The first such property is `White_Space`, and on it rest operations on texts: trimming and splitting
into words. A text is blank when it has no other character.
-/

namespace PromptPipeline.Text

/-- Whether one of the inclusive ranges holds the code point. -/
def inRanges (table : List (Nat × Nat)) (n : Nat) : Bool :=
  table.any fun r => r.1 ≤ n && n ≤ r.2

theorem inRanges_iff {table : List (Nat × Nat)} {n : Nat} :
    inRanges table n = true ↔ ∃ r ∈ table, r.1 ≤ n ∧ n ≤ r.2 := by
  simp [inRanges]

/-- Inclusive ranges of the code points with the property `White_Space`. -/
def whiteSpaceRanges : List (Nat × Nat) :=
  [(0x9, 0xD), (0x20, 0x20), (0x85, 0x85), (0xA0, 0xA0), (0x1680, 0x1680), (0x2000, 0x200A),
    (0x2028, 0x2029), (0x202F, 0x202F), (0x205F, 0x205F), (0x3000, 0x3000)]

/-- Whether the character is white space. -/
def isBlank (c : Char) : Bool :=
  inRanges whiteSpaceRanges c.toNat

/-- The text without its leading white space. -/
def trimStart (s : List Char) : List Char :=
  s.dropWhile isBlank

/-- The text without the longest ending all of whose characters satisfy `p`. -/
def dropEndWhile (p : Char → Bool) (s : List Char) : List Char :=
  (s.reverse.dropWhile p).reverse

/-- The text without the longest beginning and ending all of whose characters satisfy `p`. -/
def trimWhile (p : Char → Bool) (s : List Char) : List Char :=
  dropEndWhile p (s.dropWhile p)

/-- The text without its trailing white space. -/
def trimEnd (s : List Char) : List Char :=
  dropEndWhile isBlank s

/-- The text without leading and trailing white space. -/
def trim (s : List Char) : List Char :=
  trimWhile isBlank s

/-- Splits at every character that satisfies `p`: there is one piece more than such characters. -/
def splitWhere (p : Char → Bool) : List Char → List (List Char)
  | [] => [[]]
  | c :: rest =>
    if p c then [] :: splitWhere p rest
    else
      match splitWhere p rest with
      | [] => [[c]]
      | piece :: pieces => (c :: piece) :: pieces

/-- The maximal runs of characters that are not white space. -/
def words (s : List Char) : List (List Char) :=
  (splitWhere isBlank s).filter (· ≠ [])

section

variable {α : Type} {p : α → Bool} {run rest : List α} (hrun : ∀ c ∈ run, p c = true)
  (hrest : ∀ c ∈ rest.head?, p c = false)

include hrun hrest

/-- A run of members ends at the first one of another kind. -/
theorem takeWhile_run_append : (run ++ rest).takeWhile p = run := by
  rw [List.takeWhile_append_of_pos hrun]
  cases rest with
  | nil => simp
  | cons c rest => simp [hrest c rfl]

theorem dropWhile_run_append : (run ++ rest).dropWhile p = rest := by
  rw [List.dropWhile_append_of_pos hrun]
  cases rest with
  | nil => rfl
  | cons c rest => simp [hrest c rfl]

end

theorem splitWhere_ne_nil (p : Char → Bool) (s : List Char) : splitWhere p s ≠ [] := by
  cases s with
  | nil => simp [splitWhere]
  | cons c rest =>
    simp only [splitWhere]
    split
    · simp
    · split <;> simp

/-- Splitting starts afresh behind a separator. -/
theorem splitWhere_append {p : Char → Bool} {c : Char} (hc : p c = true) (s t : List Char) :
    splitWhere p (s ++ c :: t) = splitWhere p s ++ splitWhere p t := by
  induction s with
  | nil => simp [splitWhere, hc]
  | cons first rest ih =>
    rw [List.cons_append, splitWhere, splitWhere, ih]
    cases hrest : splitWhere p rest with
    | nil => exact absurd hrest (splitWhere_ne_nil p rest)
    | cons piece pieces => split <;> rfl

theorem splitWhere_of_forall {p : Char → Bool} {s : List Char} (h : ∀ c ∈ s, p c = false) :
    splitWhere p s = [s] := by
  induction s with
  | nil => rfl
  | cons c s ih =>
    obtain ⟨hc, hs⟩ := List.forall_mem_cons.mp h
    simp [splitWhere, hc, ih hs]

/-- The pieces have all characters but the separators. -/
theorem flatten_splitWhere (p : Char → Bool) (s : List Char) :
    (splitWhere p s).flatten = s.filter (!p ·) := by
  induction s with
  | nil => rfl
  | cons c rest ih =>
    rw [splitWhere, List.filter_cons, ← ih]
    cases hc : p c with
    | true => rfl
    | false => cases splitWhere p rest <;> rfl

theorem forall_of_mem_splitWhere {p : Char → Bool} {s piece : List Char}
    (h : piece ∈ splitWhere p s) : ∀ c ∈ piece, p c = false := by
  induction s generalizing piece with
  | nil =>
    obtain rfl := List.mem_singleton.mp h
    exact List.forall_mem_nil _
  | cons first rest ih =>
    unfold splitWhere at h
    split at h
    next =>
      rcases List.mem_cons.mp h with rfl | h
      · exact List.forall_mem_nil _
      · exact ih h
    next hfirst =>
      cases hrest : splitWhere p rest with
      | nil => exact absurd hrest (splitWhere_ne_nil p rest)
      | cons next pieces =>
        simp only [hrest, List.mem_cons] at h ih
        rcases h with rfl | h
        · exact List.forall_mem_cons.mpr ⟨Bool.not_eq_true _ ▸ hfirst, ih (.inl rfl)⟩
        · exact ih (.inr h)

end PromptPipeline.Text
