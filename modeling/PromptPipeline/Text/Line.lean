import PromptPipeline.Text.Blank

/-!
# Lines of a text

A line ends at a line feed, which may follow a carriage return; the end of the text closes a last
line only if something stands on it. So a text that ends with a line feed has as many lines as
line feeds.
-/

namespace PromptPipeline.Text

/-- The line without the carriage return that stood before its line feed. -/
def dropCarriageReturn (line : List Char) : List Char :=
  match line.getLast? with
  | some '\r' => line.dropLast
  | _ => line

/-- The closed lines of a text: of the pieces between line feeds, the last one is a line only if
it is not empty, and it keeps its carriage return. -/
def closeLines : List (List Char) → List (List Char)
  | [] => []
  | [last] => if last = [] then [] else [last]
  | piece :: rest => dropCarriageReturn piece :: closeLines rest

/-- The lines of a text, without their ends. -/
def lines (s : List Char) : List (List Char) :=
  closeLines (splitWhere (· == '\n') s)

/-- The texts with a separator between each two. -/
def joinWith (separator : List Char) : List (List Char) → List Char
  | [] => []
  | [last] => last
  | piece :: rest => piece ++ separator ++ joinWith separator rest

/-- The texts with a line feed between each two. -/
def joinLines (pieces : List (List Char)) : List Char :=
  joinWith ['\n'] pieces

/-- The rest of the text after the given beginning, if it starts so. -/
def dropStart? : (start : List Char) → (s : List Char) → Option (List Char)
  | [], s => some s
  | _ :: _, [] => none
  | c :: start, d :: s => if c = d then dropStart? start s else none

/-- The text before the given ending, if it ends so. -/
def dropEnd? (ending s : List Char) : Option (List Char) :=
  (dropStart? ending.reverse s.reverse).map List.reverse

theorem dropStart?_eq_some_iff {start s rest : List Char} :
    dropStart? start s = some rest ↔ s = start ++ rest := by
  fun_induction dropStart? start s with
  | case1 s => rw [Option.some_inj, List.nil_append]
  | case2 => simp
  | case3 start c s ih => rw [ih, List.cons_append, List.cons_inj_right]
  | case4 c start d s hne => simp [Ne.symm hne]

theorem dropEnd?_append (s ending : List Char) : dropEnd? ending (s ++ ending) = some s := by
  rw [dropEnd?, dropStart?_eq_some_iff.mpr List.reverse_append, Option.map_some, List.reverse_reverse]

/-- The text before and after the first character that satisfies `p`, if there is one. -/
def splitOnce? (p : Char → Bool) : List Char → Option (List Char × List Char)
  | [] => none
  | c :: rest =>
    if p c then some ([], rest)
    else (splitOnce? p rest).map fun (a, b) => (c :: a, b)

theorem splitOnce?_append {p : Char → Bool} {before after : List Char} {c : Char}
    (hb : ∀ d ∈ before, p d = false) (hc : p c = true) :
    splitOnce? p (before ++ c :: after) = some (before, after) := by
  induction before with
  | nil => simp [splitOnce?, hc]
  | cons d rest ih =>
    have hd : p d = false := hb d (by simp)
    have hrest := ih fun e he => hb e (List.mem_cons_of_mem _ he)
    simp [splitOnce?, hd, hrest]

theorem eq_append_of_splitOnce? {p : Char → Bool} {s before after : List Char}
    (h : splitOnce? p s = some (before, after)) :
    ∃ c, s = before ++ c :: after ∧ p c = true ∧ ∀ d ∈ before, p d = false := by
  induction s generalizing before with
  | nil => cases h
  | cons c rest ih =>
    unfold splitOnce? at h
    split at h
    next hc =>
      cases h
      exact ⟨c, rfl, hc, List.forall_mem_nil _⟩
    next hc =>
      obtain ⟨⟨before', _⟩, hrest, heq⟩ := Option.map_eq_some_iff.mp h
      cases heq
      obtain ⟨d, rfl, hd, hbefore⟩ := ih hrest
      exact ⟨d, rfl, hd, List.forall_mem_cons.mpr ⟨Bool.not_eq_true _ ▸ hc, hbefore⟩⟩

end PromptPipeline.Text
