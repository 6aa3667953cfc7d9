import PromptPipeline.Bindings
import PromptPipeline.Error
import PromptPipeline.Name

/-!
# Templates

A template is text with placeholders: names of parameters in braces. Its pieces are the characters
outside placeholders and the placeholders; substitution replaces each placeholder by its value and
looks at nothing else, so a value is never read as a template.
-/

namespace PromptPipeline.Template

/-- The name in the placeholder that starts a text, and the text after it. -/
def placeholderAt? : List Char → Option (List Char × List Char)
  | '\x7b' :: rest =>
    match rest.dropWhile Name.isParameterPart with
    | '\x7d' :: after =>
      if Name.isParameter (rest.takeWhile Name.isParameterPart) then
        some (rest.takeWhile Name.isParameterPart, after)
      else none
    | _ => none
  | _ => none

/-- A piece of a template. -/
inductive Piece where
  | char (c : Char)
  | placeholder (name : String)
  deriving DecidableEq

theorem length_placeholderAt? {s name after : List Char}
    (h : placeholderAt? s = some (name, after)) : after.length < s.length := by
  unfold placeholderAt? at h
  split at h
  · next rest =>
    split at h
    · next after' heq =>
      split at h
      · simp only [Option.some.injEq, Prod.mk.injEq] at h
        have hle := (List.dropWhile_sublist Name.isParameterPart (l := rest)).length_le
        rw [heq] at hle
        simp only [List.length_cons] at hle ⊢
        rw [← h.2]
        omega
      · simp at h
    · simp at h
  · simp at h

/-- The pieces of a template, from left to right. -/
def pieces (s : List Char) : List Piece :=
  match _h : s with
  | [] => []
  | c :: rest =>
    match _hp : placeholderAt? s with
    | some (name, after) => .placeholder (.ofList name) :: pieces after
    | none => .char c :: pieces rest
termination_by s.length
decreasing_by
  · have := length_placeholderAt? _hp; subst _h; simpa using this
  · simp

/-- The names of the placeholders among the pieces, in order. -/
def placeholderNames (ps : List Piece) : List String :=
  ps.filterMap fun
    | .char _ => none
    | .placeholder name => some name

/-- The names of the parameters that a template needs. -/
def parameters (template : String) : NameSet :=
  .ofList (placeholderNames (pieces template.toList))

/-- The pieces with the values of the parameters in place of the placeholders. -/
def fill (values : Bindings String) : List Piece → Result (List Char)
  | [] => .ok []
  | .char c :: rest => (fill values rest).map (c :: ·)
  | .placeholder name :: rest =>
    match values.get? name with
    | some value => (fill values rest).map (value.toList ++ ·)
    | none => .error (.unexpected (.unresolvedPlaceholder name))

/-- The template with the values of the parameters in place of the placeholders; fails on the first
placeholder without a value. -/
def substitute (template : String) (values : Bindings String) : Result String :=
  (fill values (pieces template.toList)).map .ofList

end PromptPipeline.Template
