import PromptPipeline.Json.Printer
import PromptPipeline.Json.Reader

/-!
# Layouts

The two written forms of a JSON value differ only in the white space between its parts. A layout
says what that white space is, and `Layout.chars` is the written form in a layout, of which both
forms are cases (`prettyChars_eq`, `compactChars_eq`). What is proved of every layout, such as that
a value is read back from it, holds of both.
-/

namespace PromptPipeline.Json

/-- The white space between the parts of a value: before an item, a member or a closing bracket of a
level, and before the value of a member. -/
structure Layout where
  line : (level : Nat) → List Char
  gap : List Char
  line_blank : ∀ level, ∀ c ∈ line level, isSpace c = true
  gap_blank : ∀ c ∈ gap, isSpace c = true

namespace Layout

mutual

/-- The value as it stands at a level. -/
def chars (L : Layout) (level : Nat) : Json → List Char
  | .null => "null".toList
  | .bool b => boolText b
  | .number n => n.text
  | .string s => quoted s
  | .array items => '[' :: L.items level items
  | .object members => '\x7b' :: L.members level members

/-- The items with commas between them, and the closing bracket. -/
def items (L : Layout) (level : Nat) : List Json → List Char
  | [] => [']']
  | [last] => L.line (level + 1) ++ (L.chars (level + 1) last ++ (L.line level ++ [']']))
  | item :: rest => L.line (level + 1) ++ (L.chars (level + 1) item ++ ',' :: L.items level rest)

/-- The members with commas between them, and the closing brace. -/
def members (L : Layout) (level : Nat) : List (String × Json) → List Char
  | [] => ['\x7d']
  | [(name, last)] =>
    L.line (level + 1) ++ (quoted name ++ ':' :: (L.gap ++ (L.chars (level + 1) last ++
      (L.line level ++ ['\x7d']))))
  | (name, value) :: rest =>
    L.line (level + 1) ++ (quoted name ++ ':' :: (L.gap ++ (L.chars (level + 1) value ++
      ',' :: L.members level rest)))

end

theorem items_cons (L : Layout) (level : Nat) (item : Json) {items : List Json} (h : items ≠ []) :
    L.items level (item :: items) =
      L.line (level + 1) ++ (L.chars (level + 1) item ++ ',' :: L.items level items) := by
  rw [Layout.items]
  exact h

theorem members_cons (L : Layout) (level : Nat) (name : String) (value : Json)
    {members : List (String × Json)} (h : members ≠ []) :
    L.members level ((name, value) :: members) =
      L.line (level + 1) ++ (quoted name ++ ':' :: (L.gap ++ (L.chars (level + 1) value ++
        ',' :: L.members level members))) := by
  rw [Layout.members]
  exact h

/-- Each part on a line of its own. -/
def lines : Layout where
  line := newLine
  gap := [' ']
  line_blank := by
    intro level c hc
    rcases List.mem_cons.mp hc with rfl | hc
    · rfl
    · rw [List.eq_of_mem_replicate hc]
      rfl
  gap_blank := by
    intro c hc
    rw [List.mem_singleton.mp hc]
    rfl

/-- No white space at all. -/
def dense : Layout where
  line := fun _ => []
  gap := []
  line_blank := fun _ _ hc => nomatch hc
  gap_blank := fun _ hc => nomatch hc

end Layout

mutual

/-- The form on several lines is that with each part on a line of its own. -/
theorem prettyChars_eq (level : Nat) (j : Json) :
    prettyChars level j = Layout.lines.chars level j := by
  cases j with
  | null => rfl
  | bool b => rfl
  | number n => rfl
  | string s => rfl
  | array items =>
    cases items with
    | nil => rfl
    | cons item items =>
      exact congrArg ('[' :: ·) (prettyItems_eq level (item :: items) (List.cons_ne_nil _ _))
  | object members =>
    cases members with
    | nil => rfl
    | cons member members =>
      exact congrArg ('\x7b' :: ·)
        (prettyMembers_eq level (member :: members) (List.cons_ne_nil _ _))

/-- The items, of which there is at least one. -/
theorem prettyItems_eq (level : Nat) (items : List Json) (h : items ≠ []) :
    prettyItems level items = Layout.lines.items level items := by
  cases items with
  | nil => exact absurd rfl h
  | cons item items =>
    have hitem := prettyChars_eq (level + 1) item
    by_cases hlast : items = []
    · subst hlast
      rw [prettyItems, Layout.items, hitem, List.append_assoc, List.append_assoc]
      rfl
    · rw [prettyItems, Layout.items_cons _ _ _ hlast, hitem, prettyItems_eq level items hlast,
        List.append_assoc]
      · rfl
      · exact hlast

/-- The members, of which there is at least one. -/
theorem prettyMembers_eq (level : Nat) (members : List (String × Json)) (h : members ≠ []) :
    prettyMembers level members = Layout.lines.members level members := by
  cases members with
  | nil => exact absurd rfl h
  | cons member members =>
    obtain ⟨name, value⟩ := member
    have hvalue := prettyChars_eq (level + 1) value
    by_cases hlast : members = []
    · subst hlast
      rw [prettyMembers, Layout.members, hvalue]
      simp [Layout.lines]
    · rw [prettyMembers, Layout.members_cons _ _ _ _ hlast, hvalue,
        prettyMembers_eq level members hlast]
      · simp [Layout.lines]
      · exact hlast

end

mutual

/-- The form without white space is that without white space at any level. -/
theorem compactChars_eq (level : Nat) (j : Json) : compactChars j = Layout.dense.chars level j := by
  cases j with
  | null => rfl
  | bool b => rfl
  | number n => rfl
  | string s => rfl
  | array items => exact congrArg ('[' :: ·) (compactItems_eq level items)
  | object members => exact congrArg ('\x7b' :: ·) (compactMembers_eq level members)

/-- The items. -/
theorem compactItems_eq (level : Nat) (items : List Json) :
    compactItems items = Layout.dense.items level items := by
  cases items with
  | nil => rfl
  | cons item items =>
    have hitem := compactChars_eq (level + 1) item
    by_cases hlast : items = []
    · subst hlast
      rw [compactItems, Layout.items, hitem]
      rfl
    · rw [compactItems, Layout.items_cons _ _ _ hlast, hitem, compactItems_eq level items]
      · rfl
      · exact hlast

/-- The members. -/
theorem compactMembers_eq (level : Nat) (members : List (String × Json)) :
    compactMembers members = Layout.dense.members level members := by
  cases members with
  | nil => rfl
  | cons member members =>
    obtain ⟨name, value⟩ := member
    have hvalue := compactChars_eq (level + 1) value
    by_cases hlast : members = []
    · subst hlast
      rw [compactMembers, Layout.members, hvalue]
      rfl
    · rw [compactMembers, Layout.members_cons _ _ _ _ hlast, hvalue,
        compactMembers_eq level members]
      · rfl
      · exact hlast

end

end PromptPipeline.Json
