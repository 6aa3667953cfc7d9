import Mathlib.Data.List.Induction
import Mathlib.Data.List.Nodup
import PromptPipeline.Proofs.Dialect.Location

/-!
# The commands of a source

Every list item of a source that compiles is a command. The commands of its blocks are those of
their outline, header first and then section by section (`Outline.Groups.commands_eq`), and each
block adds its own command to those of the blocks before it (`Content.commands_concat`). What a
header or a section comes to is said in terms of this list.
-/

namespace PromptPipeline

/-! ## What a command gives -/

namespace Command

/-- The declaration that the command makes. -/
def declaration? : Command → Option Declaration
  | .parameter d => some d
  | _ => none

/-- The function that the command applies to answers. -/
def function? : Command → Option String
  | .postprocess function => some function
  | _ => none

/-- The expectation that the command sets. -/
def expectation? : Command → Option Expectation
  | .expect expectation => some expectation
  | _ => none

/-- The parameter that the command lets stand in for an answer. -/
def joker? : Command → Option String
  | .joker name => some name
  | _ => none

end Command

/-! ## Lists -/

theorem filterMap_cons_eq_append {α β : Type} (f : α → Option β) (a : α) (l : List α) :
    (a :: l).filterMap f = (f a).toList ++ l.filterMap f := by
  cases h : f a with
  | none => rw [List.filterMap_cons_none h, Option.toList_none, List.nil_append]
  | some b => rw [List.filterMap_cons_some h, Option.toList_some, List.singleton_append]

/-- Of an element that comes again only the first occurrence counts. -/
theorem eraseDups_concat {α : Type} [DecidableEq α] (l : List α) (a : α) :
    (l ++ [a]).eraseDups = if a ∈ l then l.eraseDups else l.eraseDups ++ [a] := by
  rw [List.eraseDups_append, List.cons_removeAll]
  by_cases ha : a ∈ l <;> simp [ha, List.removeAll, List.eraseDups_cons]

theorem nodup_eraseDups {α : Type} [DecidableEq α] (l : List α) : l.eraseDups.Nodup := by
  induction l using List.reverseRecOn with
  | nil => exact List.nodup_nil
  | append_singleton l a ih =>
    rw [eraseDups_concat]
    split
    next => exact ih
    next ha =>
      rw [List.nodup_append_comm]
      exact List.nodup_cons.mpr ⟨fun hmem => ha (List.mem_eraseDups.mp hmem), ih⟩

/-! ## Contents -/

namespace Content

/-- The command of a list item. -/
def command? : Content → Option Command
  | .item text _ => (Command.ofItem text).toOption
  | _ => none

/-- The commands among the contents, in order. -/
def commands (contents : List Content) : List Command :=
  contents.filterMap command?

theorem commands_cons (c : Content) (contents : List Content) :
    commands (c :: contents) = c.command?.toList ++ commands contents :=
  filterMap_cons_eq_append command? c contents

theorem commands_append (before after : List Content) :
    commands (before ++ after) = commands before ++ commands after :=
  List.filterMap_append

/-- A content adds its command. -/
theorem commands_concat (before : List Content) (c : Content) :
    commands (before ++ [c]) = commands before ++ c.command?.toList := by
  have hnil : commands [] = [] := rfl
  rw [commands_append, commands_cons, hnil, List.append_nil]

theorem command?_item {text : String} {command : Command} (h : Command.ofItem text = .ok command)
    (line : Nat) : (Content.item text line).command? = some command := by
  show (Command.ofItem text).toOption = some command
  rw [h]
  rfl

end Content

/-- The commands of a section. -/
def Section.commands (s : Section) : List Command :=
  Content.commands s.contents

/-! ## Blocks -/

namespace Block

/-- The command of a list item. -/
def command? : Block → Option Command
  | .item text _ => (Command.ofItem text).toOption
  | _ => none

/-- The commands among the blocks, in order. -/
def commands (blocks : List Block) : List Command :=
  blocks.filterMap command?

theorem commands_cons (b : Block) (blocks : List Block) :
    commands (b :: blocks) = b.command?.toList ++ commands blocks :=
  filterMap_cons_eq_append command? b blocks

theorem StandsFor.command?_eq {b : Block} {c : Content} (h : b.StandsFor c) :
    b.command? = c.command? := by
  cases h <;> rfl

end Block

/-- Grouping blocks leaves their commands in order. -/
theorem Outline.Groups.commands_eq {blocks : List Block} {contents : List Content}
    {sections : List Section} (h : Groups blocks contents sections) :
    Block.commands blocks = Content.commands contents ++ sections.flatMap Section.commands := by
  induction h with
  | nil => rfl
  | content hb _ ih =>
    rw [Block.commands_cons, Content.commands_cons, hb.command?_eq, ih, List.append_assoc]
  | heading _ ih =>
    rw [Block.commands_cons, ih, List.flatMap_cons]
    rfl

/-- Blocks with an outline are a title, the contents of the header, and sections. -/
theorem Outline.outlined_of_ofBlocks {blocks : List Block} {o : Outline}
    (h : ofBlocks blocks = .ok o) : Outlined blocks o.preamble o.sections := by
  obtain ⟨line, below, rfl, hgroups⟩ := ofBlocks_eq_ok_iff.mp h
  exact ⟨_, below, rfl, ⟨o.title, line, rfl⟩, hgroups⟩

end PromptPipeline
