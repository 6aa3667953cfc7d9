import Mathlib.Data.List.Basic
import PromptPipeline.Dialect.Outline
import PromptPipeline.Proofs.Result

/-!
# The blocks of an outline

An outline groups the blocks below the title by the headings of the second level and leaves their
order as it is: every content of the header or of a section stands for one block (`Outline.Groups`).
Grouping fails only at a second title.

Main statements: `Outline.group_cases`, `Outline.ofBlocks_eq_ok_iff`.
-/

namespace PromptPipeline

/-- The line on which the content starts. -/
def Content.line : Content → Nat
  | .item _ line | .code _ _ line | .arrow _ line | .paragraph _ line => line

/-- The block is a heading of the first level. -/
def Block.IsTitle (b : Block) : Prop :=
  ∃ text line, b = .heading 1 text line

/-- What a block is below a heading of the first or second level. -/
inductive Block.StandsFor : Block → Content → Prop
  | item {text : String} {line : Nat} : StandsFor (.item text line) (.item text line)
  | code {language : Option String} {content : String} {line : Nat} :
    StandsFor (.code language content line) (.code language content line)
  | arrow {text : String} {line : Nat} : StandsFor (.arrow text line) (.arrow text line)
  | paragraph {text : String} {line : Nat} : StandsFor (.paragraph text line) (.paragraph text line)
  /-- Deeper headings are paragraphs. -/
  | heading {level : Nat} {text : String} {line : Nat} (h₁ : level ≠ 1) (h₂ : level ≠ 2) :
    StandsFor (.heading level text line) (.paragraph text line)

theorem Block.StandsFor.line_eq {b : Block} {c : Content} (h : b.StandsFor c) : b.line = c.line := by
  cases h <;> rfl

theorem Block.isTitle_or_section_or_standsFor (b : Block) :
    b.IsTitle ∨ (∃ title line, b = .heading 2 title line) ∨ ∃ c, b.StandsFor c := by
  cases b with
  | heading level text line =>
    by_cases h₁ : level = 1
    · exact .inl ⟨text, line, by rw [h₁]⟩
    · by_cases h₂ : level = 2
      · exact .inr (.inl ⟨text, line, by rw [h₂]⟩)
      · exact .inr (.inr ⟨_, .heading h₁ h₂⟩)
  | item text line => exact .inr (.inr ⟨_, .item⟩)
  | code language content line => exact .inr (.inr ⟨_, .code⟩)
  | arrow text line => exact .inr (.inr ⟨_, .arrow⟩)
  | paragraph text line => exact .inr (.inr ⟨_, .paragraph⟩)

namespace Outline

/-- The blocks below the title are contents before the first section, and sections. -/
inductive Groups : List Block → List Content → List Section → Prop
  | nil : Groups [] [] []
  | content {b : Block} {c : Content} {blocks : List Block} {contents : List Content}
    {sections : List Section} (hb : b.StandsFor c) (hrest : Groups blocks contents sections) :
    Groups (b :: blocks) (c :: contents) sections
  | heading {title : String} {line : Nat} {blocks : List Block} {contents : List Content}
    {sections : List Section} (hrest : Groups blocks contents sections) :
    Groups (.heading 2 title line :: blocks) [] (⟨title, line, contents⟩ :: sections)

variable {blocks : List Block} {contents : List Content} {sections : List Section}

theorem Groups.exists_block (h : Groups blocks contents sections) {c : Content}
    (hc : c ∈ contents) : ∃ b ∈ blocks, b.StandsFor c := by
  induction h with
  | nil | heading => cases hc
  | content hb _ ih =>
    rcases List.mem_cons.mp hc with rfl | hc
    · exact ⟨_, List.mem_cons_self, hb⟩
    · exact List.exists_mem_cons_of_exists (ih hc)

/-- A section has a heading, and its contents are blocks. -/
theorem Groups.exists_block_of_section (h : Groups blocks contents sections) {s : Section}
    (hs : s ∈ sections) : .heading 2 s.title s.line ∈ blocks ∧
      ∀ c ∈ s.contents, ∃ b ∈ blocks, b.StandsFor c := by
  induction h with
  | nil => cases hs
  | content _ _ ih =>
    obtain ⟨hheading, hcontents⟩ := ih hs
    exact ⟨List.mem_cons_of_mem _ hheading,
      fun c hc => List.exists_mem_cons_of_exists (hcontents c hc)⟩
  | heading hrest ih =>
    rcases List.mem_cons.mp hs with rfl | hs
    · exact ⟨List.mem_cons_self,
        fun c hc => List.exists_mem_cons_of_exists (hrest.exists_block hc)⟩
    · obtain ⟨hheading, hcontents⟩ := ih hs
      exact ⟨List.mem_cons_of_mem _ hheading,
        fun c hc => List.exists_mem_cons_of_exists (hcontents c hc)⟩

theorem group_of_standsFor {b : Block} {c : Content} (h : b.StandsFor c) (rest : List Block) :
    group (b :: rest) =
      (group rest >>= fun grouped => .ok (c :: grouped.1, grouped.2)) := by
  cases h with
  | heading h₁ h₂ =>
    rw [group]
    · exact h₁
    · exact h₂
  | item | code | arrow | paragraph => rfl

/-- A block that is no title goes before the contents of the rest, or opens a section with them. -/
theorem exists_group_cons {b : Block} (h : ¬b.IsTitle) (rest : List Block) :
    ∃ f : List Content × List Section → List Content × List Section,
      group (b :: rest) = (group rest >>= fun grouped => .ok (f grouped)) ∧
        ∀ contents sections, Groups rest contents sections →
          Groups (b :: rest) (f (contents, sections)).1 (f (contents, sections)).2 := by
  rcases b.isTitle_or_section_or_standsFor with htitle | ⟨title, line, rfl⟩ | ⟨c, hc⟩
  · exact absurd htitle h
  · exact ⟨fun grouped => ([], ⟨title, line, grouped.1⟩ :: grouped.2), rfl, fun _ _ => .heading⟩
  · exact ⟨fun grouped => (c :: grouped.1, grouped.2), group_of_standsFor hc rest,
      fun _ _ => .content hc⟩

/-- Blocks are grouped up to the first title among them, at which grouping fails. -/
theorem group_cases (blocks : List Block) :
    (∃ contents sections, group blocks = .ok (contents, sections) ∧
      Groups blocks contents sections) ∨
    ∃ before second after, blocks = before ++ second :: after ∧ (∀ b ∈ before, ¬b.IsTitle) ∧
      second.IsTitle ∧ group blocks = .error (.dialect second.line .secondTitle) := by
  induction blocks with
  | nil => exact .inl ⟨[], [], rfl, .nil⟩
  | cons b rest ih =>
    by_cases htitle : b.IsTitle
    · obtain ⟨text, line, rfl⟩ := htitle
      exact .inr ⟨[], _, rest, rfl, List.forall_mem_nil _, ⟨text, line, rfl⟩, rfl⟩
    · obtain ⟨f, hgroup, hgroups⟩ := exists_group_cons htitle rest
      rw [hgroup]
      rcases ih with ⟨contents, sections, hrest, h⟩ |
        ⟨before, second, after, rfl, hbefore, hsecond, hrest⟩
      · rw [hrest]
        exact .inl ⟨_, _, rfl, hgroups contents sections h⟩
      · rw [hrest]
        have hnone : ∀ b' ∈ b :: before, ¬b'.IsTitle := List.forall_mem_cons.mpr ⟨htitle, hbefore⟩
        exact .inr ⟨b :: before, second, after, rfl, hnone, hsecond, rfl⟩

theorem group_of_groups (h : Groups blocks contents sections) :
    group blocks = .ok (contents, sections) := by
  induction h with
  | nil => rfl
  | content hb _ ih =>
    rw [group_of_standsFor hb, ih]
    rfl
  | heading _ ih =>
    rw [group, ih]
    rfl

theorem group_eq_ok_iff :
    group blocks = .ok (contents, sections) ↔ Groups blocks contents sections := by
  refine ⟨fun h => ?_, group_of_groups⟩
  rcases group_cases blocks with ⟨contents', sections', hgroup, hgroups⟩ | ⟨_, _, _, _, _, _, herror⟩
  · cases h.symm.trans hgroup
    exact hgroups
  · cases h.symm.trans herror

/-- Blocks with an outline are a title, the contents of the header, and sections. -/
theorem ofBlocks_eq_ok_iff {o : Outline} : ofBlocks blocks = .ok o ↔
    ∃ line below, blocks = .heading 1 o.title line :: below ∧ Groups below o.preamble o.sections := by
  constructor
  · intro h
    unfold ofBlocks at h
    split at h
    next title line below =>
      obtain ⟨⟨contents, sections⟩, hgroup, heq⟩ := bind_eq_ok_iff.mp h
      cases heq
      exact ⟨line, below, rfl, group_eq_ok_iff.mp hgroup⟩
    next => cases h
    next => cases h
  · rintro ⟨line, below, rfl, hgroups⟩
    exact bind_eq_ok_iff.mpr ⟨_, group_of_groups hgroups, rfl⟩

end Outline

end PromptPipeline
