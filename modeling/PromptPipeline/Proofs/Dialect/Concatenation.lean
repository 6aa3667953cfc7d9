import PromptPipeline.Proofs.Dialect.Commands
import PromptPipeline.Proofs.Dialect.Coverage

/-!
# Texts put together

A text that ends with a line feed can be followed by another one: the lines of both together are the
lines of the one and those of the other (`lines_append`). If no fence of the first text is left open
and the second one does not start with prose, then neither text has a say in the blocks of the other
one, but that the lines of the second text have other numbers (`Block.ofSource_append`). So sections
written behind a text are sections behind those of the text (`Outline.ofBlocks_append`).

Main statement: `Outline.ofSource_sections`.
-/

namespace PromptPipeline

open LineKind (ofRawLine)

/-! ## Lines -/

namespace Text

/-- Pieces before others all are lines. -/
theorem closeLines_append (pieces : List (List Char)) {more : List (List Char)} (h : more ≠ []) :
    closeLines (pieces ++ more) = pieces.map dropCarriageReturn ++ closeLines more := by
  obtain ⟨next, others, rfl⟩ := List.exists_cons_of_ne_nil h
  induction pieces with
  | nil => rfl
  | cons piece rest ih =>
    rw [List.map_cons, List.cons_append, List.cons_append, ← ih]
    cases rest <;> rfl

/-- A text that ends with a line feed ends with a line. -/
theorem lines_append {s : List Char} (h : s.getLast? = some '\n') (t : List Char) :
    lines (s ++ t) = lines s ++ lines t := by
  obtain ⟨s, rfl⟩ := List.getLast?_eq_some_iff.mp h
  have hline (t : List Char) : lines (s ++ '\n' :: t) =
      (splitWhere (· == '\n') s).map dropCarriageReturn ++ lines t := by
    unfold lines
    rw [splitWhere_append rfl, closeLines_append _ (splitWhere_ne_nil _ _)]
  rw [List.append_assoc, List.singleton_append, hline, hline]
  exact congrArg (· ++ lines t) (List.append_nil _).symm

end Text

/-! ## Numbers of lines -/

/-- The block with another number for its line. -/
def Block.renumber (f : Nat → Nat) : Block → Block
  | .heading level text line => .heading level text (f line)
  | .item text line => .item text (f line)
  | .code language content line => .code language content (f line)
  | .arrow text line => .arrow text (f line)
  | .paragraph text line => .paragraph text (f line)

/-- The content with another number for its line. -/
def Content.renumber (f : Nat → Nat) : Content → Content
  | .item text line => .item text (f line)
  | .code language content line => .code language content (f line)
  | .arrow text line => .arrow text (f line)
  | .paragraph text line => .paragraph text (f line)

/-- The section with other numbers for its lines. -/
def Section.renumber (f : Nat → Nat) (s : Section) : Section :=
  { s with line := f s.line, contents := s.contents.map (.renumber f) }

theorem Content.renumber_renumber (f g : Nat → Nat) (c : Content) :
    (c.renumber f).renumber g = c.renumber (g ∘ f) := by
  cases c <;> rfl

theorem Section.renumber_renumber (f g : Nat → Nat) (s : Section) :
    (s.renumber f).renumber g = s.renumber (g ∘ f) := by
  unfold renumber
  simp only [List.map_map]
  congr 2
  exact funext (Content.renumber_renumber f g)

namespace BlockState

variable {n k : Nat} {line : List Char} {before rest : List (List Char)} {state : BlockState}
  {blocks : List Block}

/-- The reader at a place `k` lines further on; between blocks it remembers no line. -/
def shift (k : Nat) : BlockState → BlockState
  | .prose lines start => .prose lines (if lines = [] then start else start + k)
  | .fenced mark language code start => .fenced mark language code (start + k)

theorem step_shift (n k : Nat) (line : List Char) (state : BlockState) :
    step (n + k) line (state.shift k) =
      ((step n line state).1.map (.renumber (· + k)), (step n line state).2.shift k) := by
  cases state with
  | prose lines start =>
    have hdone : closeParagraph lines (if lines = [] then start else start + k) =
        (closeParagraph lines start).map (.renumber (· + k)) := by
      unfold closeParagraph
      split <;> rfl
    simp only [shift, step, hdone]
    cases LineKind.ofLine (Text.trim line) with
    | blank | fence mark info => simp
    | heading level title | arrow | item text => simp [Block.renumber]
    | prose => by_cases hlines : lines = [] <;> simp [hlines]
  | fenced mark language code start =>
    simp only [shift, step]
    split
    next => simp [Block.renumber]
    next => simp

/-- Lines further on are read into the same blocks, but for the numbers of their lines. -/
theorem blocks_shift (k : Nat) (h : BlockState.blocks n before state = .ok blocks) :
    BlockState.blocks (n + k) before (state.shift k) = .ok (blocks.map (.renumber (· + k))) := by
  induction before generalizing n state blocks with
  | nil =>
    cases state with
    | prose lines start =>
      cases h
      refine congrArg Except.ok ?_
      unfold closeParagraph
      split <;> rfl
    | fenced mark language code start => cases h
  | cons line rest ih =>
    rw [blocks_cons] at h
    obtain ⟨blocks, hrest, rfl⟩ := map_eq_ok_iff.mp h
    have hnumber : n + k + 1 = n + 1 + k := by omega
    rw [blocks_cons, step_shift, hnumber, ih hrest, List.map_append]
    rfl

/-- The lines before one that is not prose have blocks of their own. -/
theorem blocks_append (h : BlockState.blocks n before state = .ok blocks)
    (hline : ofRawLine line ≠ .prose) : BlockState.blocks n (before ++ line :: rest) state =
      (BlockState.blocks (n + before.length) (line :: rest) (.prose [] 0)).map (blocks ++ ·) := by
  induction before generalizing n state blocks with
  | nil =>
    cases state with
    | prose paragraph start =>
      cases h
      exact blocks_prose_of_ne hline
    | fenced mark language code start => cases h
  | cons first others ih =>
    rw [blocks_cons] at h
    obtain ⟨blocks, hothers, rfl⟩ := map_eq_ok_iff.mp h
    have hnumber : n + (first :: others).length = n + 1 + others.length := by
      rw [List.length_cons]
      omega
    rw [List.cons_append, blocks_cons, ih hothers, hnumber]
    cases BlockState.blocks (n + 1 + others.length) (line :: rest) (.prose [] 0) with
    | error e => rfl
    | ok more => exact congrArg Except.ok (List.append_assoc _ _ _).symm

end BlockState

/-- The blocks of two texts, one behind the other. -/
theorem Block.ofSource_append {first second : String} {blocks more : List Block}
    (hend : first.toList.getLast? = some '\n') (hblocks : ofSource first = .ok blocks)
    (hstart : ∃ line rest, Text.lines second.toList = line :: rest ∧ ofRawLine line ≠ .prose)
    (hmore : ofSource second = .ok more) :
    ofSource (first ++ second) =
      .ok (blocks ++ more.map (.renumber (· + (Text.lines first.toList).length))) := by
  obtain ⟨line, rest, hlines, hline⟩ := hstart
  unfold ofSource at hmore ⊢
  rw [hlines] at hmore
  have hshifted := BlockState.blocks_shift (Text.lines first.toList).length hmore
  rw [String.toList_append, Text.lines_append hend, hlines, BlockState.blocks_append hblocks hline]
  exact map_eq_ok_iff.mpr ⟨_, hshifted, rfl⟩

/-! ## Outlines -/

namespace Outline

variable {blocks more : List Block} {contents : List Content} {sections added : List Section}

theorem Groups.renumber (h : Groups blocks contents sections) (f : Nat → Nat) :
    Groups (blocks.map (.renumber f)) (contents.map (.renumber f)) (sections.map (.renumber f)) := by
  induction h with
  | nil => exact .nil
  | content hb _ ih =>
    refine .content ?_ ih
    cases hb with
    | item => exact .item
    | code => exact .code
    | arrow => exact .arrow
    | paragraph => exact .paragraph
    | heading h₁ h₂ => exact .heading h₁ h₂
  | heading _ ih => exact .heading ih

/-- Sections behind others. -/
theorem Groups.append (h : Groups blocks contents sections) (hmore : Groups more [] added) :
    Groups (blocks ++ more) contents (sections ++ added) := by
  induction h with
  | nil => exact hmore
  | content hb _ ih => exact .content hb ih
  | heading _ ih => exact .heading ih

/-- The first ones of blocks that are grouped are grouped by themselves. -/
theorem Groups.of_append (h : Groups (blocks ++ more) contents sections) :
    ∃ contents' sections', Groups blocks contents' sections' := by
  induction blocks generalizing contents sections with
  | nil => exact ⟨[], [], .nil⟩
  | cons b rest ih =>
    cases h with
    | content hb hrest =>
      obtain ⟨contents', sections', h⟩ := ih hrest
      exact ⟨_, sections', .content hb h⟩
    | heading hrest =>
      obtain ⟨contents', sections', h⟩ := ih hrest
      exact ⟨[], _, .heading h⟩

/-- Blocks without headings of the first two levels make no section. -/
theorem exists_groups_of_contents
    (h : ∀ level text line, .heading level text line ∈ blocks → level ≠ 1 ∧ level ≠ 2) :
    ∃ contents, Groups blocks contents [] := by
  induction blocks with
  | nil => exact ⟨[], .nil⟩
  | cons b rest ih =>
    obtain ⟨contents, hrest⟩ :=
      ih fun level text line hmem => h level text line (List.mem_cons_of_mem _ hmem)
    rcases b.isTitle_or_section_or_standsFor with ⟨text, line, rfl⟩ | ⟨text, line, rfl⟩ | ⟨c, hc⟩
    · exact absurd rfl (h 1 text line List.mem_cons_self).1
    · exact absurd rfl (h 2 text line List.mem_cons_self).2
    · exact ⟨c :: contents, .content hc hrest⟩

/-- Blocks that are sections go behind the sections of an outline, and make no outline alone. -/
theorem ofBlocks_append (hmore : Groups more [] added) {o : Outline} :
    ofBlocks (blocks ++ more) = .ok o ↔
      ∃ o', ofBlocks blocks = .ok o' ∧ o = { o' with sections := o'.sections ++ added } := by
  constructor
  · intro h
    obtain ⟨line, below, hblocks, hgroups⟩ := ofBlocks_eq_ok_iff.mp h
    cases blocks with
    | nil =>
      rw [List.nil_append] at hblocks
      rw [hblocks] at hmore
      cases hmore
    | cons b rest =>
      obtain ⟨rfl, rfl⟩ := List.cons.inj hblocks
      obtain ⟨contents, sections, hrest⟩ := hgroups.of_append
      have hboth := (group_of_groups hgroups).symm.trans (group_of_groups (hrest.append hmore))
      obtain ⟨hpreamble, hsections⟩ := Prod.mk.inj (Except.ok.inj hboth)
      refine ⟨⟨o.title, contents, sections⟩, ofBlocks_eq_ok_iff.mpr ⟨line, rest, rfl, hrest⟩, ?_⟩
      rw [← hpreamble, ← hsections]
  · rintro ⟨o', h, rfl⟩
    obtain ⟨line, below, rfl, hgroups⟩ := ofBlocks_eq_ok_iff.mp h
    exact ofBlocks_eq_ok_iff.mpr ⟨line, below ++ more, rfl, hgroups.append hmore⟩

end Outline

/-! ## Sections -/

/-- The text of one section: it can be read, ends with a line feed, and has one heading of the first
two levels outside fences, which is of the second level and stands on its first line. -/
structure IsSectionText (text : String) : Prop where
  read : ∃ blocks, Block.ofSource text = .ok blocks
  ended : text.toList.getLast? = some '\n'
  heading : ∃ line title, OutsideAt (Text.lines text.toList) 1 line ∧
    ofRawLine line = .heading 2 title
  only : ∀ number line level title, OutsideAt (Text.lines text.toList) number line →
    ofRawLine line = .heading level title → level = 1 ∨ level = 2 → number = 1

namespace IsSectionText

variable {text : String}

theorem exists_first (h : IsSectionText text) : ∃ line rest title,
    Text.lines text.toList = line :: rest ∧ ofRawLine line = .heading 2 title := by
  obtain ⟨line, title, ⟨before, rest, hlines, hnumber, -⟩, hkind⟩ := h.heading
  obtain rfl : before = [] := List.eq_nil_of_length_eq_zero (by omega)
  exact ⟨line, rest, title, hlines, hkind⟩

/-- Its first block is the heading, and the others are contents. -/
theorem exists_blocks (h : IsSectionText text) : ∃ title below,
    Block.ofSource text = .ok (.heading 2 title 1 :: below) ∧
      ∀ level text line, .heading level text line ∈ below → level ≠ 1 ∧ level ≠ 2 := by
  obtain ⟨blocks, hblocks⟩ := h.read
  obtain ⟨line, rest, title, hlines, hkind⟩ := h.exists_first
  have hfirst : Block.ofLine? 1 line = some (.heading 2 (.ofList title) 1) := by
    unfold Block.ofLine?
    rw [hkind]
  obtain ⟨below, hcons⟩ : ∃ below, blocks = .heading 2 (.ofList title) 1 :: below := by
    unfold Block.ofSource at hblocks
    rw [hlines, BlockState.blocks_cons, BlockState.step_ofLine? hfirst] at hblocks
    obtain ⟨below, -, heq⟩ := map_eq_ok_iff.mp hblocks
    exact ⟨below, heq.symm⟩
  refine ⟨.ofList title, below, by rw [hblocks, hcons], ?_⟩
  obtain ⟨-, spans, hspans, hlossless⟩ := Block.lossless_of_ofSource hblocks
  have hordered : (spans.map (·.block)).Pairwise fun b next => b.line < next.line :=
    List.pairwise_map.mpr hlossless.increasing
  rw [← hspans, hcons] at hordered
  intro level text number hmem
  have hlater : 1 < number := (List.pairwise_cons.mp hordered).1 _ hmem
  have hspan : .heading level text number ∈ spans.map (·.block) := by
    rw [← hspans, hcons]
    exact List.mem_cons_of_mem _ hmem
  obtain ⟨line', hat, hline'⟩ := hlossless.exists_outsideAt hspan (by simp) (by simp)
  obtain ⟨title', hkind', -⟩ := Block.of_ofLine?_eq_heading hline'
  -- a heading of the first two levels is the one on the first line, which stands above
  have hnot : ¬(level = 1 ∨ level = 2) := fun hlevel =>
    absurd (h.only number line' level title' hat hkind' hlevel) (Nat.ne_of_gt hlater)
  exact not_or.mp hnot

/-- A text with such blocks is the text of a section. -/
theorem of_blocks {title : String} {below : List Block}
    (hblocks : Block.ofSource text = .ok (.heading 2 title 1 :: below))
    (hend : text.toList.getLast? = some '\n')
    (hbelow : ∀ level text line, .heading level text line ∈ below → level ≠ 1 ∧ level ≠ 2) :
    IsSectionText text := by
  obtain ⟨-, spans, hspans, hlossless⟩ := Block.lossless_of_ofSource hblocks
  refine ⟨⟨_, hblocks⟩, hend, ?_, ?_⟩
  · have hfirst : .heading 2 title 1 ∈ spans.map (·.block) := by
      rw [← hspans]
      exact List.mem_cons_self
    obtain ⟨line, hat, hline⟩ := hlossless.exists_outsideAt hfirst (by simp) (by simp)
    obtain ⟨title', hkind, -⟩ := Block.of_ofLine?_eq_heading hline
    exact ⟨line, title', hat, hkind⟩
  · intro number line level title' hat hkind hlevel
    have hline : Block.ofLine? number line = some (.heading level (.ofList title') number) := by
      unfold Block.ofLine?
      rw [hkind]
    have hmem := hlossless.mem_of_outsideAt hat hline
    rw [← hspans] at hmem
    rcases List.mem_cons.mp hmem with heq | hmem
    · cases heq
      rfl
    · exact absurd hlevel (not_or.mpr (hbelow _ _ _ hmem))

end IsSectionText

/-- The text says the section and nothing else: it is of lines of its own, starts without prose, and
its blocks are grouped into the section. -/
structure Section.IsWrittenIn (s : Section) (text : String) : Prop where
  start : ∃ line rest, Text.lines text.toList = line :: rest ∧ ofRawLine line ≠ .prose
  ended : text.toList.getLast? = some '\n'
  grouped : ∃ blocks, Block.ofSource text = .ok blocks ∧ Outline.Groups blocks [] [s]

theorem IsSectionText.exists_section {text : String} (h : IsSectionText text) :
    ∃ s : Section, s.IsWrittenIn text := by
  obtain ⟨line, rest, _, hlines, hkind⟩ := h.exists_first
  obtain ⟨title, below, hblocks, hbelow⟩ := h.exists_blocks
  obtain ⟨contents, hcontents⟩ := Outline.exists_groups_of_contents hbelow
  exact ⟨_, ⟨line, rest, hlines, by simp [hkind]⟩, h.ended, _, hblocks, .heading hcontents⟩

/-- Two sections written behind a text are two sections behind those of the text, if it has an
outline; and they do not give it one. -/
theorem Outline.ofSource_sections {text first second : String} {blocks : List Block}
    {s₁ s₂ : Section} {o : Outline} (hend : text.toList.getLast? = some '\n')
    (hblocks : Block.ofSource text = .ok blocks) (h₁ : s₁.IsWrittenIn first)
    (h₂ : s₂.IsWrittenIn second) :
    ofSource (text ++ first ++ second) = .ok o ↔ ∃ o', ofBlocks blocks = .ok o' ∧
      o = { o' with sections := o'.sections ++
        [s₁.renumber (· + (Text.lines text.toList).length),
          s₂.renumber (· + ((Text.lines text.toList).length + (Text.lines first.toList).length))] } := by
  obtain ⟨firstBlocks, hfirst, hs₁⟩ := h₁.grouped
  obtain ⟨secondBlocks, hsecond, hs₂⟩ := h₂.grouped
  have hend' : (text ++ first).toList.getLast? = some '\n' := by
    rw [String.toList_append, List.getLast?_append, h₁.ended]
    rfl
  have hboth := Block.ofSource_append hend' (Block.ofSource_append hend hblocks h₁.start hfirst)
    h₂.start hsecond
  rw [String.toList_append, Text.lines_append hend, List.length_append, List.append_assoc] at hboth
  have hadded := (hs₁.renumber (· + (Text.lines text.toList).length)).append (hs₂.renumber
    (· + ((Text.lines text.toList).length + (Text.lines first.toList).length)))
  unfold ofSource
  rw [hboth]
  exact ofBlocks_append hadded

end PromptPipeline
