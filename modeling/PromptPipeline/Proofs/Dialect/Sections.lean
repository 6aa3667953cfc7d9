import Mathlib.Data.List.Forall2
import PromptPipeline.Proofs.Dialect.Commands
import PromptPipeline.Proofs.Dialect.Coverage

/-!
# Sections and their tasks

A section makes one task, out of what stands between its heading and the next one. The draft of a
task gathers its parts from the blocks read so far (`Draft.Gathers`): the code block, then the arrow
(`Draft.Parts`), and the lists of the commands in the order of the blocks. Each block keeps this
(`Draft.Gathers.read`), so the task mirrors its section (`Task.Mirrors`). And the sections are the
stretches of the source between the lines outside fences that are headings of the second level
(`Divides`).

Main statement: `Pipeline.tasks_mirror_sections`.
-/

namespace PromptPipeline

open LineKind (ofRawLine)

/-! ## Drafts -/

/-- The content is neither code nor an arrow. -/
def Content.IsPlain (c : Content) : Prop :=
  ¬c.IsCode ∧ ¬c.IsArrow

theorem Content.isPlain_item (text : String) (line : Nat) : (item text line).IsPlain := by
  simp [IsPlain, IsCode, IsArrow]

theorem Content.isPlain_paragraph (text : String) (line : Nat) :
    (paragraph text line).IsPlain := by
  simp [IsPlain, IsCode, IsArrow]

namespace Draft

/-- The code and the result of a draft, and the contents that it read: plain ones up to a code
block, plain ones up to an arrow, and plain ones after it. -/
inductive Parts : List Content → Option CodeBlock → Option String → Prop
  | nothing {contents : List Content} (h : ∀ c ∈ contents, c.IsPlain) : Parts contents none none
  | code {before after : List Content} {code : CodeBlock} (hbefore : ∀ c ∈ before, c.IsPlain)
    (hafter : ∀ c ∈ after, c.IsPlain) :
    Parts (before ++ .code code.language code.content code.line :: after) (some code) none
  | arrow {before between after : List Content} {code : CodeBlock} {text : String} {line : Nat}
    {name : List Char} (hbefore : ∀ c ∈ before, c.IsPlain) (hbetween : ∀ c ∈ between, c.IsPlain)
    (hafter : ∀ c ∈ after, c.IsPlain) (hname : arrowName? text.toList = some name) :
    Parts (before ++ .code code.language code.content code.line ::
      (between ++ .arrow text line :: after)) (some code) (some (.ofList name))

/-- What a draft has gathered from the blocks before. -/
structure Gathers (d : Draft) (before : List Content) : Prop where
  parts : Parts before d.code d.result
  parsed : ∀ text line, .item text line ∈ before → ∃ command, Command.ofItem text = .ok command
  postprocessing : d.postprocessing = (Content.commands before).filterMap Command.function?
  expectations : d.expectations = (Content.commands before).filterMap Command.expectation?
  jokers : d.jokers = ((Content.commands before).filterMap Command.joker?).eraseDups

variable {d d' : Draft} {task : String} {before : List Content} {c : Content}

theorem Parts.concat {code : Option CodeBlock} {result : Option String}
    (h : Parts before code result) (hc : c.IsPlain) : Parts (before ++ [c]) code result := by
  have hadded {after : List Content} (hafter : ∀ c ∈ after, c.IsPlain) :
      ∀ c' ∈ after ++ [c], c'.IsPlain :=
    List.forall_mem_append.mpr ⟨hafter, List.forall_mem_singleton.mpr hc⟩
  cases h with
  | nothing h => exact .nothing (hadded h)
  | code hbefore hafter =>
    rw [List.append_assoc, List.cons_append]
    exact .code hbefore (hadded hafter)
  | arrow hbefore hbetween hafter hname =>
    rw [List.append_assoc, List.cons_append, List.append_assoc, List.cons_append]
    exact .arrow hbefore hbetween (hadded hafter) hname

/-- What a list item adds to the lists of a draft. -/
theorem Reads.of_item {text : String} {line : Nat} (h : d.Reads (.item text line) d') :
    ∃ command, Command.ofItem text = .ok command ∧ d'.code = d.code ∧ d'.result = d.result ∧
      d'.postprocessing = d.postprocessing ++ command.function?.toList ∧
      d'.expectations = d.expectations ++ command.expectation?.toList ∧
      d'.jokers = match command.joker? with
        | some name => if name ∈ d.jokers then d.jokers else d.jokers ++ [name]
        | none => d.jokers := by
  have hnothing {α : Type} (l : List α) : l = l ++ [] := (List.append_nil l).symm
  cases h with
  | execute hitem | model hitem | parameter hitem | joker hitem =>
    exact ⟨_, hitem, rfl, rfl, hnothing _, hnothing _, rfl⟩
  | postprocess hitem => exact ⟨_, hitem, rfl, rfl, rfl, hnothing _, rfl⟩
  | expect hitem => exact ⟨_, hitem, rfl, rfl, hnothing _, rfl, rfl⟩

/-- A list item adds what its command gives. -/
theorem Gathers.item {text : String} {line : Nat} (h : d.Gathers before)
    (hreads : d.Reads (.item text line) d') : d'.Gathers (before ++ [.item text line]) := by
  obtain ⟨command, hitem, hcode, hresult, hpostprocessing, hexpectations, hjokers⟩ :=
    hreads.of_item
  have hcommands : Content.commands (before ++ [.item text line]) =
      Content.commands before ++ [command] := by
    rw [Content.commands_concat, Content.command?_item hitem]
    rfl
  have hadded {α : Type} (f : Command → Option α) :
      (Content.commands (before ++ [.item text line])).filterMap f =
        (Content.commands before).filterMap f ++ (f command).toList := by
    rw [hcommands, List.filterMap_append, filterMap_cons_eq_append, List.filterMap_nil,
      List.append_nil]
  refine ⟨?_, fun text' line' hmem => ?_, ?_, ?_, ?_⟩
  · rw [hcode, hresult]
    exact h.parts.concat (Content.isPlain_item text line)
  · rcases List.mem_append.mp hmem with hmem | hmem
    · exact h.parsed text' line' hmem
    · cases List.mem_singleton.mp hmem
      exact ⟨command, hitem⟩
  · rw [hpostprocessing, hadded, h.postprocessing]
  · rw [hexpectations, hadded, h.expectations]
  · rw [hjokers, hadded, h.jokers]
    cases command.joker? with
    | none => rw [Option.toList_none, List.append_nil]
    | some name => simp only [Option.toList_some, eraseDups_concat, List.mem_eraseDups]

/-- A block that is no list item adds no command. -/
theorem Gathers.concat (h : d.Gathers before) (hc : c.command? = none)
    (hitem : ∀ text line, c ≠ .item text line) (hparts : Parts (before ++ [c]) d'.code d'.result)
    (hsame : d'.postprocessing = d.postprocessing ∧ d'.expectations = d.expectations ∧
      d'.jokers = d.jokers) : d'.Gathers (before ++ [c]) := by
  have hcommands : Content.commands (before ++ [c]) = Content.commands before := by
    rw [Content.commands_concat, hc, Option.toList_none, List.append_nil]
  obtain ⟨hpostprocessing, hexpectations, hjokers⟩ := hsame
  refine ⟨hparts, fun text line hmem => ?_, ?_, ?_, ?_⟩
  · rcases List.mem_append.mp hmem with hmem | hmem
    · exact h.parsed text line hmem
    · exact absurd (List.mem_singleton.mp hmem).symm (hitem text line)
  · rw [hpostprocessing, hcommands, h.postprocessing]
  · rw [hexpectations, hcommands, h.expectations]
  · rw [hjokers, hcommands, h.jokers]

/-- The code block of a section is the first one. -/
theorem Parts.code_concat {contents : List Content} {result : Option String}
    (h : Parts contents none result) (code : CodeBlock) :
    Parts (contents ++ [.code code.language code.content code.line]) (some code) result := by
  cases h with
  | nothing h => exact .code h (List.forall_mem_nil _)

/-- The arrow of a section is the first one, and follows the code block. -/
theorem Parts.arrow_concat {contents : List Content} {code : Option CodeBlock}
    (h : Parts contents code none) (hcode : code.isSome = true) {text : String} {name : List Char}
    (hname : arrowName? text.toList = some name) (line : Nat) :
    Parts (contents ++ [.arrow text line]) code (some (.ofList name)) := by
  cases h with
  | nothing => cases hcode
  | code hbefore hafter =>
    rw [List.append_assoc, List.cons_append]
    exact .arrow hbefore hafter (List.forall_mem_nil _) hname

/-- Each block of a section adds to the draft what it is. -/
theorem Gathers.read (h : d.Gathers before) (hread : Draft.read task d c = .ok d') :
    d'.Gathers (before ++ [c]) := by
  have hparts := h.parts
  have hreads := read_eq_ok_iff.mp hread
  cases c with
  | item text line => exact h.item hreads
  | paragraph text line =>
    cases hreads
    exact h.concat rfl (by simp) (hparts.concat (Content.isPlain_paragraph text line)) ⟨rfl, rfl, rfl⟩
  | code language content line =>
    cases hreads with
    | code hnew =>
      rw [hnew] at hparts
      exact h.concat rfl (by simp) (hparts.code_concat ⟨language, content, line⟩) ⟨rfl, rfl, rfl⟩
  | arrow text line =>
    cases hreads with
    | arrow hnew hcode hname =>
      rw [hnew] at hparts
      exact h.concat rfl (by simp) (hparts.arrow_concat hcode hname line) ⟨rfl, rfl, rfl⟩

theorem gathers_nil (parameters : List Parameter) (model : ModelSetting) :
    ({ parameters, model } : Draft).Gathers [] where
  parts := .nothing (List.forall_mem_nil _)
  parsed _ _ hmem := absurd hmem List.not_mem_nil
  postprocessing := rfl
  expectations := rfl
  jokers := rfl

end Draft

/-! ## Tasks -/

/-- The task is made of the parts of the section: it has its title, and the name that the title
spells; the content is that of its only code block; the result is the name on its only arrow, which
comes after the code; and the functions, expectations and jokers are those of its commands. -/
structure Task.Mirrors (t : Task) (s : Section) : Prop where
  title : t.title = s.title
  name : t.name = Name.ofTitle s.title ∧ t.name ≠ ""
  parts : ∃ before between after language number text line,
    s.contents = before ++ .code language t.content number ::
      (between ++ .arrow text line :: after) ∧
    (∀ c ∈ before ++ (between ++ after), c.IsPlain) ∧ arrowName? text.toList = some t.result.toList
  parsed : ∀ text line, .item text line ∈ s.contents → ∃ command, Command.ofItem text = .ok command
  postprocessing : t.postprocessing = s.commands.filterMap Command.function?
  expectations : t.expectations = s.commands.filterMap Command.expectation?
  jokers : t.jokers = (s.commands.filterMap Command.joker?).eraseDups

theorem Section.mirrors_of_toTask {s : Section} {model : ModelSetting} {ps qs : List Parameter}
    {t : Task} (h : s.toTask model ps = .ok (t, qs)) : t.Mirrors s := by
  obtain ⟨hname, d, hread, htask, -⟩ := toTask_eq_ok_iff.mp h
  have hgathers : d.Gathers s.contents :=
    foldlM_induction_prefix (P := fun before (d : Draft) => d.Gathers before)
      (fun _ _ _ _ => Draft.Gathers.read) [] (Draft.gathers_nil ps model.forSection) hread
  obtain ⟨code, result, dependencies, requirements, hcode, hresult, -, -, rfl⟩ :=
    Draft.toTask_eq_ok_iff.mp htask
  refine ⟨rfl, ⟨rfl, hname⟩, ?_, hgathers.parsed, hgathers.postprocessing, hgathers.expectations,
    hgathers.jokers⟩
  have hparts := hgathers.parts
  rw [hcode, hresult] at hparts
  generalize s.contents = contents at hparts
  cases hparts with
  | @arrow before between after _ text line name hbefore hbetween hafter hname =>
    refine ⟨before, between, after, code.language, code.line, text, line, rfl, ?_, ?_⟩
    · exact List.forall_mem_append.mpr ⟨hbefore, List.forall_mem_append.mpr ⟨hbetween, hafter⟩⟩
    · rw [hname, String.toList_ofList]

theorem mirrors_of_sectionTasks {model : ModelSetting} {ps qs : List Parameter}
    {sections : List Section} {ts : List Task}
    (h : sectionTasks model ps sections = .ok (ts, qs)) :
    List.Forall₂ Task.Mirrors ts sections := by
  induction sections generalizing ps ts with
  | nil =>
    cases h
    exact .nil
  | cons s rest ih =>
    obtain ⟨t, ps', ts', htask, hrest, rfl⟩ := sectionTasks_cons_eq_ok_iff.mp h
    exact .cons (s.mirrors_of_toTask htask) (ih hrest)

/-! ## Sections -/

/-- The sections divide the lines: they start at the lines outside fences that are headings of the
second level, and what stands in a section lies between its heading and the next one. The content of
a code block is the lines of a fence. -/
structure Divides (lines : List (List Char)) (sections : List Section) : Prop where
  headings : ∀ number title,
    (∃ line, OutsideAt lines number line ∧ ofRawLine line = .heading 2 title) ↔
      ∃ s ∈ sections, s.line = number ∧ s.title = .ofList title
  below : ∀ s ∈ sections, ∀ c ∈ s.contents, s.line < c.line
  ordered : sections.Pairwise fun s next => s.line < next.line ∧ ∀ c ∈ s.contents, c.line < next.line
  code : ∀ s ∈ sections, ∀ language content number, .code language content number ∈ s.contents →
    ∃ body, FencedAt lines number language body ∧ content = .ofList (Text.joinLines body)

namespace Outline.Groups

variable {blocks : List Block} {contents : List Content} {sections : List Section}

/-- A heading of the second level opens a section. -/
theorem exists_section (h : Groups blocks contents sections) {title : String} {line : Nat}
    (hmem : .heading 2 title line ∈ blocks) : ∃ s ∈ sections, s.line = line ∧ s.title = title := by
  induction h with
  | nil => cases hmem
  | content hb _ ih =>
    rcases List.mem_cons.mp hmem with rfl | hmem
    · cases hb with
      | heading _ hne => exact absurd rfl hne
    · exact ih hmem
  | heading _ ih =>
    rcases List.mem_cons.mp hmem with heq | hmem
    · cases heq
      exact ⟨_, List.mem_cons_self, rfl, rfl⟩
    · exact List.exists_mem_cons_of_exists (ih hmem)

/-- Where blocks start on later and later lines, contents and sections do. -/
theorem ordered (h : Groups blocks contents sections)
    (hblocks : blocks.Pairwise fun b next => b.line < next.line) :
    (∀ c ∈ contents, ∀ s ∈ sections, c.line < s.line) ∧
      (∀ s ∈ sections, ∀ c ∈ s.contents, s.line < c.line) ∧
      sections.Pairwise fun s next => s.line < next.line ∧ ∀ c ∈ s.contents, c.line < next.line := by
  induction h with
  | nil => exact ⟨List.forall_mem_nil _, List.forall_mem_nil _, .nil⟩
  | content hb hrest ih =>
    obtain ⟨hfirst, hblocks⟩ := List.pairwise_cons.mp hblocks
    obtain ⟨hcontents, hbelow, hordered⟩ := ih hblocks
    refine ⟨List.forall_mem_cons.mpr ⟨fun s hs => ?_, hcontents⟩, hbelow, hordered⟩
    rw [← hb.line_eq]
    exact hfirst _ (hrest.exists_block_of_section hs).1
  | @heading title line blocks contents sections hrest ih =>
    obtain ⟨hfirst, hblocks⟩ := List.pairwise_cons.mp hblocks
    obtain ⟨hcontents, hbelow, hordered⟩ := ih hblocks
    refine ⟨List.forall_mem_nil _, List.forall_mem_cons.mpr ⟨fun c hc => ?_, hbelow⟩,
      List.pairwise_cons.mpr ⟨fun s hs => ⟨?_, fun c hc => hcontents c hc s hs⟩, hordered⟩⟩
    · obtain ⟨b, hb, hstands⟩ := hrest.exists_block hc
      rw [← hstands.line_eq]
      exact hfirst b hb
    · exact hfirst _ (hrest.exists_block_of_section hs).1

end Outline.Groups

theorem Outlined.divides {lines : List (List Char)} {spans : List Span} {header : List Content}
    {sections : List Section} (h : Outlined (spans.map (·.block)) header sections)
    (hlossless : Lossless lines spans) : Divides lines sections := by
  have hordered : (spans.map (·.block)).Pairwise fun b next => b.line < next.line :=
    List.pairwise_map.mpr hlossless.increasing
  obtain ⟨first, below, hblocks, ⟨text, line, rfl⟩, hgroups⟩ := id h
  rw [hblocks] at hordered
  obtain ⟨-, hbelow, hsections⟩ := hgroups.ordered (List.pairwise_cons.mp hordered).2
  refine ⟨fun number title => ⟨?_, ?_⟩, hbelow, hsections, fun s hs language content number hmem => ?_⟩
  · rintro ⟨line', hat, hkind⟩
    have hline : Block.ofLine? number line' = some (.heading 2 (.ofList title) number) := by
      unfold Block.ofLine?
      rw [hkind]
    have hmem := hlossless.mem_of_outsideAt hat hline
    rw [hblocks] at hmem
    rcases List.mem_cons.mp hmem with heq | hmem
    · cases heq
    · exact hgroups.exists_section hmem
  · rintro ⟨s, hs, rfl, htitle⟩
    obtain ⟨line', hat, hline⟩ :=
      hlossless.exists_outsideAt (h.exists_block_of_section hs).1 nofun nofun
    obtain ⟨title', hkind, htitle'⟩ := Block.of_ofLine?_eq_heading hline
    obtain rfl : title = title' := String.ofList_injective (htitle.symm.trans htitle')
    exact ⟨line', hat, hkind⟩
  · obtain ⟨b, hb, hstands⟩ := (h.exists_block_of_section hs).2 _ hmem
    cases hstands
    obtain ⟨span, hspan, heq⟩ := List.mem_map.mp hb
    have hcovers := hlossless.covers span hspan
    obtain ⟨block, last⟩ := span
    cases heq
    cases hcovers with
    | line _ hline =>
      unfold Block.ofLine? at hline
      split at hline <;> cases hline
    | code hfenced => exact ⟨_, hfenced, rfl⟩

/-- **The tasks of a source mirror its sections**, one after the other: the sections divide the lines
of the source at the headings of the second level, and each task is made of what its section says
and of nothing else. -/
theorem Pipeline.tasks_mirror_sections {source : String} {p : Pipeline}
    (h : ofSource source = .ok p) :
    ∃ spans header sections, Block.ofSource source = .ok (spans.map (·.block)) ∧
      Lossless (Text.lines source.toList) spans ∧
      Outlined (spans.map (·.block)) header sections ∧
      Divides (Text.lines source.toList) sections ∧ List.Forall₂ Task.Mirrors p.tasks sections := by
  obtain ⟨blocks, o, hblocks, ho, hp⟩ := ofSource_eq_ok_iff.mp h
  obtain ⟨_, _, tasks, ps, -, -, htasks, -, rfl⟩ := ofOutline_eq_ok_iff.mp hp
  obtain ⟨-, spans, rfl, hlossless⟩ := Block.lossless_of_ofSource hblocks
  have houtlined := Outline.outlined_of_ofBlocks ho
  exact ⟨spans, o.preamble, o.sections, hblocks, hlossless, houtlined,
    houtlined.divides hlossless, mirrors_of_sectionTasks htasks⟩

/-- A source with two sections, the code of the first of which looks like a heading and a command. -/
def Pipeline.letterSource : String :=
  "# Letter\n- PROMPTBOOK VERSION 1.0.0\n- INPUT PARAMETER \x7bname\x7d\n" ++
    "## Write\n- JOKER \x7bname\x7d\n- POSTPROCESS trim\n- JOKER \x7bname\x7d\n" ++
    "```\n## Dear \x7bname\x7d\n- JOKER \x7bx\x7d\n```\n-> \x7bletter\x7d\n" ++
    "## Sign\n~~~\n\x7bletter\x7d\n~~~\n-> \x7bsigned\x7d\n"

/-- Its two tasks mirror its two sections. -/
theorem Pipeline.letter_sections : ∃ p, ofSource letterSource = .ok p ∧
    p.tasks.map (fun t => ([t.name, t.content, t.result], t.postprocessing, t.jokers)) =
      [(["write", "## Dear \x7bname\x7d\n- JOKER \x7bx\x7d", "letter"], ["trim"], ["name"]),
        (["sign", "\x7bletter\x7d", "signed"], [], [])] ∧
    ∃ sections, Divides (Text.lines letterSource.toList) sections ∧
      List.Forall₂ Task.Mirrors p.tasks sections := by
  have htasks : (ofSource letterSource).map (fun p =>
      p.tasks.map fun t => ([t.name, t.content, t.result], t.postprocessing, t.jokers)) =
      .ok [(["write", "## Dear \x7bname\x7d\n- JOKER \x7bx\x7d", "letter"], ["trim"], ["name"]),
        (["sign", "\x7bletter\x7d", "signed"], [], [])] := by
    decide +kernel
  obtain ⟨p, hp, htasks⟩ := map_eq_ok_iff.mp htasks
  obtain ⟨spans, header, sections, -, -, -, hdivides, hmirrors⟩ := tasks_mirror_sections hp
  exact ⟨p, hp, htasks, sections, hdivides, hmirrors⟩

end PromptPipeline
