import PromptPipeline.Dialect.Source
import PromptPipeline.Proofs.Result

/-!
# Stages of a compilation

What the stages of a compilation do where they succeed. The header and the draft of a task are read
block by block, and for each kind of block there is one way to read it (`Header.Reads`,
`Draft.Reads`), with what it needs and what it changes. A source compiles if all stages go through,
from its blocks to its sections (`Pipeline.ofSource_eq_ok_iff`). What holds of sources that compile
is derived from these equivalences and does not look at how a stage is written.

Main statements: `Header.read_eq_ok_iff`, `Draft.read_eq_ok_iff`, `Pipeline.ofOutline_eq_ok_iff`.
-/

namespace PromptPipeline

/-! ## Commands -/

theorem Command.parse_eq_ok_iff {text : String} {line : Nat} {command : Command} :
    Command.parse text line = .ok command ↔ Command.ofItem text = .ok command := by
  unfold Command.parse
  cases Command.ofItem text with
  | error fault => exact ⟨nofun, nofun⟩
  | ok command' => exact ⟨fun | rfl => rfl, fun | rfl => rfl⟩

theorem setOnce_eq_ok_iff {α : Type} {old set : Option α} {new : α} {keyword : String}
    {line : Nat} : setOnce old new keyword line = .ok set ↔ old = none ∧ set = some new := by
  cases old <;> simp [setOnce, @eq_comm _ set]

/-- The parameter that a declaration declares first. -/
def Declaration.toParameter (d : Declaration) : Parameter :=
  ⟨d.name, d.description, d.isInput, d.isOutput⟩

/-- The parameters after a declaration: one more at the end, if its name is new; else those before,
of which the one of its name has the same facets, and a description if one of the two has. -/
theorem declare_cases {ps qs : List Parameter} {d : Declaration} {line : Nat}
    (h : declare ps d line = .ok qs) :
    (∀ p ∈ ps, p.name ≠ d.name) ∧ qs = ps ++ [d.toParameter] ∨
      ∃ before p after, ps = before ++ p :: after ∧ p.name = d.name ∧
        d.isInput = p.isInput ∧ d.isOutput = p.isOutput ∧
        qs = before ++ { p with description := p.description.or d.description } :: after := by
  induction ps generalizing qs with
  | nil =>
    cases h
    exact .inl ⟨List.forall_mem_nil _, rfl⟩
  | cons p rest ih =>
    unfold declare at h
    split at h
    next hname =>
      split at h
      next => cases h
      next hfacets =>
        cases h
        simp only [ne_eq, not_or, Decidable.not_not] at hfacets
        exact .inr ⟨[], p, rest, rfl, hname, hfacets.1.symm, hfacets.2.symm, rfl⟩
    next hname =>
      obtain ⟨rest', hrest, rfl⟩ := map_eq_ok_iff.mp h
      rcases ih hrest with ⟨hnew, rfl⟩ | ⟨before, q, after, rfl, hold⟩
      · exact .inl ⟨List.forall_mem_cons.mpr ⟨hname, hnew⟩, rfl⟩
      · obtain ⟨hq, hinput, houtput, rfl⟩ := hold
        exact .inr ⟨p :: before, q, after, rfl, hq, hinput, houtput, rfl⟩

/-! ## The header -/

namespace Header

/-- How the header reads a block. -/
inductive Reads (h : Header) : Content → Header → Prop
  | url {text url : String} {line : Nat} (hitem : Command.ofItem text = .ok (.pipelineUrl url))
    (hnew : h.url = none) : Reads h (.item text line) { h with url := some url }
  | version {text version : String} {line : Nat}
    (hitem : Command.ofItem text = .ok (.dialectVersion version)) (hnew : h.version = none) :
    Reads h (.item text line) { h with version := some version }
  | parameter {text : String} {line : Nat} {d : Declaration} {parameters : List Parameter}
    (hitem : Command.ofItem text = .ok (.parameter d))
    (hdeclare : declare h.parameters d line = .ok parameters) :
    Reads h (.item text line) { h with parameters }
  | model {text : String} {line : Nat} {m : ModelCommand} {model : ModelSetting}
    (hitem : Command.ofItem text = .ok (.model m)) (happly : h.model.apply m line = .ok model) :
    Reads h (.item text line) { h with model }
  | paragraph {text : String} {line : Nat} :
    Reads h (.paragraph text line) { h with paragraphs := h.paragraphs ++ [text] }

theorem read_eq_ok_iff {h h' : Header} {c : Content} : h.read c = .ok h' ↔ h.Reads c h' := by
  constructor
  · intro hread
    cases c with
    | item text line =>
      obtain ⟨command, hparse, hobey⟩ := bind_eq_ok_iff.mp hread
      have hitem := Command.parse_eq_ok_iff.mp hparse
      cases command with
      | pipelineUrl url =>
        obtain ⟨_, hset, heq⟩ := bind_eq_ok_iff.mp hobey
        obtain ⟨hnew, rfl⟩ := setOnce_eq_ok_iff.mp hset
        cases heq
        exact .url hitem hnew
      | dialectVersion version =>
        obtain ⟨_, hset, heq⟩ := bind_eq_ok_iff.mp hobey
        obtain ⟨hnew, rfl⟩ := setOnce_eq_ok_iff.mp hset
        cases heq
        exact .version hitem hnew
      | parameter d =>
        obtain ⟨_, hdeclare, heq⟩ := bind_eq_ok_iff.mp hobey
        cases heq
        exact .parameter hitem hdeclare
      | model m =>
        obtain ⟨_, happly, heq⟩ := bind_eq_ok_iff.mp hobey
        cases heq
        exact .model hitem happly
      | execute _ | joker _ | postprocess _ | expect _ => cases hobey
    | paragraph text line =>
      cases hread
      exact .paragraph
    | code language content line => cases hread
    | arrow text line => cases hread
  · intro hreads
    have hobeyed {text : String} {line : Nat} {command : Command} {h' : Header}
        (hitem : Command.ofItem text = .ok command) (hobey : h.obey line command = .ok h') :
        h.read (.item text line) = .ok h' :=
      bind_eq_ok_iff.mpr ⟨command, Command.parse_eq_ok_iff.mpr hitem, hobey⟩
    cases hreads with
    | url hitem hnew | version hitem hnew =>
      exact hobeyed hitem (bind_eq_ok_iff.mpr ⟨_, setOnce_eq_ok_iff.mpr ⟨hnew, rfl⟩, rfl⟩)
    | parameter hitem hdeclare => exact hobeyed hitem (bind_eq_ok_iff.mpr ⟨_, hdeclare, rfl⟩)
    | model hitem happly => exact hobeyed hitem (bind_eq_ok_iff.mpr ⟨_, happly, rfl⟩)
    | paragraph => rfl

end Header

/-! ## Sections -/

namespace Draft

variable {d d' : Draft} {task : String}

/-- The arrow is the first one, has a proper name, and follows the code block. -/
theorem readArrow_eq_ok_iff {text : String} {line : Nat} :
    d.readArrow task text line = .ok d' ↔ d.result = none ∧ d.code.isSome = true ∧
      ∃ name, arrowName? text.toList = some name ∧ Name.isParameter name = true ∧
        d' = { d with result := some (.ofList name) } := by
  unfold readArrow
  cases hresult : d.result with
  | some result => simp
  | none =>
    cases hname : arrowName? text.toList with
    | none => simp
    | some name =>
      cases hvalid : Name.isParameter name with
      | false => simp [hvalid]
      | true =>
        cases hcode : d.code with
        | none => simp [hvalid]
        | some code => simp [hvalid, @eq_comm _ d']

/-- How the draft of a task reads a block. -/
inductive Reads (d : Draft) : Content → Draft → Prop
  | execute {text : String} {line : Nat} {type : ExecutionType}
    (hitem : Command.ofItem text = .ok (.execute type)) (hnew : d.executionType = none) :
    Reads d (.item text line) { d with executionType := some type }
  | model {text : String} {line : Nat} {m : ModelCommand} {model : ModelSetting}
    (hitem : Command.ofItem text = .ok (.model m)) (happly : d.model.apply m line = .ok model) :
    Reads d (.item text line) { d with model }
  | joker {text name : String} {line : Nat} (hitem : Command.ofItem text = .ok (.joker name)) :
    Reads d (.item text line)
      { d with jokers := if name ∈ d.jokers then d.jokers else d.jokers ++ [name] }
  | parameter {text : String} {line : Nat} {declaration : Declaration} {parameters : List Parameter}
    (hitem : Command.ofItem text = .ok (.parameter declaration))
    (hdeclare : declare d.parameters declaration line = .ok parameters) :
    Reads d (.item text line) { d with parameters }
  | postprocess {text function : String} {line : Nat}
    (hitem : Command.ofItem text = .ok (.postprocess function)) :
    Reads d (.item text line) { d with postprocessing := d.postprocessing ++ [function] }
  | expect {text : String} {line : Nat} {expectation : Expectation}
    (hitem : Command.ofItem text = .ok (.expect expectation)) :
    Reads d (.item text line) { d with expectations := d.expectations ++ [expectation] }
  | paragraph {text : String} {line : Nat} :
    Reads d (.paragraph text line) { d with paragraphs := d.paragraphs ++ [text] }
  | code {language : Option String} {content : String} {line : Nat} (hnew : d.code = none) :
    Reads d (.code language content line) { d with code := some ⟨language, content, line⟩ }
  | arrow {text : String} {line : Nat} {name : List Char} (hnew : d.result = none)
    (hcode : d.code.isSome = true) (hname : arrowName? text.toList = some name)
    (hvalid : Name.isParameter name = true) :
    Reads d (.arrow text line) { d with result := some (.ofList name) }

theorem obey_joker (d : Draft) (line : Nat) (name : String) : d.obey line (.joker name) =
    .ok { d with jokers := if name ∈ d.jokers then d.jokers else d.jokers ++ [name] } := by
  by_cases hname : name ∈ d.jokers <;> simp [obey, hname]

theorem read_eq_ok_iff {c : Content} : Draft.read task d c = .ok d' ↔ d.Reads c d' := by
  constructor
  · intro hread
    cases c with
    | item text line =>
      obtain ⟨command, hparse, hobey⟩ := bind_eq_ok_iff.mp hread
      have hitem := Command.parse_eq_ok_iff.mp hparse
      cases command with
      | execute type =>
        obtain ⟨_, hset, heq⟩ := bind_eq_ok_iff.mp hobey
        obtain ⟨hnew, rfl⟩ := setOnce_eq_ok_iff.mp hset
        cases heq
        exact .execute hitem hnew
      | model m =>
        obtain ⟨_, happly, heq⟩ := bind_eq_ok_iff.mp hobey
        cases heq
        exact .model hitem happly
      | joker name =>
        cases (d.obey_joker line name).symm.trans hobey
        exact .joker hitem
      | parameter declaration =>
        obtain ⟨_, hdeclare, heq⟩ := bind_eq_ok_iff.mp hobey
        cases heq
        exact .parameter hitem hdeclare
      | postprocess function =>
        cases hobey
        exact .postprocess hitem
      | expect expectation =>
        cases hobey
        exact .expect hitem
      | pipelineUrl _ | dialectVersion _ => cases hobey
    | paragraph text line =>
      cases hread
      exact .paragraph
    | code language content line =>
      simp only [Draft.read] at hread
      split at hread
      next => cases hread
      next hcode =>
        cases hread
        exact .code (Option.not_isSome_iff_eq_none.mp hcode)
    | arrow text line =>
      obtain ⟨hresult, hcode, name, hname, hvalid, rfl⟩ := readArrow_eq_ok_iff.mp hread
      exact .arrow hresult hcode hname hvalid
  · intro hreads
    have hobeyed {text : String} {line : Nat} {command : Command} {d' : Draft}
        (hitem : Command.ofItem text = .ok command) (hobey : d.obey line command = .ok d') :
        Draft.read task d (.item text line) = .ok d' :=
      bind_eq_ok_iff.mpr ⟨command, Command.parse_eq_ok_iff.mpr hitem, hobey⟩
    cases hreads with
    | execute hitem hnew =>
      exact hobeyed hitem (bind_eq_ok_iff.mpr ⟨_, setOnce_eq_ok_iff.mpr ⟨hnew, rfl⟩, rfl⟩)
    | model hitem happly => exact hobeyed hitem (bind_eq_ok_iff.mpr ⟨_, happly, rfl⟩)
    | joker hitem => exact hobeyed hitem (obey_joker ..)
    | parameter hitem hdeclare => exact hobeyed hitem (bind_eq_ok_iff.mpr ⟨_, hdeclare, rfl⟩)
    | postprocess hitem | expect hitem => exact hobeyed hitem rfl
    | paragraph => rfl
    | code hnew => simp [Draft.read, hnew]
    | arrow hnew hcode hname hvalid =>
      exact readArrow_eq_ok_iff.mpr ⟨hnew, hcode, _, hname, hvalid, rfl⟩

theorem toTask_eq_ok_iff {name : String} {s : Section} {t : Task} :
    d.toTask name s = .ok t ↔ ∃ code result dependencies modelRequirements,
      d.code = some code ∧ d.result = some result ∧
      contentDependencies (d.executionType.getD .promptTemplate) code = .ok dependencies ∧
      taskRequirements (d.executionType.getD .promptTemplate) d.model name s.line =
        .ok modelRequirements ∧
      t = {
        name
        title := s.title
        description := joinParagraphs d.paragraphs
        executionType := d.executionType.getD .promptTemplate
        dependencies
        modelRequirements
        contentLanguage := code.language
        content := code.content
        result
        postprocessing := d.postprocessing
        expectations := d.expectations
        jokers := d.jokers } := by
  unfold toTask
  cases d.code with
  | none => simp
  | some code =>
    cases d.result with
    | none => simp
    | some result => simp [bind_eq_ok_iff, @eq_comm _ t]

end Draft

/-- The task of a section is that of a draft which has read all its blocks. -/
theorem Section.toTask_eq_ok_iff {s : Section} {model : ModelSetting} {ps qs : List Parameter}
    {t : Task} : s.toTask model ps = .ok (t, qs) ↔ Name.ofTitle s.title ≠ "" ∧
      ∃ d, s.contents.foldlM (Draft.read (Name.ofTitle s.title))
          { parameters := ps, model := model.forSection } = .ok d ∧
        d.toTask (Name.ofTitle s.title) s = .ok t ∧ d.parameters = qs := by
  unfold toTask
  dsimp only
  by_cases hname : Name.ofTitle s.title = ""
  · simp [hname]
  · rw [if_neg hname, bind_eq_ok_iff]
    constructor
    · rintro ⟨d, hread, h⟩
      obtain ⟨_, htask, heq⟩ := bind_eq_ok_iff.mp h
      cases heq
      exact ⟨hname, d, hread, htask, rfl⟩
    · rintro ⟨-, d, hread, htask, rfl⟩
      exact ⟨d, hread, bind_eq_ok_iff.mpr ⟨t, htask, rfl⟩⟩

theorem sectionTasks_cons_eq_ok_iff {model : ModelSetting} {ps qs : List Parameter} {s : Section}
    {rest : List Section} {ts : List Task} :
    sectionTasks model ps (s :: rest) = .ok (ts, qs) ↔ ∃ t rs ts',
      s.toTask model ps = .ok (t, rs) ∧ sectionTasks model rs rest = .ok (ts', qs) ∧
        ts = t :: ts' := by
  simp only [sectionTasks, bind_eq_ok_iff, Prod.exists, Except.ok.injEq, Prod.mk.injEq]
  constructor
  · rintro ⟨t, rs, htask, ts', _, hrest, rfl, rfl⟩
    exact ⟨t, rs, ts', htask, hrest, rfl⟩
  · rintro ⟨t, rs, ts', htask, hrest, rfl⟩
    exact ⟨t, rs, htask, ts', qs, hrest, rfl, rfl⟩

/-! ## Sources -/

namespace Pipeline

variable {source : String} {o : Outline} {p : Pipeline}

theorem ofOutline_eq_ok_iff : ofOutline o = .ok p ↔ ∃ header version tasks ps,
    o.preamble.foldlM Header.read {} = .ok header ∧ header.version = some version ∧
      sectionTasks header.model header.parameters o.sections = .ok (tasks, ps) ∧ ps ≠ [] ∧
      p = {
        url := header.url
        title := o.title
        dialectVersion := version
        description := joinParagraphs header.paragraphs
        parameters := withResults ps tasks
        tasks
        knowledge := [] } := by
  constructor
  · intro h
    obtain ⟨header, hheader, h⟩ := bind_eq_ok_iff.mp h
    split at h
    next => cases h
    next version hversion =>
      obtain ⟨⟨tasks, ps⟩, htasks, h⟩ := bind_eq_ok_iff.mp h
      dsimp only at h
      split at h
      next => cases h
      next hps =>
        cases h
        exact ⟨header, version, tasks, ps, hheader, hversion, htasks, hps, rfl⟩
  · rintro ⟨header, version, tasks, ps, hheader, hversion, htasks, hps, rfl⟩
    refine bind_eq_ok_iff.mpr ⟨header, hheader, ?_⟩
    rw [hversion]
    refine bind_eq_ok_iff.mpr ⟨(tasks, ps), htasks, ?_⟩
    exact if_neg hps

theorem ofSource_eq_ok_iff : ofSource source = .ok p ↔ ∃ blocks o,
    Block.ofSource source = .ok blocks ∧ Outline.ofBlocks blocks = .ok o ∧ ofOutline o = .ok p := by
  unfold ofSource Outline.ofSource
  simp only [bind_eq_ok_iff]
  constructor
  · rintro ⟨o, ⟨blocks, hblocks, ho⟩, hp⟩
    exact ⟨blocks, o, hblocks, ho, hp⟩
  · rintro ⟨blocks, o, hblocks, ho, hp⟩
    exact ⟨o, ⟨blocks, hblocks, ho⟩, hp⟩

end Pipeline

end PromptPipeline
