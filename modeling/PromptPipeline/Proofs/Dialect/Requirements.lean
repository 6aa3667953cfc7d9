import PromptPipeline.Proofs.Dialect.Exchange

/-!
# Model requirements

A requirement on the model of a task is set in its own section, or for all tasks in the header, and
otherwise has a default. Header and section collect their requirements in the same way
(`ModelSetting.Collects`): the commands read so far have different keywords, and override what holds
around them. Each block keeps this (`Content.Configures.collects`), so a task has the requirements of
its section over those of the header (`Task.Inherits`). What other sections say has no part in it: of
two sources that set the same requirements in their headers, a section makes the same task in both
(`Section.toTask_renumber_unique`).

Main statement: `Pipeline.requirements_inherited`.
-/

namespace PromptPipeline

/-! ## Requirements -/

/-- The requirement that the command sets. -/
def Command.model? : Command → Option ModelCommand
  | .model m => some m
  | _ => none

namespace ModelCommand

/-- The variant, if the command sets it. -/
def variant? : ModelCommand → Option ModelVariant
  | .variant v => some v
  | _ => none

/-- The name, if the command sets it. -/
def name? : ModelCommand → Option String
  | .name n => some n
  | _ => none

/-- The limit on the length of an answer, if the command sets it. -/
def maxTokens? : ModelCommand → Option Amount
  | .maxTokens n => some n
  | _ => none

end ModelCommand

/-- The requirements that commands set, in order. -/
def modelCommands (commands : List Command) : List ModelCommand :=
  commands.filterMap Command.model?

/-- The keywords of these requirements. -/
def requirementKeywords (commands : List Command) : List String :=
  (modelCommands commands).map (·.keyword)

/-- The value that the commands set for a key. -/
def setting? {α : Type} (key? : ModelCommand → Option α) (commands : List Command) : Option α :=
  (modelCommands commands).findSome? key?

/-- The requirements with those that the commands set in their place. -/
def ModelRequirements.override (base : ModelRequirements) (commands : List Command) :
    ModelRequirements where
  variant := (setting? ModelCommand.variant? commands).getD base.variant
  modelName := (setting? ModelCommand.name? commands).or base.modelName
  maxTokens := (setting? ModelCommand.maxTokens? commands).or base.maxTokens

section Commands

variable {commands : List Command}

theorem modelCommands_append (commands more : List Command) :
    modelCommands (commands ++ more) = modelCommands commands ++ modelCommands more :=
  List.filterMap_append

theorem setting?_concat {α : Type} (key? : ModelCommand → Option α) (commands : List Command)
    (m : ModelCommand) :
    setting? key? (commands ++ [.model m]) = (setting? key? commands).or (key? m) := by
  unfold setting?
  rw [modelCommands_append, List.findSome?_append]
  exact congrArg _ (List.findSome?_singleton ..)

/-- A key whose keyword does not occur is not set. -/
theorem setting?_eq_none {α : Type} {key? : ModelCommand → Option α} {keyword : String}
    (hkey : ∀ m, m.keyword ≠ keyword → key? m = none)
    (h : keyword ∉ requirementKeywords commands) : setting? key? commands = none := by
  refine List.findSome?_eq_none_iff.mpr fun m hm => hkey m ?_
  rintro rfl
  exact h (List.mem_map_of_mem hm)

end Commands

/-! ## What a scope collects -/

namespace ModelSetting

/-- The setting is that of commands with different keywords, over the requirements around them. -/
structure Collects (base : ModelRequirements) (commands : List Command) (m : ModelSetting) :
    Prop where
  requirements : m.requirements = base.override commands
  keywords : m.set = (requirementKeywords commands).reverse
  once : (requirementKeywords commands).Nodup

variable {base : ModelRequirements} {commands : List Command} {m m' : ModelSetting}

theorem collects_nil (base : ModelRequirements) : Collects base [] ⟨base, []⟩ where
  requirements := rfl
  keywords := rfl
  once := List.nodup_nil

/-- One more requirement, with a new keyword. -/
theorem Collects.apply {command : ModelCommand} {line : Nat} (h : m.Collects base commands)
    (happly : m.apply command line = .ok m') : m'.Collects base (commands ++ [.model command]) := by
  unfold ModelSetting.apply at happly
  split at happly
  next => cases happly
  next hset =>
    cases happly
    have hnew : command.keyword ∉ requirementKeywords commands := by
      rw [h.keywords] at hset
      simpa using hset
    have hkeywords : requirementKeywords (commands ++ [.model command]) =
        requirementKeywords commands ++ [command.keyword] := by
      unfold requirementKeywords
      rw [modelCommands_append, List.map_append]
      rfl
    refine ⟨?_, ?_, ?_⟩
    · simp only [h.requirements, ModelRequirements.override, setting?_concat]
      -- the key of the command is not set yet, and the command sets no other key
      cases command with
      | variant v =>
        have hnone : setting? ModelCommand.variant? commands = none := setting?_eq_none
          (fun | .variant _, hne => absurd rfl hne | .name _, _ | .maxTokens _, _ => rfl) hnew
        simp [hnone, ModelCommand.variant?, ModelCommand.name?, ModelCommand.maxTokens?]
      | name n =>
        have hnone : setting? ModelCommand.name? commands = none := setting?_eq_none
          (fun | .name _, hne => absurd rfl hne | .variant _, _ | .maxTokens _, _ => rfl) hnew
        simp [hnone, ModelCommand.variant?, ModelCommand.name?, ModelCommand.maxTokens?]
      | maxTokens n =>
        have hnone : setting? ModelCommand.maxTokens? commands = none := setting?_eq_none
          (fun | .maxTokens _, hne => absurd rfl hne | .variant _, _ | .name _, _ => rfl) hnew
        simp [hnone, ModelCommand.variant?, ModelCommand.name?, ModelCommand.maxTokens?]
    · rw [hkeywords, h.keywords, List.reverse_append]
      rfl
    · rw [hkeywords, List.nodup_append_comm]
      exact List.nodup_cons.mpr ⟨hnew, h.once⟩

/-- A command that is about something else. -/
theorem Collects.other {command : Command} (h : m.Collects base commands)
    (hother : command.model? = none) : m.Collects base (commands ++ [command]) := by
  have hsame : modelCommands (commands ++ [command]) = modelCommands commands := by
    unfold modelCommands
    rw [List.filterMap_append, List.filterMap_cons_none hother, List.filterMap_nil, List.append_nil]
  obtain ⟨hrequirements, hkeywords, honce⟩ := h
  unfold ModelRequirements.override setting? at hrequirements
  unfold requirementKeywords at hkeywords honce
  rw [← hsame] at hrequirements hkeywords honce
  exact ⟨hrequirements, hkeywords, honce⟩

end ModelSetting

/-- What a block does to the setting of its scope: it sets a requirement, or leaves it. -/
inductive Content.Configures (c : Content) (m : ModelSetting) : ModelSetting → Prop
  | sets {command : ModelCommand} {line : Nat} {m' : ModelSetting}
    (hc : c.command? = some (.model command)) (h : m.apply command line = .ok m') :
    Configures c m m'
  | keeps (hc : c.command?.bind Command.model? = none) : Configures c m m

/-- The setting after a block is that of its command and of all before it. -/
theorem Content.Configures.collects {c : Content} {m m' : ModelSetting} (hc : c.Configures m m')
    {base : ModelRequirements} {before : List Content}
    (h : m.Collects base (Content.commands before)) :
    m'.Collects base (Content.commands (before ++ [c])) := by
  rw [commands_concat]
  cases hc with
  | sets hc happly =>
    rw [hc]
    exact h.apply happly
  | keeps hc =>
    cases hcommand : c.command? with
    | none =>
      rw [Option.toList_none, List.append_nil]
      exact h
    | some command =>
      rw [hcommand] at hc
      exact h.other hc

theorem Content.configures_other {text : String} {command : Command}
    (hitem : Command.ofItem text = .ok command) (hother : command.model? = none) (line : Nat)
    (m : ModelSetting) : (Content.item text line).Configures m m := by
  refine .keeps ?_
  rw [command?_item hitem]
  exact hother

theorem Header.configures_of_read {h h' : Header} {c : Content} (hread : h.read c = .ok h') :
    c.Configures h.model h'.model := by
  cases read_eq_ok_iff.mp hread with
  | model hitem happly => exact .sets (Content.command?_item hitem _) happly
  | url hitem | version hitem | parameter hitem => exact Content.configures_other hitem rfl _ _
  | paragraph => exact .keeps rfl

theorem Draft.configures_of_read {d d' : Draft} {task : String} {c : Content}
    (hread : Draft.read task d c = .ok d') : c.Configures d.model d'.model := by
  cases read_eq_ok_iff.mp hread with
  | model hitem happly => exact .sets (Content.command?_item hitem _) happly
  | execute hitem | joker hitem | parameter hitem | postprocess hitem | expect hitem =>
    exact Content.configures_other hitem rfl _ _
  | paragraph | code | arrow => exact .keeps rfl

/-- The setting of the header. -/
theorem Header.collects_of_foldlM {contents : List Content} {h : Header}
    (hread : contents.foldlM Header.read {} = .ok h) :
    h.model.Collects {} (Content.commands contents) := by
  have hnil : ({} : Header).model.Collects {} (Content.commands []) := ModelSetting.collects_nil {}
  exact foldlM_induction_prefix
    (P := fun before (h : Header) => h.model.Collects {} (Content.commands before))
    (fun _ _ _ _ hbefore hread => (configures_of_read hread).collects hbefore) [] hnil hread

/-! ## Tasks -/

/-- The task has the requirements of its section, each of which stands there once, over those of the
header and over the defaults. A task that no model answers has none, and its section sets none. -/
structure Task.Inherits (header : List Command) (t : Task) (s : Section) : Prop where
  once : (requirementKeywords s.commands).Nodup
  requirements : t.executionType = .promptTemplate → t.modelRequirements =
    some ((ModelRequirements.override ⟨.chat, none, none⟩ header).override s.commands)
  absent : t.executionType ≠ .promptTemplate → t.modelRequirements = none
  exclusive : modelCommands s.commands ≠ [] → t.executionType = .promptTemplate

theorem taskRequirements_eq_ok_iff {type : ExecutionType} {model : ModelSetting} {task : String}
    {line : Nat} {requirements : Option ModelRequirements} :
    taskRequirements type model task line = .ok requirements ↔
      (type = .promptTemplate ∧ requirements = some model.requirements) ∨
        (type ≠ .promptTemplate ∧ model.set = [] ∧ requirements = none) := by
  cases type with
  | promptTemplate => simp [taskRequirements, @eq_comm _ requirements]
  | simpleTemplate | script | promptDialog =>
    by_cases hset : model.set = [] <;> simp [taskRequirements, hset, @eq_comm _ requirements]

theorem Section.inherits_of_toTask {s : Section} {model : ModelSetting} {ps qs : List Parameter}
    {t : Task} {header : List Command} (hmodel : model.Collects {} header)
    (h : s.toTask model ps = .ok (t, qs)) : t.Inherits header s := by
  obtain ⟨-, d, hread, htask, -⟩ := toTask_eq_ok_iff.mp h
  have hnil : model.forSection.Collects model.requirements (Content.commands []) :=
    ModelSetting.collects_nil model.requirements
  have hcollects : d.model.Collects model.requirements s.commands := foldlM_induction_prefix
    (P := fun before (d : Draft) => d.model.Collects model.requirements (Content.commands before))
    (fun _ _ _ _ hbefore hread => (Draft.configures_of_read hread).collects hbefore) [] hnil hread
  obtain ⟨_, _, _, requirements, -, -, -, hrequirements, rfl⟩ := Draft.toTask_eq_ok_iff.mp htask
  rcases taskRequirements_eq_ok_iff.mp hrequirements with ⟨htype, rfl⟩ | ⟨htype, hset, rfl⟩
  · refine ⟨hcollects.once, fun _ => ?_, fun hne => absurd htype hne, fun _ => htype⟩
    rw [hcollects.requirements, hmodel.requirements]
  · refine ⟨hcollects.once, fun heq => absurd heq htype, fun _ => rfl, fun hsome => ?_⟩
    have hnone : modelCommands s.commands = [] := by
      rw [hcollects.keywords] at hset
      simpa [requirementKeywords] using hset
    exact absurd hnone hsome

theorem inherits_of_sectionTasks {model : ModelSetting} {ps qs : List Parameter}
    {sections : List Section} {ts : List Task} {header : List Command}
    (hmodel : model.Collects {} header) (h : sectionTasks model ps sections = .ok (ts, qs)) :
    List.Forall₂ (Task.Inherits header) ts sections := by
  induction sections generalizing ps ts with
  | nil =>
    cases h
    exact .nil
  | cons s rest ih =>
    obtain ⟨t, ps', ts', htask, hrest, rfl⟩ := sectionTasks_cons_eq_ok_iff.mp h
    exact .cons (s.inherits_of_toTask hmodel htask) (ih hrest)

/-! ## Sections under other headers -/

namespace Draft

variable {d d' e : Draft} {ps : List Parameter} {task : String} {c : Content}

/-- A declaration that is read is accepted. -/
theorem Reads.exists_declare (h : d.Reads c d') {declaration : Declaration}
    (hc : c.declaration? = some declaration) :
    ∃ qs, declare d.parameters declaration c.line = .ok qs := by
  cases h with
  | parameter hitem hdeclare =>
    obtain rfl := Option.some.inj ((Content.declaration?_item hitem _).symm.trans hc)
    exact ⟨_, hdeclare⟩
  | execute hitem | model hitem | joker hitem | postprocess hitem | expect hitem =>
    cases (Content.declaration?_item hitem _).symm.trans hc
  | paragraph | code | arrow => cases hc

/-- A block that is read in two places does the same to both drafts, but for the parameters. -/
theorem moved_of_read {f : Nat → Nat} (h : Draft.read task d c = .ok d')
    (he : Draft.read task (d.moved f ps) (c.renumber f) = .ok e) : ∃ qs, e = d'.moved f qs := by
  have hline : (c.renumber f).line = f c.line := by cases c <;> rfl
  obtain ⟨qs, hqs⟩ := (read_eq_ok_iff.mp h).exists_moved f fun declaration hc => by
    rw [← hline]
    rw [← Content.declaration?_renumber f] at hc
    exact (read_eq_ok_iff.mp he).exists_declare hc
  exact ⟨qs, Except.ok.inj (he.symm.trans (read_eq_ok_iff.mpr hqs))⟩

/-- So do all blocks of a section. -/
theorem moved_of_foldlM {f : Nat → Nat} {contents : List Content} (ps : List Parameter)
    (h : contents.foldlM (Draft.read task) d = .ok d')
    (he : (contents.map (.renumber f)).foldlM (Draft.read task) (d.moved f ps) = .ok e) :
    ∃ qs, e = d'.moved f qs := by
  induction contents generalizing d ps with
  | nil =>
    cases h
    cases he
    exact ⟨ps, rfl⟩
  | cons c rest ih =>
    obtain ⟨d₁, hread, hrest⟩ := foldlM_cons_eq_ok_iff.mp h
    obtain ⟨e₁, hread', hrest'⟩ := foldlM_cons_eq_ok_iff.mp he
    obtain ⟨qs, rfl⟩ := moved_of_read hread hread'
    exact ih qs hrest hrest'

end Draft

/-- **Under the same requirements a section makes the same task**, wherever it stands and whatever is
declared before it. -/
theorem Section.toTask_renumber_unique {s : Section} {f : Nat → Nat} {model model' : ModelSetting}
    {ps qs ps' qs' : List Parameter} {t t' : Task}
    (hmodel : model'.requirements = model.requirements) (h : s.toTask model ps = .ok (t, qs))
    (h' : (s.renumber f).toTask model' ps' = .ok (t', qs')) : t' = t := by
  obtain ⟨-, d, hread, htask, -⟩ := toTask_eq_ok_iff.mp h
  obtain ⟨-, e, hread', htask', -⟩ := toTask_eq_ok_iff.mp h'
  have hsame : model'.forSection = model.forSection := by
    unfold ModelSetting.forSection
    rw [hmodel]
  rw [hsame] at hread'
  obtain ⟨rs, rfl⟩ := Draft.moved_of_foldlM ps' hread hread'
  exact Except.ok.inj (htask'.symm.trans (Draft.toTask_moved htask f))

/-- Each section has its task. -/
theorem exists_toTask_of_sectionTasks {model : ModelSetting} {ps qs : List Parameter}
    {sections : List Section} {ts : List Task} (h : sectionTasks model ps sections = .ok (ts, qs))
    {i : Nat} {s : Section} (hs : sections[i]? = some s) :
    ∃ rs t rs', s.toTask model rs = .ok (t, rs') ∧ ts[i]? = some t := by
  induction sections generalizing ps ts i with
  | nil => cases hs
  | cons first rest ih =>
    obtain ⟨t, ps', ts', htask, hrest, rfl⟩ := sectionTasks_cons_eq_ok_iff.mp h
    cases i with
    | zero =>
      cases hs
      exact ⟨ps, t, ps', htask, rfl⟩
    | succ i => exact ih hrest hs

/-! ## Sources -/

/-- The source has the contents in its header, and the sections. -/
def Outlines (source : String) (header : List Content) (sections : List Section) : Prop :=
  ∃ blocks, Block.ofSource source = .ok blocks ∧ Outlined blocks header sections

theorem Outlines.unique {source : String} {header header' : List Content}
    {sections sections' : List Section} (h : Outlines source header sections)
    (h' : Outlines source header' sections') : header = header' ∧ sections = sections' := by
  obtain ⟨_, hblocks, _, below, rfl, -, hgroups⟩ := h
  obtain ⟨_, hblocks', _, below', rfl, -, hgroups'⟩ := h'
  obtain ⟨-, rfl⟩ := List.cons.inj (Except.ok.inj (hblocks.symm.trans hblocks'))
  have hgrouped := (Outline.group_of_groups hgroups).symm.trans (Outline.group_of_groups hgroups')
  exact Prod.mk.inj (Except.ok.inj hgrouped)

theorem Outlines.of_ofSource {source : String} {o : Outline} (h : Outline.ofSource source = .ok o) :
    Outlines source o.preamble o.sections := by
  obtain ⟨blocks, hblocks, ho⟩ := bind_eq_ok_iff.mp h
  exact ⟨blocks, hblocks, Outline.outlined_of_ofBlocks ho⟩

/-- The stages of a source that compiles, with the outline that it has. -/
theorem Outlines.exists_stages {source : String} {header : List Content} {sections : List Section}
    (ho : Outlines source header sections) {p : Pipeline} (h : Pipeline.ofSource source = .ok p) :
    ∃ (read : Header) (ps : List Parameter), header.foldlM Header.read {} = .ok read ∧
      sectionTasks read.model read.parameters sections = .ok (p.tasks, ps) := by
  obtain ⟨o, ho', hp⟩ := bind_eq_ok_iff.mp h
  obtain ⟨read, _, tasks, ps, hread, -, htasks, -, rfl⟩ := Pipeline.ofOutline_eq_ok_iff.mp hp
  obtain ⟨rfl, rfl⟩ := ho.unique (.of_ofSource ho')
  exact ⟨read, ps, hread, htasks⟩

/-- **Requirements are inherited key by key**: a task has those that its own section sets, else those
of the header, else the defaults, wherever in header and section the commands stand; each scope sets
a key at most once; and only a prompt template may set any. A task depends on nothing else: in every
other source that compiles under the same requirements of the header, whatever its other sections
set, a section makes the same task, but for the numbers of its lines. -/
theorem Pipeline.requirements_inherited {source : String} {p : Pipeline}
    (h : ofSource source = .ok p) :
    ∃ header sections, Outlines source header sections ∧
      (requirementKeywords (Content.commands header)).Nodup ∧
      List.Forall₂ (Task.Inherits (Content.commands header)) p.tasks sections ∧
      ∀ source' p' header' sections', ofSource source' = .ok p' →
        Outlines source' header' sections' →
        ModelRequirements.override ⟨.chat, none, none⟩ (Content.commands header') =
          ModelRequirements.override ⟨.chat, none, none⟩ (Content.commands header) →
        ∀ (i j : Nat) (s : Section) (f : Nat → Nat), sections[i]? = some s →
          sections'[j]? = some (s.renumber f) → ∃ t, p.tasks[i]? = some t ∧ p'.tasks[j]? = some t := by
  obtain ⟨o, ho, -⟩ := bind_eq_ok_iff.mp h
  have houtlines := Outlines.of_ofSource ho
  obtain ⟨read, ps, hread, htasks⟩ := houtlines.exists_stages h
  have hcollects := Header.collects_of_foldlM hread
  refine ⟨o.preamble, o.sections, houtlines, hcollects.once,
    inherits_of_sectionTasks hcollects htasks, ?_⟩
  intro source' p' header' sections' h' houtlines' hsame i j s f hs hs'
  obtain ⟨read', ps', hread', htasks'⟩ := houtlines'.exists_stages h'
  have hmodel : read'.model.requirements = read.model.requirements :=
    (Header.collects_of_foldlM hread').requirements.trans (hsame.trans hcollects.requirements.symm)
  obtain ⟨_, t, _, htask, ht⟩ := exists_toTask_of_sectionTasks htasks hs
  obtain ⟨_, t', _, htask', ht'⟩ := exists_toTask_of_sectionTasks htasks' hs'
  obtain rfl := Section.toTask_renumber_unique hmodel htask htask'
  exact ⟨t', ht, ht'⟩

/-- A source with requirements in its header and at the end of its second section, and with those of
its first section as given, after the arrow. -/
def Pipeline.storySource (requirements : String) : String :=
  "# Story\n- PROMPTBOOK VERSION 1.0.0\n- MODEL VARIANT COMPLETION\n- MODEL NAME base\n" ++
    "- OUTPUT PARAMETER \x7bstory\x7d\n## Plan\n```\nPlan a story\n```\n-> \x7bplan\x7d\n" ++
    requirements ++ "## Write\n```\n\x7bplan\x7d\n```\n-> \x7bstory\x7d\n- MODEL NAME large\n"

/-- Other requirements of the first section change the first task, and leave the second one. -/
theorem Pipeline.story_requirements : ∃ p p',
    ofSource (storySource "- MODEL MAX TOKENS 50\n") = .ok p ∧
    ofSource (storySource "- MODEL NAME small\n- MODEL VARIANT CHAT\n") = .ok p' ∧
    p.tasks.map (·.modelRequirements) =
      [some ⟨.completion, some "base", some 50⟩, some ⟨.completion, some "large", none⟩] ∧
    p'.tasks.map (·.modelRequirements) =
      [some ⟨.chat, some "small", none⟩, some ⟨.completion, some "large", none⟩] ∧
    (∃ header sections, Outlines (storySource "- MODEL MAX TOKENS 50\n") header sections ∧
      List.Forall₂ (Task.Inherits (Content.commands header)) p.tasks sections) ∧
    ∃ t, p.tasks[1]? = some t ∧ p'.tasks[1]? = some t := by
  have hfirst : (ofSource (storySource "- MODEL MAX TOKENS 50\n")).map
      (fun p => p.tasks.map (·.modelRequirements)) =
        .ok [some ⟨.completion, some "base", some 50⟩, some ⟨.completion, some "large", none⟩] := by
    decide +kernel
  have hsecond : (ofSource (storySource "- MODEL NAME small\n- MODEL VARIANT CHAT\n")).map
      (fun p => p.tasks.map (·.modelRequirements)) =
        .ok [some ⟨.chat, some "small", none⟩, some ⟨.completion, some "large", none⟩] := by
    decide +kernel
  obtain ⟨p, hp, hfirst⟩ := map_eq_ok_iff.mp hfirst
  obtain ⟨p', hp', hsecond⟩ := map_eq_ok_iff.mp hsecond
  obtain ⟨header, sections, houtlines, -, hinherits, hsame⟩ := requirements_inherited hp
  obtain ⟨o, ho, -⟩ := bind_eq_ok_iff.mp hp
  obtain ⟨o', ho', -⟩ := bind_eq_ok_iff.mp hp'
  obtain ⟨rfl, rfl⟩ := houtlines.unique (.of_ofSource ho)
  -- the header is the same, and the second section stands one line further down
  have hmoved : (Outline.ofSource (storySource "- MODEL NAME small\n- MODEL VARIANT CHAT\n")).map
      (fun o => (o.preamble, o.sections[1]?)) =
        (Outline.ofSource (storySource "- MODEL MAX TOKENS 50\n")).map
          (fun o => (o.preamble, o.sections[1]?.map (.renumber (· + 1)))) := by
    decide +kernel
  rw [ho, ho'] at hmoved
  have hlength : 1 < o.sections.length := by
    rw [← hinherits.length_eq, ← List.length_map (·.modelRequirements), hfirst]
    decide
  obtain ⟨s, hs⟩ : ∃ s, o.sections[1]? = some s := ⟨_, List.getElem?_eq_getElem hlength⟩
  obtain ⟨hheader, hs'⟩ := Prod.mk.inj (Except.ok.inj hmoved)
  rw [hs, Option.map_some] at hs'
  exact ⟨p, p', hp, hp', hfirst, hsecond, ⟨_, _, houtlines, hinherits⟩,
    hsame _ p' _ _ hp' (.of_ofSource ho') (by rw [hheader]) 1 1 s _ hs hs'⟩

end PromptPipeline
