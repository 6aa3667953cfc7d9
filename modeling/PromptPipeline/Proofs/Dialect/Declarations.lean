import PromptPipeline.Proofs.Dialect.Commands
import PromptPipeline.Proofs.Dialect.Source

/-!
# The parameters of a source

Declarations come from the header and from every section, and all of them go into one list of
parameters. Whatever their number and order, the list is what the declarations say together
(`Merges`): each name once, where it comes first, with the facets on which all declarations of the
name agree and the first description that one of them gives. A declaration more keeps this
(`Merges.declare`), and so do blocks and sections, which declare at most one parameter a block
(`Content.Updates`). At the end the results that nothing declares are added (`withResults_eq`).

Main statement: `Pipeline.parameters_merged`.
-/

namespace PromptPipeline

/-! ## Declarations -/

/-- The declarations among commands, in order. -/
def declarations (commands : List Command) : List Declaration :=
  commands.filterMap Command.declaration?

/-- The first description that a declaration of the name gives. -/
def firstDescription? (ds : List Declaration) (name : String) : Option String :=
  (ds.filter (·.name == name)).findSome? (·.description)

/-- The parameters are what the declarations say together. -/
structure Merges (ds : List Declaration) (ps : List Parameter) : Prop where
  names : ps.map (·.name) = (ds.map (·.name)).eraseDups
  facets : ∀ p ∈ ps, ∀ d ∈ ds, d.name = p.name → d.isInput = p.isInput ∧ d.isOutput = p.isOutput
  description : ∀ p ∈ ps, p.description = firstDescription? ds p.name

theorem firstDescription?_concat (ds : List Declaration) (d : Declaration) (name : String) :
    firstDescription? (ds ++ [d]) name =
      if d.name = name then (firstDescription? ds name).or d.description
      else firstDescription? ds name := by
  unfold firstDescription?
  by_cases hname : d.name = name
  · simp [hname, List.findSome?_append]
  · simp [hname]

namespace Merges

variable {ds : List Declaration} {ps qs : List Parameter} {d : Declaration} {line : Nat}

theorem nil : Merges [] [] where
  names := rfl
  facets := List.forall_mem_nil _
  description := List.forall_mem_nil _

theorem mem_names_iff (h : Merges ds ps) {name : String} :
    (∃ p ∈ ps, p.name = name) ↔ ∃ d ∈ ds, d.name = name := by
  have hmem : name ∈ ps.map (·.name) ↔ name ∈ ds.map (·.name) := by
    rw [h.names, List.mem_eraseDups]
  simpa using hmem

theorem names_nodup (h : Merges ds ps) : (ps.map (·.name)).Nodup := by
  rw [h.names]
  exact nodup_eraseDups _

/-- Declarations of one name have the same facets. -/
theorem agree (h : Merges ds ps) {e : Declaration} (hd : d ∈ ds) (he : e ∈ ds)
    (hname : d.name = e.name) : d.isInput = e.isInput ∧ d.isOutput = e.isOutput := by
  obtain ⟨p, hp, hpname⟩ := h.mem_names_iff.mpr ⟨e, he, rfl⟩
  obtain ⟨hinput, houtput⟩ := h.facets p hp d hd (hname.trans hpname.symm)
  obtain ⟨hinput', houtput'⟩ := h.facets p hp e he hpname.symm
  exact ⟨hinput.trans hinput'.symm, houtput.trans houtput'.symm⟩

/-- The name is new: the declaration goes to the end. -/
theorem new (h : Merges ds ps) (hnew : ∀ p ∈ ps, p.name ≠ d.name) :
    Merges (ds ++ [d]) (ps ++ [d.toParameter]) := by
  have hfirst : ∀ e ∈ ds, e.name ≠ d.name := by
    intro e he hname
    obtain ⟨p, hp, hpname⟩ := h.mem_names_iff.mpr ⟨e, he, hname⟩
    exact hnew p hp hpname
  refine ⟨?_, List.forall_mem_append.mpr ⟨fun p hp => ?_, List.forall_mem_singleton.mpr ?_⟩,
    List.forall_mem_append.mpr ⟨fun p hp => ?_, List.forall_mem_singleton.mpr ?_⟩⟩
  · have hnotMem : d.name ∉ ds.map (·.name) := by simpa using hfirst
    rw [List.map_append, List.map_append, h.names, List.map_singleton, List.map_singleton,
      eraseDups_concat, if_neg hnotMem]
    rfl
  · refine List.forall_mem_append.mpr ⟨h.facets p hp, List.forall_mem_singleton.mpr fun hname => ?_⟩
    exact absurd hname.symm (hnew p hp)
  · exact List.forall_mem_append.mpr ⟨fun e he hname => absurd hname (hfirst e he),
      List.forall_mem_singleton.mpr fun _ => ⟨rfl, rfl⟩⟩
  · rw [firstDescription?_concat, if_neg (hnew p hp).symm]
    exact h.description p hp
  · have hnone : firstDescription? ds d.name = none := by
      unfold firstDescription?
      rw [List.filter_eq_nil_iff.mpr (by simpa using hfirst), List.findSome?_nil]
    show d.description = firstDescription? (ds ++ [d]) d.name
    rw [firstDescription?_concat, if_pos rfl, hnone, Option.none_or]

/-- The name is declared: the facets are the same, and a description counts if it is the first. -/
theorem again {before after : List Parameter} {p : Parameter}
    (h : Merges ds (before ++ p :: after)) (hname : p.name = d.name) (hinput : d.isInput = p.isInput)
    (houtput : d.isOutput = p.isOutput) :
    Merges (ds ++ [d])
      (before ++ { p with description := p.description.or d.description } :: after) := by
  have hmem : p ∈ before ++ p :: after := List.mem_append_right _ List.mem_cons_self
  have hothers : ∀ q ∈ before ++ after, q ∈ before ++ p :: after ∧ q.name ≠ d.name := by
    have hnodup := h.names_nodup
    rw [List.map_append, List.map_cons, List.nodup_middle, ← List.map_append] at hnodup
    have hnotMem := (List.nodup_cons.mp hnodup).1
    intro q hq
    refine ⟨by simp at hq ⊢; tauto, fun hqname => hnotMem ?_⟩
    rw [hname, ← hqname]
    exact List.mem_map_of_mem hq
  have hall {P : Parameter → Prop} {p' : Parameter} (hp : P p') (hrest : ∀ q ∈ before ++ after, P q) :
      ∀ q ∈ before ++ p' :: after, P q := by
    obtain ⟨hbefore, hafter⟩ := List.forall_mem_append.mp hrest
    exact List.forall_mem_append.mpr ⟨hbefore, List.forall_mem_cons.mpr ⟨hp, hafter⟩⟩
  refine ⟨?_, hall ?_ fun q hq => ?_, hall ?_ fun q hq => ?_⟩
  · have hdeclared : d.name ∈ ds.map (·.name) := by
      obtain ⟨e, he, hename⟩ := h.mem_names_iff.mp ⟨p, hmem, hname⟩
      exact hename ▸ List.mem_map_of_mem he
    have hnames := h.names
    rw [List.map_append, List.map_cons] at hnames
    rw [List.map_append, List.map_cons, hnames, List.map_append, List.map_singleton,
      eraseDups_concat, if_pos hdeclared]
  · exact List.forall_mem_append.mpr ⟨h.facets p hmem,
      List.forall_mem_singleton.mpr fun _ => ⟨hinput, houtput⟩⟩
  · obtain ⟨hq, hne⟩ := hothers q hq
    exact List.forall_mem_append.mpr ⟨h.facets q hq,
      List.forall_mem_singleton.mpr fun hqname => absurd hqname.symm hne⟩
  · show p.description.or d.description = firstDescription? (ds ++ [d]) p.name
    rw [firstDescription?_concat, if_pos hname.symm, h.description p hmem]
  · obtain ⟨hq, hne⟩ := hothers q hq
    rw [firstDescription?_concat, if_neg hne.symm]
    exact h.description q hq

/-- A declaration more is merged with those before. -/
theorem declare (h : Merges ds ps) (hdeclare : declare ps d line = .ok qs) :
    Merges (ds ++ [d]) qs := by
  rcases declare_cases hdeclare with ⟨hnew, rfl⟩ | ⟨before, p, after, rfl, hname, hinput, houtput, rfl⟩
  · exact h.new hnew
  · exact h.again hname hinput houtput

end Merges

/-! ## Blocks -/

theorem declarations_append (before after : List Command) :
    declarations (before ++ after) = declarations before ++ declarations after :=
  List.filterMap_append

/-- The declaration of a list item. -/
def Content.declaration? (c : Content) : Option Declaration :=
  c.command?.bind Command.declaration?

theorem declarations_commands (contents : List Content) :
    declarations (Content.commands contents) = contents.filterMap Content.declaration? :=
  List.filterMap_filterMap

theorem declarations_cons (c : Content) (contents : List Content) :
    declarations (Content.commands (c :: contents)) =
      c.declaration?.toList ++ declarations (Content.commands contents) := by
  simp only [declarations_commands, filterMap_cons_eq_append]

/-- What a block does to the parameters: it declares one, or leaves them. -/
inductive Content.Updates (c : Content) (ps : List Parameter) : List Parameter → Prop
  | declares {d : Declaration} {line : Nat} {qs : List Parameter}
    (hc : c.declaration? = some d) (h : declare ps d line = .ok qs) : Updates c ps qs
  | keeps (hc : c.declaration? = none) : Updates c ps ps

/-- The parameters after a block are those of its declaration and of all before it. -/
theorem Content.Updates.merges {c : Content} {ps qs : List Parameter} (hc : c.Updates ps qs)
    {ds : List Declaration} (h : Merges ds ps) : Merges (ds ++ c.declaration?.toList) qs := by
  cases hc with
  | declares hc hdeclare =>
    rw [hc]
    exact h.declare hdeclare
  | keeps hc =>
    rw [hc, Option.toList_none, List.append_nil]
    exact h

/-- A list item declares what its command does. -/
theorem Content.declaration?_item {text : String} {command : Command}
    (h : Command.ofItem text = .ok command) (line : Nat) :
    (Content.item text line).declaration? = command.declaration? := by
  unfold declaration?
  rw [command?_item h]
  rfl

theorem Header.updates_of_read {h h' : Header} {c : Content} (hread : h.read c = .ok h') :
    c.Updates h.parameters h'.parameters := by
  cases read_eq_ok_iff.mp hread with
  | parameter hitem hdeclare => exact .declares (Content.declaration?_item hitem _) hdeclare
  | url hitem | version hitem | model hitem => exact .keeps (Content.declaration?_item hitem _)
  | paragraph => exact .keeps rfl

theorem Draft.updates_of_read {d d' : Draft} {task : String} {c : Content}
    (hread : Draft.read task d c = .ok d') : c.Updates d.parameters d'.parameters := by
  cases read_eq_ok_iff.mp hread with
  | parameter hitem hdeclare => exact .declares (Content.declaration?_item hitem _) hdeclare
  | execute hitem | model hitem | joker hitem | postprocess hitem | expect hitem =>
    exact .keeps (Content.declaration?_item hitem _)
  | paragraph | code | arrow => exact .keeps rfl

/-! ## Header and sections -/

/-- The parameters after blocks that are read one after the other. -/
theorem merges_of_foldlM {β : Type} {f : β → Content → Result β} {parameters : β → List Parameter}
    (hf : ∀ b c b', f b c = .ok b' → c.Updates (parameters b) (parameters b'))
    {outer : List Declaration} {contents : List Content} {b b' : β} (hb : Merges outer (parameters b))
    (h : contents.foldlM f b = .ok b') :
    Merges (outer ++ declarations (Content.commands contents)) (parameters b') := by
  induction contents generalizing outer b with
  | nil =>
    cases h
    show Merges (outer ++ []) _
    rwa [List.append_nil]
  | cons c rest ih =>
    obtain ⟨d, hread, hrest⟩ := foldlM_cons_eq_ok_iff.mp h
    rw [declarations_cons, ← List.append_assoc]
    exact ih ((hf b c d hread).merges hb) hrest

/-- The parameters after the header. -/
theorem Header.merges_of_foldlM {contents : List Content} {h : Header}
    (hread : contents.foldlM Header.read {} = .ok h) :
    Merges (declarations (Content.commands contents)) h.parameters := by
  have hmerges : Merges ([] ++ declarations (Content.commands contents)) h.parameters :=
    PromptPipeline.merges_of_foldlM (fun _ _ _ => updates_of_read) .nil hread
  exact hmerges

/-- The parameters after a section. -/
theorem Section.merges_of_toTask {s : Section} {model : ModelSetting} {ps qs : List Parameter}
    {t : Task} {outer : List Declaration} (h : s.toTask model ps = .ok (t, qs))
    (hps : Merges outer ps) : Merges (outer ++ declarations s.commands) qs := by
  obtain ⟨-, draft, hread, -, rfl⟩ := toTask_eq_ok_iff.mp h
  exact merges_of_foldlM (fun _ _ _ => Draft.updates_of_read) hps hread

/-- The parameters after all sections. -/
theorem merges_of_sectionTasks {model : ModelSetting} {ps qs : List Parameter}
    {sections : List Section} {ts : List Task} {outer : List Declaration}
    (h : sectionTasks model ps sections = .ok (ts, qs)) (hps : Merges outer ps) :
    Merges (outer ++ declarations (sections.flatMap Section.commands)) qs := by
  induction sections generalizing ps ts outer with
  | nil =>
    cases h
    show Merges (outer ++ []) qs
    rwa [List.append_nil]
  | cons s rest ih =>
    obtain ⟨t, ps', ts', htask, hrest, rfl⟩ := sectionTasks_cons_eq_ok_iff.mp h
    rw [List.flatMap_cons, declarations_append, ← List.append_assoc]
    exact ih hrest (s.merges_of_toTask htask hps)

/-! ## Results -/

/-- The results that no parameter declares, each one where it comes first. -/
def undeclaredResults (ps : List Parameter) (tasks : List Task) : List String :=
  ((tasks.map (·.result)).filter (· ∉ ps.map (·.name))).eraseDups

/-- Results that nothing declares go to the end, as parameters that are neither given nor given
back. -/
theorem withResults_eq (ps : List Parameter) (tasks : List Task) :
    withResults ps tasks =
      ps ++ (undeclaredResults ps tasks).map fun name => { name : Parameter } := by
  induction tasks generalizing ps with
  | nil => simp [withResults, undeclaredResults]
  | cons t rest ih =>
    rw [withResults_cons]
    split
    next hany =>
      have hmem : t.result ∈ ps.map (·.name) := by simpa using hany
      have hskip : undeclaredResults ps (t :: rest) = undeclaredResults ps rest := by
        unfold undeclaredResults
        rw [List.map_cons, List.filter_cons_of_neg (by simpa using hmem)]
      rw [hskip]
      exact ih ps
    next hnone =>
      have hnew : t.result ∉ ps.map (·.name) := by simpa using hnone
      have hfirst : undeclaredResults ps (t :: rest) =
          t.result :: undeclaredResults (ps ++ [{ name := t.result }]) rest := by
        unfold undeclaredResults
        rw [List.map_cons, List.filter_cons_of_pos (by simpa using hnew), List.eraseDups_cons,
          List.filter_filter]
        congr 2
        refine List.filter_congr fun name _ => Bool.eq_iff_iff.mpr ?_
        simp [and_comm]
      rw [ih, hfirst, List.append_assoc]
      rfl

/-! ## Sources -/

/-- **The parameters of a source that compiles are what its declarations say together**, in the
order in which their names come first, and behind them the results that it does not declare. A
source with two declarations of one name that differ in a facet does not compile, wherever they
stand. -/
theorem Pipeline.parameters_merged (source : String) :
    (∀ p, ofSource source = .ok p → ∃ blocks declared, Block.ofSource source = .ok blocks ∧
      Merges (declarations (Block.commands blocks)) declared ∧
      p.parameters =
        declared ++ (undeclaredResults declared p.tasks).map fun name => { name : Parameter }) ∧
    ∀ blocks, Block.ofSource source = .ok blocks →
      ∀ d ∈ declarations (Block.commands blocks), ∀ e ∈ declarations (Block.commands blocks),
        d.name = e.name → (d.isInput ≠ e.isInput ∨ d.isOutput ≠ e.isOutput) →
          ∃ fault, ofSource source = .error fault := by
  have hmerges (p : Pipeline) (h : ofSource source = .ok p) :
      ∃ blocks declared, Block.ofSource source = .ok blocks ∧
        Merges (declarations (Block.commands blocks)) declared ∧
        p.parameters = withResults declared p.tasks := by
    obtain ⟨blocks, o, hblocks, ho, hp⟩ := ofSource_eq_ok_iff.mp h
    obtain ⟨header, version, tasks, declared, hheader, -, htasks, -, rfl⟩ :=
      ofOutline_eq_ok_iff.mp hp
    obtain ⟨title, below, rfl, ⟨text, line, rfl⟩, hgroups⟩ := Outline.outlined_of_ofBlocks ho
    refine ⟨_, declared, hblocks, ?_, rfl⟩
    rw [Block.commands_cons, hgroups.commands_eq]
    show Merges (declarations (Content.commands o.preamble ++ o.sections.flatMap Section.commands))
      declared
    rw [declarations_append]
    exact merges_of_sectionTasks htasks (Header.merges_of_foldlM hheader)
  refine ⟨fun p h => ?_, fun blocks hblocks d hd e he hname hfacets => ?_⟩
  · obtain ⟨blocks, declared, hblocks, hdeclared, hparameters⟩ := hmerges p h
    exact ⟨blocks, declared, hblocks, hdeclared, hparameters.trans (withResults_eq _ _)⟩
  · cases h : ofSource source with
    | error fault => exact ⟨fault, rfl⟩
    | ok p =>
      obtain ⟨blocks', declared, hblocks', hdeclared, -⟩ := hmerges p h
      cases hblocks.symm.trans hblocks'
      obtain ⟨hinput, houtput⟩ := hdeclared.agree hd he hname
      rcases hfacets with hne | hne
      · exact absurd hinput hne
      · exact absurd houtput hne

/-- A source with a parameter that its header declares without a description and its section, as
`facets` say, with one. -/
def Pipeline.guestSource (facets : String) : String :=
  "# Welcome\n- PROMPTBOOK VERSION 1.0.0\n- INPUT PARAMETER \x7bguest\x7d\n" ++
    "## Greet\n- " ++ facets ++ " PARAMETER \x7bguest\x7d - who comes\n" ++
    "- EXECUTE SIMPLE TEMPLATE\n```\nWelcome \x7bguest\x7d\n```\n-> \x7bgreeting\x7d\n"

/-- The parameters of this source: the declaration of the section gives the description, and the
result is added. -/
def Pipeline.guestParameters : List Parameter :=
  [{ name := "guest", description := some "who comes", isInput := true }, { name := "greeting" }]

/-- The source compiles where the section declares an input, as the header does, but not where it
declares an output. -/
theorem Pipeline.guest_declared_twice :
    (∃ p, ofSource (guestSource "INPUT") = .ok p ∧ p.parameters = guestParameters ∧
      ∃ blocks declared, Block.ofSource (guestSource "INPUT") = .ok blocks ∧
        Merges (declarations (Block.commands blocks)) declared) ∧
    ∃ fault, ofSource (guestSource "OUTPUT") = .error fault := by
  have hinput : (ofSource (guestSource "INPUT")).map (·.parameters) = .ok guestParameters := by
    decide +kernel
  have houtput : (Block.ofSource (guestSource "OUTPUT")).map (declarations ∘ Block.commands) =
      .ok [⟨"guest", none, true, false⟩, ⟨"guest", some "who comes", false, true⟩] := by
    decide +kernel
  obtain ⟨p, hp, hparameters⟩ := map_eq_ok_iff.mp hinput
  obtain ⟨blocks, hblocks, hdeclarations⟩ := map_eq_ok_iff.mp houtput
  obtain ⟨blocks', declared, hblocks', hdeclared, -⟩ := (parameters_merged _).1 p hp
  refine ⟨⟨p, hp, hparameters, blocks', declared, hblocks', hdeclared⟩, ?_⟩
  refine (parameters_merged _).2 blocks hblocks ⟨"guest", none, true, false⟩ ?_
    ⟨"guest", some "who comes", false, true⟩ ?_ rfl (.inl nofun)
  · rw [Function.comp_apply] at hdeclarations
    rw [hdeclarations]
    exact List.mem_cons_self
  · rw [Function.comp_apply] at hdeclarations
    rw [hdeclarations]
    exact List.mem_cons_of_mem _ List.mem_cons_self

end PromptPipeline
