import Mathlib.Data.List.Perm.Basic
import PromptPipeline.Proofs.Dialect.Concatenation
import PromptPipeline.Proofs.Dialect.Declarations
import PromptPipeline.Proofs.Dialect.Sections

/-!
# Sections in another order

Sections do not interfere. What one section leaves to the next are the declared parameters, and a
section looks at them only to refuse a declaration that is at variance with an earlier one. So a
section makes the same task wherever it stands (`Section.exists_toTask_renumber`), as long as the
declarations before it and its own are consistent (`Consistent`); and whether all declarations of a
source are consistent does not depend on their order. Neither do the parameters that they declare,
but for the order and the descriptions (`perm_undescribed_withResults`).

Main statement: `Pipeline.sections_exchange`.
-/

namespace PromptPipeline

/-! ## Declarations -/

/-- Declarations of one name have the same facets. -/
def Consistent (ds : List Declaration) : Prop :=
  ∀ d ∈ ds, ∀ e ∈ ds, d.name = e.name → d.isInput = e.isInput ∧ d.isOutput = e.isOutput

theorem Consistent.mono {ds es : List Declaration} (h : Consistent ds) (hsubset : es ⊆ ds) :
    Consistent es :=
  fun d hd e he => h d (hsubset hd) e (hsubset he)

namespace Merges

variable {ds es : List Declaration} {ps qs : List Parameter} {d : Declaration}

theorem consistent (h : Merges ds ps) : Consistent ds :=
  fun _ hd _ he => h.agree hd he

/-- A declaration that is consistent with those before is accepted. -/
theorem exists_declare (h : Merges ds ps) (hd : Consistent (ds ++ [d])) (line : Nat) :
    ∃ qs, PromptPipeline.declare ps d line = .ok qs := by
  cases hdeclare : PromptPipeline.declare ps d line with
  | ok qs => exact ⟨qs, rfl⟩
  | error fault =>
    obtain ⟨-, p, hp, hname, hfacets⟩ := of_declare_eq_error hdeclare
    obtain ⟨e, he, hename⟩ := h.mem_names_iff.mp ⟨p, hp, rfl⟩
    obtain ⟨hinput, houtput⟩ := h.facets p hp e he hename
    obtain ⟨hinput', houtput'⟩ :=
      hd e (List.mem_append_left _ he) d (List.mem_append_right _ List.mem_cons_self)
        (hename.trans hname)
    rcases hfacets with hne | hne
    · exact absurd (hinput.symm.trans hinput') hne
    · exact absurd (houtput.symm.trans houtput') hne

theorem eq_nil_iff (h : Merges ds ps) : ps = [] ↔ ds = [] := by
  have hempty : (∀ p, p ∉ ps) ↔ ∀ d, d ∉ ds := by
    constructor
    · intro hnone d hd
      obtain ⟨p, hp, -⟩ := h.mem_names_iff.mpr ⟨d, hd, rfl⟩
      exact hnone p hp
    · intro hnone p hp
      obtain ⟨d, hd, -⟩ := h.mem_names_iff.mp ⟨p, hp, rfl⟩
      exact hnone d hd
  rw [List.eq_nil_iff_forall_not_mem, List.eq_nil_iff_forall_not_mem]
  exact hempty

end Merges

/-! ## Sections elsewhere -/

/-- The code with another number for its line. -/
def CodeBlock.renumber (f : Nat → Nat) (code : CodeBlock) : CodeBlock :=
  { code with line := f code.line }

/-- The draft of a section with other numbers for its lines, behind other declarations. -/
def Draft.moved (f : Nat → Nat) (ps : List Parameter) (d : Draft) : Draft :=
  { d with parameters := ps, code := d.code.map (.renumber f) }

theorem Content.declaration?_renumber (f : Nat → Nat) (c : Content) :
    (c.renumber f).declaration? = c.declaration? := by
  cases c <;> rfl

theorem ModelSetting.apply_of_eq_ok {setting set : ModelSetting} {m : ModelCommand} {line : Nat}
    (h : setting.apply m line = .ok set) (line' : Nat) : setting.apply m line' = .ok set := by
  unfold apply at h ⊢
  split at h
  next => cases h
  next hset =>
    rw [if_neg hset]
    exact h

theorem contentDependencies_renumber {type : ExecutionType} {code : CodeBlock} {names : NameSet}
    (h : contentDependencies type code = .ok names) (f : Nat → Nat) :
    contentDependencies type (code.renumber f) = .ok names := by
  cases type with
  | promptTemplate | simpleTemplate | promptDialog => exact h
  | script =>
    simp only [contentDependencies] at h
    split at h
    next language hlanguage =>
      simp only [contentDependencies, CodeBlock.renumber, hlanguage]
      exact h
    next => cases h

theorem taskRequirements_of_eq_ok {type : ExecutionType} {model : ModelSetting} {task : String}
    {line : Nat} {requirements : Option ModelRequirements}
    (h : taskRequirements type model task line = .ok requirements) (line' : Nat) :
    taskRequirements type model task line' = .ok requirements := by
  cases type with
  | promptTemplate => exact h
  | simpleTemplate | script | promptDialog =>
    simp only [taskRequirements] at h ⊢
    split at h
    next hset =>
      rw [if_pos hset]
      exact h
    next => cases h

namespace Draft

variable {d d' : Draft} {ps : List Parameter} {task : String} {c : Content}

/-- A block is read elsewhere as well, if it makes no declaration or one that is accepted. -/
theorem Reads.exists_moved (f : Nat → Nat) (h : d.Reads c d')
    (hps : ∀ declaration, c.declaration? = some declaration →
      ∃ qs, declare ps declaration (f c.line) = .ok qs) :
    ∃ qs, (d.moved f ps).Reads (c.renumber f) (d'.moved f qs) := by
  cases h with
  | execute hitem hnew => exact ⟨ps, .execute hitem hnew⟩
  | model hitem happly => exact ⟨ps, .model hitem (ModelSetting.apply_of_eq_ok happly _)⟩
  | joker hitem => exact ⟨ps, .joker hitem⟩
  | parameter hitem =>
    obtain ⟨qs, hqs⟩ := hps _ (Content.declaration?_item hitem _)
    exact ⟨qs, .parameter hitem hqs⟩
  | postprocess hitem => exact ⟨ps, .postprocess hitem⟩
  | expect hitem => exact ⟨ps, .expect hitem⟩
  | paragraph => exact ⟨ps, .paragraph⟩
  | code hnew =>
    have hnew' : (d.moved f ps).code = none := by
      show d.code.map _ = none
      rw [hnew, Option.map_none]
    exact ⟨ps, .code hnew'⟩
  | arrow hnew hcode hname hvalid =>
    have hcode' : (d.moved f ps).code.isSome = true := by
      show (d.code.map _).isSome = true
      rw [Option.isSome_map, hcode]
    exact ⟨ps, .arrow hnew hcode' hname hvalid⟩

/-- So are all blocks of a section, behind declarations that are consistent with its own. -/
theorem exists_foldlM_moved (f : Nat → Nat) {contents : List Content} {outer : List Declaration}
    (h : contents.foldlM (Draft.read task) d = .ok d') (hps : Merges outer ps)
    (hconsistent : Consistent (outer ++ declarations (Content.commands contents))) :
    ∃ qs, (contents.map (.renumber f)).foldlM (Draft.read task) (d.moved f ps) =
      .ok (d'.moved f qs) := by
  induction contents generalizing d ps outer with
  | nil =>
    cases h
    exact ⟨ps, rfl⟩
  | cons c rest ih =>
    obtain ⟨e, hread, hrest⟩ := foldlM_cons_eq_ok_iff.mp h
    -- the declaration of the first block is one of those before the rest
    rw [declarations_cons, ← List.append_assoc] at hconsistent
    have haccepted : ∀ declaration, c.declaration? = some declaration →
        ∃ qs, declare ps declaration (f c.line) = .ok qs := by
      intro declaration hc
      rw [hc] at hconsistent
      exact hps.exists_declare (hconsistent.mono (List.subset_append_left _ _)) _
    obtain ⟨qs, hreads⟩ := (read_eq_ok_iff.mp hread).exists_moved f haccepted
    have hqs : Draft.read task (d.moved f ps) (c.renumber f) = .ok (e.moved f qs) :=
      read_eq_ok_iff.mpr hreads
    have hmerges : Merges (outer ++ c.declaration?.toList) qs := by
      have hupdates := (updates_of_read hqs).merges hps
      rwa [Content.declaration?_renumber] at hupdates
    obtain ⟨rs, hrs⟩ := ih hrest hmerges hconsistent
    exact ⟨rs, foldlM_cons_eq_ok_iff.mpr ⟨_, hqs, hrs⟩⟩

theorem toTask_moved {name : String} {s : Section} {t : Task} (h : d.toTask name s = .ok t)
    (f : Nat → Nat) : (d.moved f ps).toTask name (s.renumber f) = .ok t := by
  obtain ⟨code, result, dependencies, requirements, hcode, hresult, hdependencies, hrequirements,
    rfl⟩ := toTask_eq_ok_iff.mp h
  have hcode' : (d.moved f ps).code = some (code.renumber f) := by
    show d.code.map _ = _
    rw [hcode, Option.map_some]
  exact toTask_eq_ok_iff.mpr ⟨_, result, dependencies, requirements, hcode', hresult,
    contentDependencies_renumber hdependencies f, taskRequirements_of_eq_ok hrequirements _, rfl⟩

end Draft

/-- **A section makes the same task elsewhere**, behind declarations that are consistent with its
own. -/
theorem Section.exists_toTask_renumber {s : Section} {model : ModelSetting}
    {ps ps' qs : List Parameter} {t : Task} {outer : List Declaration} (f : Nat → Nat)
    (h : s.toTask model ps = .ok (t, qs)) (hps' : Merges outer ps')
    (hconsistent : Consistent (outer ++ declarations s.commands)) :
    ∃ qs', (s.renumber f).toTask model ps' = .ok (t, qs') := by
  obtain ⟨hname, d, hread, htask, -⟩ := toTask_eq_ok_iff.mp h
  obtain ⟨qs', hqs'⟩ := Draft.exists_foldlM_moved f hread hps' hconsistent
  exact ⟨qs', toTask_eq_ok_iff.mpr ⟨hname, _, hqs', Draft.toTask_moved htask f, rfl⟩⟩

theorem Section.declarations_renumber (f : Nat → Nat) (s : Section) :
    declarations (s.renumber f).commands = declarations s.commands := by
  unfold commands renumber
  rw [declarations_commands, declarations_commands, List.filterMap_map]
  exact congrArg (List.filterMap · s.contents) (funext (Content.declaration?_renumber f))

/-! ## Two sections -/

/-- The declarations of two sections. -/
theorem Section.declarations_pair (a b : Section) :
    declarations ([a, b].flatMap commands) = declarations a.commands ++ declarations b.commands := by
  rw [List.flatMap_cons, List.flatMap_singleton, declarations_append]

theorem sectionTasks_append_eq_ok_iff {model : ModelSetting} {ps qs : List Parameter}
    {sections more : List Section} {ts : List Task} :
    sectionTasks model ps (sections ++ more) = .ok (ts, qs) ↔
      ∃ ts₁ rs ts₂, sectionTasks model ps sections = .ok (ts₁, rs) ∧
        sectionTasks model rs more = .ok (ts₂, qs) ∧ ts = ts₁ ++ ts₂ := by
  induction sections generalizing ps ts with
  | nil =>
    constructor
    · intro h
      exact ⟨[], ps, ts, rfl, h, rfl⟩
    · rintro ⟨_, _, ts₂, hnil, hmore, rfl⟩
      cases hnil
      exact hmore
  | cons s rest ih =>
    rw [List.cons_append, sectionTasks_cons_eq_ok_iff]
    constructor
    · rintro ⟨t, ps', _, htask, hall, rfl⟩
      obtain ⟨ts₁, rs, ts₂, hrest, hmore, rfl⟩ := ih.mp hall
      exact ⟨t :: ts₁, rs, ts₂,
        sectionTasks_cons_eq_ok_iff.mpr ⟨t, ps', ts₁, htask, hrest, rfl⟩, hmore, rfl⟩
    · rintro ⟨_, rs, ts₂, hsections, hmore, rfl⟩
      obtain ⟨t, ps', ts₁, htask, hrest, rfl⟩ := sectionTasks_cons_eq_ok_iff.mp hsections
      exact ⟨t, ps', ts₁ ++ ts₂, htask, ih.mpr ⟨ts₁, rs, ts₂, hrest, hmore, rfl⟩, rfl⟩

theorem sectionTasks_pair_eq_ok_iff {model : ModelSetting} {ps qs : List Parameter} {a b : Section}
    {ts : List Task} : sectionTasks model ps [a, b] = .ok (ts, qs) ↔ ∃ t₁ rs t₂,
      a.toTask model ps = .ok (t₁, rs) ∧ b.toTask model rs = .ok (t₂, qs) ∧ ts = [t₁, t₂] := by
  constructor
  · intro h
    obtain ⟨t₁, rs, _, h₁, hrest, rfl⟩ := sectionTasks_cons_eq_ok_iff.mp h
    obtain ⟨t₂, _, _, h₂, hnil, rfl⟩ := sectionTasks_cons_eq_ok_iff.mp hrest
    cases hnil
    exact ⟨t₁, rs, t₂, h₁, h₂, rfl⟩
  · rintro ⟨t₁, rs, t₂, h₁, h₂, rfl⟩
    have hlast : sectionTasks model rs [b] = .ok ([t₂], qs) :=
      sectionTasks_cons_eq_ok_iff.mpr ⟨t₂, qs, [], h₂, rfl, rfl⟩
    exact sectionTasks_cons_eq_ok_iff.mpr ⟨t₁, rs, [t₂], h₁, hlast, rfl⟩

/-- Two sections make the same tasks in the other order. -/
theorem exists_sectionTasks_exchanged {model : ModelSetting} {ps qs : List Parameter} {a b : Section}
    {ts : List Task} {outer : List Declaration} (f g : Nat → Nat) (hps : Merges outer ps)
    (h : sectionTasks model ps [a, b] = .ok (ts, qs)) :
    ∃ t₁ t₂ qs', ts = [t₁, t₂] ∧
      sectionTasks model ps [b.renumber g, a.renumber f] = .ok ([t₂, t₁], qs') := by
  have hconsistent := (merges_of_sectionTasks h hps).consistent
  obtain ⟨t₁, rs, t₂, h₁, h₂, rfl⟩ := sectionTasks_pair_eq_ok_iff.mp h
  rw [Section.declarations_pair] at hconsistent
  have hsecond : Consistent (outer ++ declarations b.commands) :=
    hconsistent.mono (List.Sublist.append_left (List.sublist_append_right _ _) outer).subset
  obtain ⟨rs', h₂'⟩ := b.exists_toTask_renumber g h₂ hps hsecond
  have hrs' := (b.renumber g).merges_of_toTask h₂' hps
  rw [Section.declarations_renumber] at hrs'
  have hboth : Consistent (outer ++ declarations b.commands ++ declarations a.commands) := by
    rw [List.append_assoc]
    exact hconsistent.mono (List.perm_append_comm.append_left outer).subset
  obtain ⟨qs', h₁'⟩ := a.exists_toTask_renumber f h₁ hrs' hboth
  exact ⟨t₁, t₂, qs', rfl, sectionTasks_pair_eq_ok_iff.mpr ⟨t₂, rs', t₁, h₂', h₁', rfl⟩⟩

/-! ## Parameters -/

/-- The parameter without its description. -/
def Parameter.undescribed (p : Parameter) : Parameter :=
  { p with description := none }

/-- The declared parameters are those of the declarations, but for the descriptions. -/
theorem Merges.mem_undescribed_iff {ds : List Declaration} {ps : List Parameter} (h : Merges ds ps)
    {p : Parameter} :
    p ∈ ps.map Parameter.undescribed ↔ ∃ d ∈ ds, d.toParameter.undescribed = p := by
  have heq (q : Parameter) (hq : q ∈ ps) (d : Declaration) (hd : d ∈ ds) (hname : d.name = q.name) :
      d.toParameter.undescribed = q.undescribed := by
    obtain ⟨hinput, houtput⟩ := h.facets q hq d hd hname
    unfold Declaration.toParameter Parameter.undescribed
    rw [hname, hinput, houtput]
  rw [List.mem_map]
  constructor
  · rintro ⟨q, hq, rfl⟩
    obtain ⟨d, hd, hname⟩ := h.mem_names_iff.mp ⟨q, hq, rfl⟩
    exact ⟨d, hd, heq q hq d hd hname⟩
  · rintro ⟨d, hd, rfl⟩
    obtain ⟨q, hq, hname⟩ := h.mem_names_iff.mpr ⟨d, hd, rfl⟩
    exact ⟨q, hq, (heq q hq d hd hname.symm).symm⟩

/-- The parameters of a pipeline are those of its declarations, and results that no declaration
names. -/
theorem Merges.mem_undescribed_withResults_iff {ds : List Declaration} {ps : List Parameter}
    (h : Merges ds ps) {ts : List Task} {p : Parameter} :
    p ∈ (withResults ps ts).map Parameter.undescribed ↔
      (∃ d ∈ ds, d.toParameter.undescribed = p) ∨
        ∃ t ∈ ts, (∀ d ∈ ds, d.name ≠ t.result) ∧ p = { name := t.result } := by
  have hnames (name : String) : name ∉ ps.map (·.name) ↔ ∀ d ∈ ds, d.name ≠ name := by
    have hiff : (∃ q ∈ ps, q.name = name) ↔ ∃ d ∈ ds, d.name = name := h.mem_names_iff
    simpa using not_congr hiff
  rw [withResults_eq, List.map_append, List.mem_append, h.mem_undescribed_iff]
  refine or_congr Iff.rfl ?_
  unfold undeclaredResults
  simp only [List.map_map, List.mem_map, List.mem_eraseDups, List.mem_filter, decide_eq_true_eq]
  constructor
  · rintro ⟨_, ⟨⟨t, ht, rfl⟩, hnew⟩, rfl⟩
    exact ⟨t, ht, (hnames t.result).mp (by simpa using hnew), rfl⟩
  · rintro ⟨t, ht, hnew, rfl⟩
    exact ⟨t.result, ⟨⟨t, ht, rfl⟩, by simpa using (hnames t.result).mpr hnew⟩, rfl⟩

/-- The order of declarations and tasks has no say in the parameters, but for their order and their
descriptions. -/
theorem perm_undescribed_withResults {ds es : List Declaration} {ps qs : List Parameter}
    {ts us : List Task} (hps : Merges ds ps) (hqs : Merges es qs) (hds : ds.Perm es)
    (hts : ts.Perm us) :
    ((withResults ps ts).map Parameter.undescribed).Perm
      ((withResults qs us).map Parameter.undescribed) := by
  have hnodup {ds : List Declaration} {ps : List Parameter} (h : Merges ds ps) (ts : List Task) :
      ((withResults ps ts).map Parameter.undescribed).Nodup := by
    refine List.Nodup.of_map (·.name) ?_
    rw [List.map_map]
    exact (withResults_declares ts h.names_nodup).2.1
  rw [List.perm_ext_iff_of_nodup (hnodup hps ts) (hnodup hqs us)]
  intro p
  simp only [hps.mem_undescribed_withResults_iff, hqs.mem_undescribed_withResults_iff, hds.mem_iff,
    hts.mem_iff]

/-! ## Pipelines -/

/-- The pipelines are the same, but for the order of the last two tasks, and the order and the
descriptions of the parameters. -/
structure Pipeline.Exchanged (p q : Pipeline) : Prop where
  url : p.url = q.url
  title : p.title = q.title
  dialectVersion : p.dialectVersion = q.dialectVersion
  description : p.description = q.description
  parameters : (p.parameters.map Parameter.undescribed).Perm (q.parameters.map Parameter.undescribed)
  tasks : ∃ ts t₁ t₂, p.tasks = ts ++ [t₁, t₂] ∧ q.tasks = ts ++ [t₂, t₁]
  knowledge : p.knowledge = q.knowledge

/-- An outline with two more sections makes the same document in the other order. -/
theorem Pipeline.exists_exchanged_of_ofOutline {o : Outline} {a b : Section} {p : Pipeline}
    (f g : Nat → Nat) (h : ofOutline { o with sections := o.sections ++ [a, b] } = .ok p) :
    ∃ q, ofOutline { o with sections := o.sections ++ [b.renumber g, a.renumber f] } = .ok q ∧
      p.Exchanged q := by
  obtain ⟨header, version, ts, ps, hheader, hversion, htasks, hps, rfl⟩ := ofOutline_eq_ok_iff.mp h
  have houter := Header.merges_of_foldlM hheader
  obtain ⟨ts, rs, _, hfirst, hlast, rfl⟩ := sectionTasks_append_eq_ok_iff.mp htasks
  have hrs := merges_of_sectionTasks hfirst houter
  obtain ⟨t₁, t₂, qs, rfl, hexchanged⟩ := exists_sectionTasks_exchanged f g hrs hlast
  have hmerges := merges_of_sectionTasks hlast hrs
  have hmerges' := merges_of_sectionTasks hexchanged hrs
  simp only [Section.declarations_pair, Section.declarations_renumber] at hmerges hmerges'
  have hdeclarations := (@List.perm_append_comm _ (declarations a.commands)
    (declarations b.commands)).append_left (declarations (Content.commands o.preamble) ++
      declarations (o.sections.flatMap Section.commands))
  have hqs : qs ≠ [] := by
    intro hnil
    rw [hmerges'.eq_nil_iff.mp hnil, List.perm_nil] at hdeclarations
    exact hps (hmerges.eq_nil_iff.mpr hdeclarations)
  have htasks' := sectionTasks_append_eq_ok_iff.mpr ⟨ts, rs, [t₂, t₁], hfirst, hexchanged, rfl⟩
  refine ⟨_, ofOutline_eq_ok_iff.mpr ⟨header, version, _, qs, hheader, hversion, htasks', hqs, rfl⟩,
    rfl, rfl, rfl, rfl, ?_, ⟨ts, t₁, t₂, rfl, rfl⟩, rfl⟩
  exact perm_undescribed_withResults hmerges hmerges' hdeclarations
    (List.Perm.append_left ts (List.Perm.swap t₂ t₁ []))

theorem Pipeline.exists_exchanged {text first second : String} {p : Pipeline}
    (hend : text.toList.getLast? = some '\n') (htext : ∃ blocks, Block.ofSource text = .ok blocks)
    (hfirst : IsSectionText first) (hsecond : IsSectionText second)
    (hp : ofSource (text ++ first ++ second) = .ok p) :
    ∃ q, ofSource (text ++ second ++ first) = .ok q ∧ p.Exchanged q := by
  obtain ⟨blocks, hblocks⟩ := htext
  obtain ⟨s₁, h₁⟩ := hfirst.exists_section
  obtain ⟨s₂, h₂⟩ := hsecond.exists_section
  obtain ⟨o, ho, hp⟩ := bind_eq_ok_iff.mp hp
  obtain ⟨o', ho', rfl⟩ := (Outline.ofSource_sections hend hblocks h₁ h₂).mp ho
  -- the first section moves down by the lines of the second one, and this one up
  obtain ⟨q, hq, hexchanged⟩ := exists_exchanged_of_ofOutline
    (· + (Text.lines second.toList).length) (· - (Text.lines first.toList).length) hp
  have hdown : (· + (Text.lines second.toList).length) ∘ (· + (Text.lines text.toList).length) =
      (· + ((Text.lines text.toList).length + (Text.lines second.toList).length)) :=
    funext fun _ => Nat.add_assoc _ _ _
  have hup : (· - (Text.lines first.toList).length) ∘
      (· + ((Text.lines text.toList).length + (Text.lines first.toList).length)) =
        (· + (Text.lines text.toList).length) := by
    funext number
    show number + (_ + _) - _ = number + _
    omega
  rw [Section.renumber_renumber, Section.renumber_renumber, hdown, hup] at hq
  have hother := (Outline.ofSource_sections hend hblocks h₂ h₁).mpr ⟨o', ho', rfl⟩
  exact ⟨q, bind_eq_ok_iff.mpr ⟨_, hother, hq⟩, hexchanged⟩

/-- **Sections do not interfere.** Behind whatever text two sections stand, the source compiles in the
one order if and only if it does in the other, and then to the same document, but for the order of
the two tasks, and the order and the descriptions of the parameters. -/
theorem Pipeline.sections_exchange {text first second : String}
    (hend : text.toList.getLast? = some '\n') (htext : ∃ blocks, Block.ofSource text = .ok blocks)
    (hfirst : IsSectionText first) (hsecond : IsSectionText second) :
    ((∃ p, ofSource (text ++ first ++ second) = .ok p) ↔
      ∃ q, ofSource (text ++ second ++ first) = .ok q) ∧
    ∀ p q, ofSource (text ++ first ++ second) = .ok p → ofSource (text ++ second ++ first) = .ok q →
      p.Exchanged q := by
  refine ⟨⟨?_, ?_⟩, ?_⟩
  · rintro ⟨p, hp⟩
    obtain ⟨q, hq, -⟩ := exists_exchanged hend htext hfirst hsecond hp
    exact ⟨q, hq⟩
  · rintro ⟨q, hq⟩
    obtain ⟨p, hp, -⟩ := exists_exchanged hend htext hsecond hfirst hq
    exact ⟨p, hp⟩
  · intro p q hp hq
    obtain ⟨q', hq', hexchanged⟩ := exists_exchanged hend htext hfirst hsecond hp
    obtain rfl : q' = q := Except.ok.inj (hq'.symm.trans hq)
    exact hexchanged

/-- The header of a source. -/
def Pipeline.letterHeader : String :=
  "# Letter\n- PROMPTBOOK VERSION 1.0.0\n- INPUT PARAMETER \x7bname\x7d\n"

/-- A section for it, which declares its result. -/
def Pipeline.writeSection : String :=
  "## Write\n- OUTPUT PARAMETER \x7bletter\x7d - to send\n" ++
    "```\nDear \x7bname\x7d\n```\n-> \x7bletter\x7d\n"

/-- Another one, which declares this parameter otherwise, but as an output as well. -/
def Pipeline.signSection : String :=
  "## Sign\n- OUTPUT PARAMETER \x7bletter\x7d - to keep\n" ++
    "```\n\x7bletter\x7d\n```\n-> \x7bsigned\x7d\n"

/-- The source compiles with the sections in both orders, to pipelines that differ in the order of
the tasks and in one description. -/
theorem Pipeline.letter_exchanged : ∃ p q,
    ofSource (letterHeader ++ writeSection ++ signSection) = .ok p ∧
    ofSource (letterHeader ++ signSection ++ writeSection) = .ok q ∧ p.Exchanged q ∧
    p.tasks.map (·.name) = ["write", "sign"] ∧ q.tasks.map (·.name) = ["sign", "write"] ∧
    p.parameters.map (·.description) = [none, some "to send", none] ∧
    q.parameters.map (·.description) = [none, some "to keep", none] := by
  have hheader : Block.ofSource letterHeader = .ok [.heading 1 "Letter" 1,
      .item "PROMPTBOOK VERSION 1.0.0" 2, .item "INPUT PARAMETER \x7bname\x7d" 3] := by
    decide +kernel
  have hwrite : Block.ofSource writeSection = .ok [.heading 2 "Write" 1,
      .item "OUTPUT PARAMETER \x7bletter\x7d - to send" 2, .code none "Dear \x7bname\x7d" 3,
      .arrow "-> \x7bletter\x7d" 6] := by
    decide +kernel
  have hsign : Block.ofSource signSection = .ok [.heading 2 "Sign" 1,
      .item "OUTPUT PARAMETER \x7bletter\x7d - to keep" 2, .code none "\x7bletter\x7d" 3,
      .arrow "-> \x7bsigned\x7d" 6] := by
    decide +kernel
  have hfirst : (ofSource (letterHeader ++ writeSection ++ signSection)).map
      (fun p => (p.tasks.map (·.name), p.parameters.map (·.description))) =
        .ok (["write", "sign"], [none, some "to send", none]) := by
    decide +kernel
  have hsecond : (ofSource (letterHeader ++ signSection ++ writeSection)).map
      (fun p => (p.tasks.map (·.name), p.parameters.map (·.description))) =
        .ok (["sign", "write"], [none, some "to keep", none]) := by
    decide +kernel
  obtain ⟨p, hp, hfirst⟩ := map_eq_ok_iff.mp hfirst
  obtain ⟨q, hq, hsecond⟩ := map_eq_ok_iff.mp hsecond
  obtain ⟨-, hexchanged⟩ := sections_exchange (by decide +kernel) ⟨_, hheader⟩
    (.of_blocks hwrite (by decide +kernel) (by simp)) (.of_blocks hsign (by decide +kernel) (by simp))
  have hexchanged := hexchanged p q hp hq
  exact ⟨p, q, hp, hq, hexchanged, (Prod.mk.inj hfirst).1, (Prod.mk.inj hsecond).1,
    (Prod.mk.inj hfirst).2, (Prod.mk.inj hsecond).2⟩

end PromptPipeline
