import Mathlib.Data.List.Nodup
import PromptPipeline.Proofs.Dialect.Stages
import PromptPipeline.Proofs.Dialect.Template

/-!
# What every source guarantees

The parameters of a pipeline are declared in its header, in its sections, and as results of its
tasks. Each declaration extends one list in which no name comes twice (`declare_nodup`); header and
sections keep this block by block. Main statement: `Pipeline.Coherent.of_source`, whatever the
source, the parameters of its pipeline have names of their own, the results are among them, and the
parts of each task fit together.
-/

namespace PromptPipeline

/-! ## Declarations -/

/-- A declaration adds its name at the end, unless it is declared. -/
theorem declare_names {ps qs : List Parameter} {d : Declaration} {line : Nat}
    (h : declare ps d line = .ok qs) :
    qs.map (·.name) = ps.map (·.name) ∨
      d.name ∉ ps.map (·.name) ∧ qs.map (·.name) = ps.map (·.name) ++ [d.name] := by
  rcases declare_cases h with ⟨hnew, rfl⟩ | ⟨before, p, after, rfl, -, -, -, rfl⟩
  · exact .inr ⟨by simpa using hnew, List.map_append⟩
  · exact .inl (by simp)

/-- The names of parameters stay different. -/
theorem declare_nodup {ps qs : List Parameter} {d : Declaration} {line : Nat}
    (h : declare ps d line = .ok qs) (hps : (ps.map (·.name)).Nodup) :
    (qs.map (·.name)).Nodup := by
  rcases declare_names h with hsame | ⟨hnew, hadded⟩
  · rwa [hsame]
  · rw [hadded, List.nodup_append_comm]
    exact List.nodup_cons.mpr ⟨hnew, hps⟩

/-- Each command of the header leaves the names of the declared parameters different. -/
theorem Header.read_nodup {h h' : Header} {content : Content}
    (hnodup : (h.parameters.map (·.name)).Nodup) (hread : h.read content = .ok h') :
    (h'.parameters.map (·.name)).Nodup := by
  cases read_eq_ok_iff.mp hread with
  | parameter _ hdeclare => exact declare_nodup hdeclare hnodup
  | url | version | model | paragraph => exact hnodup

/-! ## Sections -/

namespace Draft

/-- No two parameters have one name, and no joker is listed twice. -/
structure Tidy (d : Draft) : Prop where
  parameters : (d.parameters.map (·.name)).Nodup
  jokers : d.jokers.Nodup

variable {d d' : Draft} {task : String} {content : Content}

/-- Each block of a section leaves its draft tidy. -/
theorem Tidy.read (h : d.Tidy) (hread : Draft.read task d content = .ok d') : d'.Tidy := by
  cases read_eq_ok_iff.mp hread with
  | parameter _ hdeclare => exact ⟨declare_nodup hdeclare h.parameters, h.jokers⟩
  | @joker _ name =>
    refine ⟨h.parameters, ?_⟩
    dsimp only
    split
    next => exact h.jokers
    next hnew =>
      rw [List.nodup_append_comm]
      exact List.nodup_cons.mpr ⟨hnew, h.jokers⟩
  | execute | model | postprocess | expect | paragraph | code | arrow =>
    exact ⟨h.parameters, h.jokers⟩

end Draft

/-! ## Tasks -/

/-- The parts of a task fit together. -/
structure Task.Coherent (t : Task) : Prop where
  template : t.executionType ≠ .script →
    ∀ name, name ∈ t.dependencies ↔ Template.Mentions t.content name
  script : t.executionType = .script → ∃ name language, t.contentLanguage = some name ∧
    ScriptLanguage.ofName? name = some language ∧ t.dependencies = language.freeNames t.content
  requirements : t.modelRequirements.isSome = true ↔ t.executionType = .promptTemplate
  jokers_nodup : t.jokers.Nodup

/-- A template depends on its placeholders. -/
theorem contentDependencies_of_ne {type : ExecutionType} {code : CodeBlock} {names : NameSet}
    (h : contentDependencies type code = .ok names) (htype : type ≠ .script) :
    names = Template.parameters code.content := by
  cases type with
  | script => exact absurd rfl htype
  | promptTemplate | simpleTemplate | promptDialog =>
    cases h
    rfl

/-- A script is in a language that is known, and depends on the names that it reads. -/
theorem exists_of_contentDependencies_script {code : CodeBlock} {names : NameSet}
    (h : contentDependencies .script code = .ok names) :
    ∃ name language, code.language = some name ∧ ScriptLanguage.ofName? name = some language ∧
      names = language.freeNames code.content := by
  unfold contentDependencies at h
  dsimp only at h
  split at h
  next language hlanguage =>
    cases h
    cases hname : code.language with
    | none =>
      -- A block without a language has the empty name, which means none.
      have hnone : ScriptLanguage.ofName? "" = none := by decide
      rw [hname, Option.getD_none, hnone] at hlanguage
      cases hlanguage
    | some name =>
      rw [hname] at hlanguage
      exact ⟨name, language, rfl, hlanguage, rfl⟩
  next => cases h

theorem taskRequirements_isSome_iff {type : ExecutionType} {model : ModelSetting} {task : String}
    {line : Nat} {requirements : Option ModelRequirements}
    (h : taskRequirements type model task line = .ok requirements) :
    requirements.isSome = true ↔ type = .promptTemplate := by
  cases type with
  | promptTemplate =>
    cases h
    simp
  | simpleTemplate | script | promptDialog =>
    simp only [taskRequirements] at h
    split at h
    next =>
      cases h
      simp
    next => cases h

/-- The task of a tidy draft is coherent. -/
theorem Draft.Tidy.toTask {d : Draft} (h : d.Tidy) {name : String} {s : Section} {t : Task}
    (htask : d.toTask name s = .ok t) : t.Coherent := by
  obtain ⟨code, result, dependencies, requirements, -, -, hdependencies, hrequirements, rfl⟩ :=
    toTask_eq_ok_iff.mp htask
  refine ⟨fun htype name => ?_, fun htype => ?_, taskRequirements_isSome_iff hrequirements,
    h.jokers⟩
  · rw [contentDependencies_of_ne hdependencies htype]
    exact Template.mem_parameters_iff_mentions
  · dsimp only at htype
    rw [htype] at hdependencies
    exact exists_of_contentDependencies_script hdependencies

theorem Section.toTask_coherent {s : Section} {model : ModelSetting} {ps qs : List Parameter}
    {t : Task} (hps : (ps.map (·.name)).Nodup) (h : s.toTask model ps = .ok (t, qs)) :
    t.Coherent ∧ (qs.map (·.name)).Nodup := by
  obtain ⟨-, draft, hread, htask, rfl⟩ := toTask_eq_ok_iff.mp h
  have htidy : draft.Tidy :=
    foldlM_induction (fun _ _ _ => Draft.Tidy.read) ⟨hps, List.nodup_nil⟩ hread
  exact ⟨htidy.toTask htask, htidy.parameters⟩

theorem sectionTasks_coherent {model : ModelSetting} {ps qs : List Parameter}
    {sections : List Section} {ts : List Task} (hps : (ps.map (·.name)).Nodup)
    (h : sectionTasks model ps sections = .ok (ts, qs)) :
    (∀ t ∈ ts, t.Coherent) ∧ (qs.map (·.name)).Nodup := by
  induction sections generalizing ps ts with
  | nil =>
    cases h
    exact ⟨List.forall_mem_nil _, hps⟩
  | cons s rest ih =>
    obtain ⟨t, ps', ts', htask, hrest, rfl⟩ := sectionTasks_cons_eq_ok_iff.mp h
    obtain ⟨hcoherent, hps'⟩ := s.toTask_coherent hps htask
    obtain ⟨hts, hqs⟩ := ih hps' hrest
    exact ⟨List.forall_mem_cons.mpr ⟨hcoherent, hts⟩, hqs⟩

/-! ## Results -/

/-- The parameters after one more result. -/
theorem withResults_cons (ps : List Parameter) (t : Task) (ts : List Task) :
    withResults ps (t :: ts) =
      withResults (if ps.any (·.name == t.result) then ps else ps ++ [{ name := t.result }]) ts :=
  rfl

/-- Declared parameters stay, their names stay different, and all results are declared. -/
theorem withResults_declares {ps : List Parameter} (ts : List Task)
    (hps : (ps.map (·.name)).Nodup) :
    ps ⊆ withResults ps ts ∧ ((withResults ps ts).map (·.name)).Nodup ∧
      ∀ t ∈ ts, ∃ q ∈ withResults ps ts, q.name = t.result := by
  induction ts generalizing ps with
  | nil => exact ⟨List.Subset.refl _, hps, List.forall_mem_nil _⟩
  | cons t ts ih =>
    rw [withResults_cons]
    split
    next hany =>
      obtain ⟨hsubset, hnodup, hresults⟩ := ih hps
      obtain ⟨q, hq, hname⟩ := List.any_eq_true.mp hany
      exact ⟨hsubset, hnodup,
        List.forall_mem_cons.mpr ⟨⟨q, hsubset hq, beq_iff_eq.mp hname⟩, hresults⟩⟩
    next hnone =>
      have hnew : t.result ∉ ps.map (·.name) := by simpa using hnone
      have hextended : ((ps ++ [({ name := t.result } : Parameter)]).map (·.name)).Nodup := by
        rw [List.map_append, List.nodup_append_comm]
        exact List.nodup_cons.mpr ⟨hnew, hps⟩
      obtain ⟨hsubset, hnodup, hresults⟩ := ih hextended
      have hresult : { name := t.result } ∈ ps ++ [({ name := t.result } : Parameter)] :=
        List.mem_append_right _ (List.mem_singleton.mpr rfl)
      exact ⟨fun q hq => hsubset (List.mem_append_left _ hq), hnodup,
        List.forall_mem_cons.mpr ⟨⟨_, hsubset hresult, rfl⟩, hresults⟩⟩

/-! ## Documents -/

/-- Parameters have names of their own, results are declared, and tasks are coherent. -/
structure Pipeline.Coherent (p : Pipeline) : Prop where
  parameters_nodup : (p.parameters.map (·.name)).Nodup
  results_declared : ∀ t ∈ p.tasks, ∃ q ∈ p.parameters, q.name = t.result
  tasks : ∀ t ∈ p.tasks, t.Coherent

/-- **The document of a source is coherent.** -/
theorem Pipeline.Coherent.of_source {source : String} {p : Pipeline}
    (h : ofSource source = .ok p) : p.Coherent := by
  obtain ⟨o, -, h⟩ := bind_eq_ok_iff.mp h
  obtain ⟨header, hheader, h⟩ := bind_eq_ok_iff.mp h
  have hstart : (({} : Header).parameters.map (·.name)).Nodup := List.nodup_nil
  have hnodup : (header.parameters.map (·.name)).Nodup :=
    foldlM_induction (P := fun h : Header => (h.parameters.map (·.name)).Nodup)
      (fun _ _ _ => Header.read_nodup) hstart hheader
  split at h
  next => cases h
  next version _ =>
    obtain ⟨⟨ts, ps⟩, htasks, h⟩ := bind_eq_ok_iff.mp h
    dsimp only at h
    split at h
    next => cases h
    next =>
      cases h
      obtain ⟨hcoherent, hps⟩ := sectionTasks_coherent hnodup htasks
      obtain ⟨-, hwith, hresults⟩ := withResults_declares ts hps
      exact ⟨hwith, hresults, hcoherent⟩

end PromptPipeline
