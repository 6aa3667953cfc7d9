import Mathlib
import PromptPipeline.Proofs.Dialect.Source
import PromptPipeline.Proofs.Document.Faults
import PromptPipeline.Proofs.Execution.Outcome

/-!
# Pipelines that were compiled from a source

What a source guarantees is what validation and the engine count on. Validation still has to look
for cycles, unused parameters and the like, but never finds a parameter declared twice or a result
that is not declared (`Pipeline.Coherent.validate_reports`). And a task requires every parameter
that its content has a placeholder for (`Pipeline.Coherent.closed`), so a run never meets one that
has no value. The main statement puts these together for every source that compiles
(`Pipeline.compiled_coherently`).
-/

namespace PromptPipeline

/-- A fault of the declarations: a parameter is declared twice, or a result is not declared. -/
inductive LogicFault.OfDeclarations : LogicFault → Prop
  | twice (name : String) : OfDeclarations (.duplicateParameter name)
  | never (name task : String) : OfDeclarations
    (.unresolvedParameter name s!"is produced by task '{task}' but never declared")

namespace Pipeline

open LogicFault

/-- A parameter may be missed elsewhere than at the task that produces it. -/
theorem not_ofDeclarations_unresolved {name context : String}
    (h : ¬['i', 's', ' ', 'p'] <+: context.toList) :
    ¬OfDeclarations (.unresolvedParameter name context) := by
  intro hfault
  generalize heq : LogicFault.unresolvedParameter name context = fault at hfault
  cases hfault with
  | twice => cases heq
  | never name' task =>
    cases heq
    simp [toString] at h

variable {p : Pipeline}

/-- **Validation of a coherent pipeline finds no fault of the declarations**: such a fault would be
a true one, and each of these contradicts the coherence. -/
theorem Coherent.validate_reports (h : p.Coherent) (known : Option (List AvailableModel)) :
    Reports (¬OfDeclarations ·) (p.validate known) := by
  intro fault hfault
  obtain ⟨_, hwitnessed⟩ := exists_witnessed hfault
  cases hwitnessed with
  | duplicateParameter htwice =>
    have honce := List.nodup_iff_count_le_one.mp h.parameters_nodup
    exact absurd (Nat.le_trans htwice (honce _)) (by decide)
  | undeclaredResult ht hnone =>
    obtain ⟨q, hq, hname⟩ := h.results_declared _ ht
    exact absurd hname (hnone q hq)
  | unresolvedDependency => exact not_ofDeclarations_unresolved (by simp [toString])
  | unresolvedOutput => exact not_ofDeclarations_unresolved (by simp)
  | unresolvedJoker => exact not_ofDeclarations_unresolved (by simp [toString])
  | _ => exact fun h => nomatch h

end Pipeline

/-! ## Runs -/

/-- A coherent task requires every parameter that its content has a placeholder for. -/
theorem Task.Coherent.closed {t : Task} (h : t.Coherent) : t.Closed := by
  intro hscript name hname
  have hdependency := (h.template hscript name).mpr (Template.mem_parameters_iff_mentions.mp hname)
  exact Task.mem_required.mpr (.inl hdependency)

theorem Pipeline.Coherent.closed {p : Pipeline} (h : p.Coherent) : ∀ t ∈ p.tasks, t.Closed :=
  fun t ht => (h.tasks t ht).closed

/-- A closed task that has started has a content. -/
theorem Executor.Coherent.exists_content {N : Type} [Zero N] [Add N] {x : Executor}
    {E : Event N → Prop} {inputs : Bindings String} {s : RunState N x.pipeline}
    {i : x.pipeline.TaskIndex} (h : x.Coherent E inputs s)
    (hclosed : (x.pipeline.taskAt i).Closed) (hi : s.task i ≠ .pending) :
    ∃ text, (x.assignment s i).content = .ok text := by
  have hsupplied : ∀ name ∈ (x.pipeline.taskAt i).required,
      s.resolved.contains name = true := by
    cases hstate : s.task i with
    | pending => exact absurd hstate hi
    | running work => exact (h.running i work hstate).supplied
    | finished report =>
      obtain ⟨run, hrun, -⟩ := h.finished i report hstate
      exact hrun.supplied
  exact (Assignment.content_isOk_iff (contains_assignment_iff hsupplied)).mpr hclosed

/-- **A pipeline that was compiled from a source fits together**: its parameters have names of their
own, the results of its tasks are among them, and each task has the dependencies, the model
requirements and the jokers that go with its kind and content. A template can be filled from every
map that has the parameters that its task requires. Validation finds no fault of the declarations,
with any registry of models. And in a run, whatever the adapters answer and whatever the schedule,
each task that has started has a content; so with adapters that return no internal error, the run
comes to an outcome. -/
theorem Pipeline.compiled_coherently {source : String} {p : Pipeline}
    (h : ofSource source = .ok p) :
    p.Coherent ∧
    (∀ t ∈ p.tasks, t.executionType ≠ .script → ∀ values : Bindings String,
      (∀ name ∈ t.required, values.contains name = true) →
        ∃ text, Template.substitute t.content values = .ok text) ∧
    (∀ known fault, p.validate known = .error fault → ¬fault.OfDeclarations) ∧
    ∀ (N : Type) [Zero N] [Add N] (tools : Tools) (settings : ExecutionSettings) (x : Executor),
      Executor.ofPipeline p tools settings = .ok x → ∀ inputs : Bindings String,
        (∀ (history : List (Event N)) (s : RunState N x.pipeline), x.Reached inputs history s →
          ∀ i, s.task i ≠ .pending → ∃ text, (x.assignment s i).content = .ok text) ∧
        ∀ (schedule : Schedule) (history : List (Event N)) (r : Result (Outcome N)),
          (x.execute schedule inputs).Reaches history (.done r) → (∀ e ∈ history, e.Kept) →
            ∃ o, r = .ok o := by
  have hcoherent := Coherent.of_source h
  refine ⟨hcoherent, fun t ht hscript values hvalues => ?_, hcoherent.validate_reports, ?_⟩
  · exact Template.substitute_isOk_iff.mpr fun name hname =>
      hvalues name (hcoherent.closed t ht hscript name hname)
  · intro N _ _ tools settings x hx inputs
    obtain ⟨order, rfl, haccepted⟩ := Executor.accepted_of_ofPipeline hx
    have hclosed (i : p.TaskIndex) : (p.taskAt i).Closed := hcoherent.closed _ (taskAt_mem i)
    refine ⟨fun history s hreached i hi => ?_, fun schedule history r hrun hkept => ?_⟩
    · have hstate := hreached.coherent (E := fun _ => True) fun _ _ => trivial
      exact hstate.exists_content (hclosed i) hi
    · exact Executor.exists_outcome haccepted hclosed hrun hkept

/-- The source of a pipeline with one template. -/
def Pipeline.welcomeSource : String :=
  "# Welcome\n\n- PROMPTBOOK VERSION 1.0.0\n- INPUT PARAMETER \x7bname\x7d\n" ++
    "- OUTPUT PARAMETER \x7bgreeting\x7d\n\n## Greet\n\n- EXECUTE SIMPLE TEMPLATE\n\n" ++
    "```\nWelcome \x7bname\x7d\n```\n\n-> \x7bgreeting\x7d\n"

/-- The pipeline of this source. -/
def Pipeline.welcome : Pipeline :=
  { url := none, title := "Welcome", dialectVersion := "1.0.0", description := none
    parameters := [{ name := "name", isInput := true }, { name := "greeting", isOutput := true }]
    tasks := [{ Task.fillIn "greet" "Welcome \x7bname\x7d" "greeting" ["name"] with
      title := "Greet" }]
    knowledge := [] }

/-- The source compiles, and its only placeholder is filled by the value of its input. -/
theorem Pipeline.welcome_compiled : ofSource welcomeSource = .ok welcome ∧ welcome.Coherent ∧
    ∃ text, Template.substitute "Welcome \x7bname\x7d" (.ofList [("name", "Ada")]) = .ok text := by
  have hsource : ofSource welcomeSource = .ok welcome := by
    have hdecide : (match ofSource welcomeSource with
        | .ok p => decide (p = welcome)
        | .error _ => false) = true := by decide +kernel
    split at hdecide
    next p hp => rw [hp, of_decide_eq_true hdecide]
    next => cases hdecide
  obtain ⟨hcoherent, hfilled, -⟩ := compiled_coherently hsource
  refine ⟨hsource, hcoherent, hfilled _ List.mem_cons_self (by decide) _ fun name hname => ?_⟩
  obtain rfl : name = "name" := by simpa [Task.mem_required, Task.fillIn] using hname
  decide

end PromptPipeline
