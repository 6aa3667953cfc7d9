import Mathlib.Order.Bounds.Defs
import PromptPipeline.Document.Validation
import PromptPipeline.Proofs.Document.TaskGraph

/-!
# Well-formed pipelines

The rules of validation, said of the document itself and without the lookups, tables and searches by
which validation decides them. `Proofs/Document/Validation.lean` shows that validation accepts
exactly the well-formed pipelines; this file draws the consequences that a run relies on: a declared
name belongs to one parameter, a produced one to one task, and a name that a task requires is an
input or is produced, but never both.
-/

namespace PromptPipeline

namespace Pipeline

/-- The name is declared, and is an input or the result of a task. -/
def Resolvable (p : Pipeline) (name : String) : Prop :=
  ∃ q ∈ p.parameters, q.name = name ∧ (q.isInput = true ∨ ∃ t ∈ p.tasks, t.result = name)

/-- The amounts that the expectations of a task state for a unit with one of the signs. -/
def statedAmounts (t : Task) (signs : List Sign) (unit : TextUnit) : Set Amount :=
  {n | ∃ sign ∈ signs, Expectation.amount sign unit n ∈ t.expectations}

/-- Names are unique, each task produces a parameter of its own that is no input, what is read or
given back can be resolved, expectations can be met, and no task waits for itself. -/
structure WellFormed (p : Pipeline) (known : Option (List AvailableModel)) : Prop where
  parameters_nodup : (p.parameters.map (·.name)).Nodup
  tasks_nodup : p.taskNames.Nodup
  results_nodup : (p.tasks.map (·.result)).Nodup
  results_declared : ∀ t ∈ p.tasks, ∃ q ∈ p.parameters, q.name = t.result ∧ q.isInput = false
  required_resolvable : ∀ t ∈ p.tasks, ∀ name ∈ t.required, p.Resolvable name
  outputs_resolvable : ∀ q ∈ p.parameters, q.isOutput = true →
    q.isInput = true ∨ ∃ t ∈ p.tasks, t.result = q.name
  amounts_positive : ∀ t ∈ p.tasks, ∀ sign unit n,
    Expectation.amount sign unit n ∈ t.expectations → 0 < n
  bounds_ordered : ∀ t ∈ p.tasks, ∀ unit low high,
    IsGreatest (statedAmounts t [.exactly, .minimum] unit) low →
    IsLeast (statedAmounts t [.exactly, .maximum] unit) high → low ≤ high
  jokers_expected : ∀ t ∈ p.tasks, t.jokers ≠ [] → t.expectations ≠ []
  models_known : ∀ models, known = some models → ∀ t ∈ p.tasks,
    t.executionType = .promptTemplate → ∀ r, t.modelRequirements = some r →
    ∀ name, r.modelName = some name → ∃ m ∈ models, m.name = name ∧ m.variant = r.variant
  parameters_used : ∀ q ∈ p.parameters, q.isOutput = false → ∃ t ∈ p.tasks, q.name ∈ t.required
  acyclic : ∀ i, ¬Relation.TransGen p.Feeds i i

/-- Where names are unique, looking up a name finds the parameter of that name. -/
theorem parameter?_eq_some_iff {p : Pipeline} (h : (p.parameters.map (·.name)).Nodup)
    {name : String} {q : Parameter} :
    p.parameter? name = some q ↔ q ∈ p.parameters ∧ q.name = name := by
  unfold parameter?
  constructor
  · intro hq
    exact ⟨List.mem_of_find?_eq_some hq, by simpa using List.find?_some hq⟩
  · rintro ⟨hmem, rfl⟩
    cases hq : p.parameters.find? (·.name == q.name) with
    | none => simpa using List.find?_eq_none.mp hq q hmem
    | some q' =>
      have hname : q'.name = q.name := by simpa using List.find?_some hq
      rw [List.inj_on_of_nodup_map h (List.mem_of_find?_eq_some hq) hmem hname]

namespace WellFormed

variable {p : Pipeline} {known : Option (List AvailableModel)} {i j : p.TaskIndex}

theorem result_injective (h : p.WellFormed known)
    (hij : (p.taskAt i).result = (p.taskAt j).result) : i = j :=
  taskAt_injective_of_nodup h.results_nodup hij

/-- Different tasks have different names. -/
theorem name_injective (h : p.WellFormed known)
    (hij : (p.taskAt i).name = (p.taskAt j).name) : i = j :=
  taskAt_injective_of_nodup h.tasks_nodup hij

theorem graph_acyclic (h : p.WellFormed known) : p.graph.Acyclic := by
  unfold Digraph.Acyclic
  rw [adj_graph_eq_feeds h.results_nodup]
  exact h.acyclic

/-- What a task produces is no input. -/
theorem result_not_input (h : p.WellFormed known) {q : Parameter}
    (hq : p.parameter? (p.taskAt i).result = some q) : q.isInput = false := by
  obtain ⟨q', hmem, hname, hinput⟩ := h.results_declared _ (taskAt_mem i)
  rw [(parameter?_eq_some_iff h.parameters_nodup).mpr ⟨hmem, hname⟩] at hq
  cases hq
  exact hinput

/-- What a task requires is an input, or the result of a task. -/
theorem required_cases (h : p.WellFormed known) {name : String}
    (hname : name ∈ (p.taskAt i).required) :
    (∃ q ∈ p.parameters, q.name = name ∧ q.isInput = true) ∨ ∃ j, (p.taskAt j).result = name := by
  obtain ⟨q, hq, rfl, hinput | ⟨t, ht, hresult⟩⟩ :=
    h.required_resolvable _ (taskAt_mem i) name hname
  · exact .inl ⟨q, hq, rfl, hinput⟩
  · obtain ⟨j, rfl⟩ := mem_tasks_iff.mp ht
    exact .inr ⟨j, hresult⟩

end WellFormed

end Pipeline

end PromptPipeline
