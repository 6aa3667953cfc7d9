import PromptPipeline.Proofs.Document.Validation

/-!
# The order of execution

Two searches go through the task graph of a pipeline: one keeps a path and looks for a cycle, the
other sweeps with a stack and checks the order that it finds. Validation relies on the first and a
run on the second, so they have to reach the same verdict on every graph, whatever validation has
to say about the pipeline otherwise.
-/

namespace PromptPipeline

namespace Pipeline

variable {p : Pipeline}

theorem cycleNames?_eq_none_iff : p.cycleNames? = none ↔ p.graph.Acyclic := by
  rw [cycleNames?, Option.map_eq_none_iff, Digraph.cycle?_eq_none_iff]

theorem executionOrder_isOk_iff : (∃ order, p.executionOrder = .ok order) ↔ p.graph.Acyclic :=
  ⟨fun ⟨_, h⟩ => (executionOrder_isTopological h).acyclic, exists_executionOrder⟩

theorem executionOrderNames_of_ok {order : List p.TaskIndex} (h : p.executionOrder = .ok order) :
    p.executionOrderNames = .ok (p.namesAt order) :=
  executionOrderNames_eq_ok_iff.mpr ⟨order, h, rfl⟩

/-- A graph that is not acyclic has a cycle, and the fault of its order names it. -/
theorem exists_cycle_of_not_acyclic (h : ¬p.graph.Acyclic) :
    ∃ cycle, p.graph.IsCycle cycle ∧ p.cycleNames? = some (p.namesAt cycle) ∧
      p.executionOrder = .error (.circularDependencies (p.namesAt cycle)) := by
  obtain ⟨cycle, hcycle⟩ := Option.ne_none_iff_exists'.mp (mt Digraph.acyclic_of_cycle?_eq_none h)
  have hnames : p.cycleNames? = some (p.namesAt cycle) := by
    rw [cycleNames?, hcycle]
    rfl
  refine ⟨cycle, Digraph.cycle?_isCycle hcycle, hnames, ?_⟩
  unfold executionOrder
  split
  next order horder => exact absurd (Digraph.topologicalOrder?_isTopological horder).acyclic h
  next => rw [hnames, Option.getD_some]

/-- **The two searches agree.** No cycle is found if and only if there is none, if and only if there
is an order of execution. Either an order is found, in which every task stands once and the source
of each arc before its target, and the names are those of the same tasks; or a cycle is found and
named, of different tasks each with an arc to the next one and the last with an arc to the first,
and this is the fault for which there is no order. -/
theorem cycle_search_agrees_with_order (p : Pipeline) :
    (p.cycleNames? = none ↔ p.graph.Acyclic) ∧
    ((∃ order, p.executionOrder = .ok order) ↔ p.graph.Acyclic) ∧
    ((∃ order, p.executionOrder = .ok order ∧ p.graph.IsTopological order ∧
        p.executionOrderNames = .ok (p.namesAt order)) ∨
      ∃ cycle, p.cycleNames? = some (p.namesAt cycle) ∧ cycle ≠ [] ∧ p.graph.IsCycle cycle ∧
        p.executionOrder = .error (.circularDependencies (p.namesAt cycle)) ∧
        p.executionOrderNames = .error (.circularDependencies (p.namesAt cycle))) := by
  refine ⟨cycleNames?_eq_none_iff, executionOrder_isOk_iff, ?_⟩
  by_cases hacyclic : p.graph.Acyclic
  · obtain ⟨order, horder⟩ := exists_executionOrder hacyclic
    exact .inl ⟨order, horder, executionOrder_isTopological horder,
      executionOrderNames_of_ok horder⟩
  · obtain ⟨cycle, hcycle, hnames, hfault⟩ := exists_cycle_of_not_acyclic hacyclic
    have hne : cycle ≠ [] := by
      obtain ⟨v, rest, heq, -⟩ := hcycle.closed
      rw [heq]
      exact List.cons_ne_nil v rest
    have hfaultNames :
        p.executionOrderNames = .error (.circularDependencies (p.namesAt cycle)) := by
      rw [executionOrderNames, hfault]
      rfl
    exact .inr ⟨cycle, hnames, hne, hcycle, hfault, hfaultNames⟩

end Pipeline

end PromptPipeline
