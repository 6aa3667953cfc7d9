import PromptPipeline.Document.TaskGraph
import PromptPipeline.Proofs.Graph.Cycle
import PromptPipeline.Proofs.Graph.Order

/-!
# What the arcs of a task graph say

An arc leads from one task to another exactly when the first is the last producer of a parameter
that the second requires (`adj_graph_iff`). Where no two tasks produce one parameter, this is the
plain relation `Feeds` (`adj_graph_iff_feeds`): the result of the first is among the parameters that
the second requires.
-/

namespace PromptPipeline

namespace Digraph

variable {n : Nat} {g : Digraph n}

theorem adj_connect_iff {a : Arc n} {u v : Fin n} :
    (g.connect a).Adj u v ↔ g.Adj u v ∨ (a.source = u ∧ a.target = v) := by
  unfold connect
  split
  next hadj =>
    constructor
    · exact .inl
    · rintro (h | ⟨rfl, rfl⟩)
      · exact h
      · exact hadj
  next =>
    simp only [Adj, List.mem_append, List.mem_singleton]
    constructor
    · rintro ⟨b, hb | rfl, h⟩
      · exact .inl ⟨b, hb, h⟩
      · exact .inr h
    · rintro (⟨b, hb, h⟩ | h)
      · exact ⟨b, .inl hb, h⟩
      · exact ⟨a, .inr rfl, h⟩

theorem adj_foldl_connect_iff {arcs : List (Arc n)} {u v : Fin n} :
    (arcs.foldl connect g).Adj u v ↔ g.Adj u v ∨ ∃ a ∈ arcs, a.source = u ∧ a.target = v := by
  induction arcs generalizing g with
  | nil => simp
  | cons a arcs ih =>
    rw [List.foldl_cons, ih, adj_connect_iff, or_assoc]
    simp only [List.mem_cons, exists_eq_or_imp]

end Digraph

namespace Pipeline

variable {p : Pipeline} {i j : p.TaskIndex}

/-- The second task requires what the first one produces. -/
def Feeds (p : Pipeline) (i j : p.TaskIndex) : Prop :=
  (p.taskAt i).result ∈ (p.taskAt j).required

theorem taskAt_mem (i : p.TaskIndex) : p.taskAt i ∈ p.tasks :=
  List.get_mem p.tasks i

theorem mem_tasks_iff {t : Task} : t ∈ p.tasks ↔ ∃ i : p.TaskIndex, p.taskAt i = t :=
  List.mem_iff_get

/-- A task is told by what does not repeat among the tasks, such as its name. -/
theorem taskAt_injective_of_nodup {α : Type} {f : Task → α} (h : (p.tasks.map f).Nodup)
    (hij : f (p.taskAt i) = f (p.taskAt j)) : i = j := by
  have hi : i.val < (p.tasks.map f).length := by simp
  have hj : j.val < (p.tasks.map f).length := by simp
  have heq : (p.tasks.map f)[i.val] = (p.tasks.map f)[j.val] := by
    simpa [taskAt] using hij
  exact Fin.ext ((h.getElem_inj_iff).mp heq)

theorem result_of_lastProducer? {parameter : String} (h : p.lastProducer? parameter = some i) :
    (p.taskAt i).result = parameter := by
  simpa using List.find?_some h

theorem lastProducer?_eq_some_iff (h : (p.tasks.map (·.result)).Nodup) {parameter : String} :
    p.lastProducer? parameter = some i ↔ (p.taskAt i).result = parameter := by
  refine ⟨result_of_lastProducer?, fun hi => ?_⟩
  cases hk : p.lastProducer? parameter with
  | none =>
    have hnot := List.find?_eq_none.mp hk i (List.mem_reverse.mpr (List.mem_finRange i))
    exact absurd (beq_iff_eq.mpr hi) hnot
  | some k =>
    have hresult := result_of_lastProducer? hk
    rw [taskAt_injective_of_nodup h (hresult.trans hi.symm)]

/-- **The arcs lead from the last producer of a parameter to the tasks that require it.** -/
theorem adj_graph_iff :
    p.graph.Adj i j ↔ ∃ parameter ∈ (p.taskAt j).required, p.lastProducer? parameter = some i := by
  have hempty : ¬Digraph.Adj (⟨[]⟩ : Digraph p.tasks.length) i j := by
    rintro ⟨a, ha, -⟩
    exact absurd ha List.not_mem_nil
  rw [graph, Digraph.adj_foldl_connect_iff, or_iff_right hempty]
  constructor
  · rintro ⟨a, ha, rfl, rfl⟩
    obtain ⟨k, -, ha⟩ := List.mem_flatMap.mp ha
    obtain ⟨parameter, hparameter, ha⟩ := List.mem_filterMap.mp ha
    obtain ⟨producer, hproducer, rfl⟩ := Option.map_eq_some_iff.mp ha
    exact ⟨parameter, hparameter, hproducer⟩
  · rintro ⟨parameter, hparameter, hproducer⟩
    refine ⟨⟨i, j, parameter⟩, List.mem_flatMap.mpr ⟨j, List.mem_finRange j, ?_⟩, rfl, rfl⟩
    exact List.mem_filterMap.mpr ⟨parameter, hparameter, by rw [hproducer]; rfl⟩

theorem adj_graph_iff_feeds (h : (p.tasks.map (·.result)).Nodup) :
    p.graph.Adj i j ↔ p.Feeds i j := by
  rw [adj_graph_iff]
  constructor
  · rintro ⟨parameter, hparameter, hproducer⟩
    rw [Feeds, result_of_lastProducer? hproducer]
    exact hparameter
  · intro hfeeds
    exact ⟨_, hfeeds, (lastProducer?_eq_some_iff h).mpr rfl⟩

theorem adj_graph_eq_feeds (h : (p.tasks.map (·.result)).Nodup) : p.graph.Adj = p.Feeds := by
  funext i j
  exact propext (adj_graph_iff_feeds h)

end Pipeline

end PromptPipeline
