import PromptPipeline.Proofs.Document.Faults

/-!
# Neighbours of a task

The graph of a pipeline connects no two tasks twice (`graph_simple`), although a task may require
several parameters of one producer, or one parameter twice, as content and as a joker. So a task
occurs once among the neighbours of another one. In a pipeline that passes validation the names of
tasks are unique as well, and a list of neighbours is then that of the tasks of which the document
says so, each named once and in increasing order (`neighbours_match_document`).
-/

namespace PromptPipeline

namespace Digraph

variable {n : Nat} {g : Digraph n} {v : Fin n}

/-- No two arcs connect the same vertices. -/
def Simple (g : Digraph n) : Prop :=
  (g.arcs.map fun a => (a.source, a.target)).Nodup

theorem Simple.connect (h : g.Simple) (a : Arc n) : (g.connect a).Simple := by
  unfold Digraph.connect
  split
  next => exact h
  next hnot =>
    show ((g.arcs ++ [a]).map _).Nodup
    rw [List.map_append, List.map_singleton, ← List.concat_eq_append]
    refine List.Nodup.concat ?_ h
    intro hmem
    obtain ⟨b, hb, heq⟩ := List.mem_map.mp hmem
    obtain ⟨hsource, htarget⟩ := Prod.mk.inj heq
    exact hnot ⟨b, hb, hsource, htarget⟩

theorem Simple.foldl_connect (h : g.Simple) (arcs : List (Arc n)) :
    (arcs.foldl Digraph.connect g).Simple := by
  induction arcs generalizing g with
  | nil => exact h
  | cons a arcs ih =>
    rw [List.foldl_cons]
    exact ih (h.connect a)

/-- Some of the arcs, latest first, still have different ends. -/
theorem Simple.filter_reverse (h : g.Simple) (keep : Arc n → Bool) :
    ((g.arcs.reverse.filter keep).map fun a => (a.source, a.target)).Nodup := by
  have hsublist := (List.filter_sublist (p := keep) (l := g.arcs.reverse)).map
    fun a => (a.source, a.target)
  refine hsublist.nodup ?_
  rw [List.map_reverse, List.nodup_reverse]
  exact h

theorem Simple.predecessors_nodup (h : g.Simple) (v : Fin n) : (g.predecessors v).Nodup := by
  -- among the arcs into one vertex, the source tells the arc
  refine List.Nodup.of_map (fun u => (u, v)) ?_
  rw [predecessors, List.map_map]
  refine Eq.subst (List.map_congr_left fun a ha => ?_) (h.filter_reverse _)
  rw [of_decide_eq_true (List.mem_filter.mp ha).2]
  rfl

theorem Simple.successors_nodup (h : g.Simple) (u : Fin n) : (g.successors u).Nodup := by
  refine List.Nodup.of_map (fun v => (u, v)) ?_
  rw [successors, List.map_map]
  refine Eq.subst (List.map_congr_left fun a ha => ?_) (h.filter_reverse _)
  rw [of_decide_eq_true (List.mem_filter.mp ha).2]
  rfl

end Digraph

namespace Pipeline

variable {p : Pipeline} {known : Option (List AvailableModel)} {i j : p.TaskIndex}

/-- **However much a task requires of another one, one arc connects them.** -/
theorem graph_simple (p : Pipeline) : p.graph.Simple :=
  Digraph.Simple.foldl_connect (g := ⟨[]⟩) List.nodup_nil _

/-- The names of the property, each once and in increasing order. -/
structure Lists (names : List String) (P : String → Prop) : Prop where
  increasing : names.Pairwise (· < ·)
  mem_iff : ∀ name, name ∈ names ↔ P name

theorem sortedNames_perm (names : List String) : (sortedNames names).Perm names :=
  List.mergeSort_perm _ _

theorem sortedNames_sorted (names : List String) : (sortedNames names).Pairwise (· ≤ ·) := by
  have hsorted : (sortedNames names).Pairwise fun a b => decide (a ≤ b) = true := by
    refine List.pairwise_mergeSort (fun a b c hab hbc => ?_) (fun a b => ?_) names
    · exact decide_eq_true (String.le_trans (of_decide_eq_true hab) (of_decide_eq_true hbc))
    · simpa using String.le_total a b
  exact hsorted.imp of_decide_eq_true

/-- Different names are sorted into a strictly increasing list. -/
theorem sortedNames_increasing {names : List String} (h : names.Nodup) :
    (sortedNames names).Pairwise (· < ·) := by
  have hnodup : (sortedNames names).Nodup := (sortedNames_perm names).nodup_iff.mpr h
  refine (sortedNames_sorted names).imp₂ (fun a b hle hne => ?_) hnodup
  by_contra hnot
  exact hne (String.le_antisymm hle (String.not_lt.mp hnot))

theorem mem_namesAt {is : List p.TaskIndex} {name : String} :
    name ∈ p.namesAt is ↔ ∃ i ∈ is, (p.taskAt i).name = name :=
  List.mem_map

theorem name_of_indexOf? {name : String} (h : p.indexOf? name = some i) :
    (p.taskAt i).name = name := by
  simpa using List.find?_some h

/-- The name of a task is found, be it at another task. -/
theorem exists_indexOf? (i : p.TaskIndex) : ∃ j, p.indexOf? (p.taskAt i).name = some j := by
  cases hfound : p.indexOf? (p.taskAt i).name with
  | none =>
    have hnot := List.find?_eq_none.mp hfound i (List.mem_finRange i)
    exact absurd (beq_self_eq_true _) hnot
  | some j => exact ⟨j, rfl⟩

namespace WellFormed

theorem namesAt_nodup (h : p.WellFormed known) {is : List p.TaskIndex} (his : is.Nodup) :
    (p.namesAt is).Nodup :=
  his.map fun _ _ heq => h.name_injective heq

/-- Where names are unique, each task answers to its own. -/
theorem indexOf?_name (h : p.WellFormed known) (i : p.TaskIndex) :
    p.indexOf? (p.taskAt i).name = some i := by
  obtain ⟨j, hfound⟩ := exists_indexOf? i
  rw [hfound, h.name_injective (name_of_indexOf? hfound)]

theorem lists_sortedNames (h : p.WellFormed known) {is : List p.TaskIndex} (his : is.Nodup) :
    Lists (sortedNames (p.namesAt is)) fun name => ∃ i ∈ is, (p.taskAt i).name = name where
  increasing := sortedNames_increasing (h.namesAt_nodup his)
  mem_iff := fun _ => (sortedNames_perm _).mem_iff.trans mem_namesAt

/-- The dependencies of a task are those that produce what it requires. -/
theorem exists_dependencies? (h : p.WellFormed known) (i : p.TaskIndex) :
    ∃ before, p.dependencies? (p.taskAt i).name = some before ∧
      Lists before fun name => ∃ j, (p.taskAt j).name = name ∧ p.Feeds j i := by
  unfold dependencies?
  rw [h.indexOf?_name, Option.map_some]
  have hlists := h.lists_sortedNames (p.graph_simple.predecessors_nodup i)
  refine ⟨_, rfl, hlists.increasing, fun name => ?_⟩
  rw [hlists.mem_iff]
  simp only [Digraph.mem_predecessors, adj_graph_iff_feeds h.results_nodup, and_comm]

/-- The dependents of a task are those that require what it produces. -/
theorem exists_dependents? (h : p.WellFormed known) (i : p.TaskIndex) :
    ∃ after, p.dependents? (p.taskAt i).name = some after ∧
      Lists after fun name => ∃ j, (p.taskAt j).name = name ∧ p.Feeds i j := by
  unfold dependents?
  rw [h.indexOf?_name, Option.map_some]
  have hlists := h.lists_sortedNames (p.graph_simple.successors_nodup i)
  refine ⟨_, rfl, hlists.increasing, fun name => ?_⟩
  rw [hlists.mem_iff]
  simp only [Digraph.mem_successors, adj_graph_iff_feeds h.results_nodup, and_comm]

/-- The name of a task stands among the dependencies of another one if it feeds this one. -/
theorem mem_dependencies?_iff (h : p.WellFormed known) {before : List String}
    (hbefore : p.dependencies? (p.taskAt j).name = some before) :
    (p.taskAt i).name ∈ before ↔ p.Feeds i j := by
  obtain ⟨names, hnames, hlists⟩ := h.exists_dependencies? j
  obtain rfl : before = names := Option.some.inj (hbefore.symm.trans hnames)
  rw [hlists.mem_iff]
  constructor
  · intro ⟨k, hname, hfeeds⟩
    exact h.name_injective hname ▸ hfeeds
  · intro hfeeds
    exact ⟨i, rfl, hfeeds⟩

/-- The name of each task of an order stands where the task stands. -/
theorem idxOf_namesAt (h : p.WellFormed known) (order : List p.TaskIndex) (i : p.TaskIndex) :
    (p.namesAt order).idxOf (p.taskAt i).name = order.idxOf i := by
  induction order with
  | nil => rfl
  | cons j order ih =>
    show ((p.taskAt j).name :: p.namesAt order).idxOf (p.taskAt i).name = (j :: order).idxOf i
    by_cases hij : j = i
    · subst hij
      rw [List.idxOf_cons_self, List.idxOf_cons_self]
    · have hname : (p.taskAt j).name ≠ (p.taskAt i).name :=
        fun heq => hij (h.name_injective heq)
      rw [List.idxOf_cons_ne _ hname, List.idxOf_cons_ne _ hij, ih]

end WellFormed

theorem feeds_iff_reads : p.Feeds i j ↔ (p.taskAt j).reads (p.taskAt i).result = true := by
  rw [Feeds, Task.mem_required, Task.reads, Bool.or_eq_true, decide_eq_true_iff,
    List.contains_iff_mem]

theorem exists_taskAt_iff {P : Task → Prop} : (∃ i, P (p.taskAt i)) ↔ ∃ t ∈ p.tasks, P t := by
  constructor
  · intro ⟨i, h⟩
    exact ⟨_, taskAt_mem i, h⟩
  · intro ⟨t, ht, h⟩
    obtain ⟨i, rfl⟩ := mem_tasks_iff.mp ht
    exact ⟨i, h⟩

theorem namesAt_finRange (p : Pipeline) :
    p.namesAt (List.finRange p.tasks.length) = p.taskNames := by
  have htasks : (List.finRange p.tasks.length).map p.taskAt = p.tasks :=
    List.map_get_finRange p.tasks
  show (List.finRange p.tasks.length).map (Task.name ∘ p.taskAt) = _
  rw [← List.map_map, htasks]
  rfl

/-- **The neighbours of a task are those of the document.** In a pipeline that passes validation,
the dependencies of a task are the names of the tasks whose results it requires, and its dependents
the names of those that read its own; both are lists without repetition in increasing order, and
each is the other one turned around. In the order of execution, which has the name of each task
once, every dependency stands before the task. -/
theorem neighbours_match_document {v : Validation} (h : p.validate known = .ok v) {t : Task}
    (ht : t ∈ p.tasks) :
    ∃ before after, p.dependencies? t.name = some before ∧ p.dependents? t.name = some after ∧
      Lists before (fun name => ∃ u ∈ p.tasks, u.name = name ∧ u.result ∈ t.required) ∧
      Lists after (fun name => ∃ u ∈ p.tasks, u.name = name ∧ u.reads t.result = true) ∧
      (∀ name, name ∈ after ↔
        ∃ before', p.dependencies? name = some before' ∧ t.name ∈ before') ∧
      v.executionOrder.Perm p.taskNames ∧ v.executionOrder.Nodup ∧
      ∀ name ∈ before, v.executionOrder.idxOf name < v.executionOrder.idxOf t.name := by
  have hwell := WellFormed.of_validate h
  obtain ⟨-, -, -, -, -, -, -, order, horder, rfl⟩ := validate_eq_ok_iff.mp h
  have htopological := executionOrder_isTopological horder
  obtain ⟨i, rfl⟩ := mem_tasks_iff.mp ht
  obtain ⟨before, hbefore, hdependencies⟩ := hwell.exists_dependencies? i
  obtain ⟨after, hafter, hdependents⟩ := hwell.exists_dependents? i
  refine ⟨before, after, hbefore, hafter, ?_, ?_, fun name => ?_, ?_, ?_, fun name hname => ?_⟩
  · refine ⟨hdependencies.increasing, fun name => (hdependencies.mem_iff name).trans ?_⟩
    exact exists_taskAt_iff (P := fun u => u.name = name ∧ u.result ∈ (p.taskAt i).required)
  · refine ⟨hdependents.increasing, fun name => (hdependents.mem_iff name).trans ?_⟩
    simp only [feeds_iff_reads]
    exact exists_taskAt_iff (P := fun u => u.name = name ∧ u.reads (p.taskAt i).result = true)
  · rw [hdependents.mem_iff]
    constructor
    · intro ⟨j, hname, hfeeds⟩
      obtain ⟨before', hbefore', -⟩ := hwell.exists_dependencies? j
      exact ⟨before', hname ▸ hbefore', (hwell.mem_dependencies?_iff hbefore').mpr hfeeds⟩
    · intro ⟨before', hbefore', hmem⟩
      obtain ⟨j, hj, -⟩ := Option.map_eq_some_iff.mp hbefore'
      have hname := name_of_indexOf? hj
      rw [← hname] at hbefore'
      exact ⟨j, hname, (hwell.mem_dependencies?_iff hbefore').mp hmem⟩
  · rw [← namesAt_finRange]
    exact htopological.perm.map _
  · exact hwell.namesAt_nodup htopological.nodup
  · obtain ⟨j, rfl, hfeeds⟩ := (hdependencies.mem_iff name).mp hname
    show (p.namesAt order).idxOf _ < (p.namesAt order).idxOf _
    rw [hwell.idxOf_namesAt, hwell.idxOf_namesAt]
    exact htopological.precedes ((adj_graph_iff_feeds hwell.results_nodup).mpr hfeeds)

end Pipeline

/-- Three tasks in the reverse of their order: the first two read what the last one writes, and the
first also has the result of the second for a joker. -/
def Pipeline.report : Pipeline :=
  { url := none, title := "Report", dialectVersion := "1.0.0", description := none
    parameters := [{ name := "notes", isInput := true }, { name := "text" },
      { name := "summary" }, { name := "page", isOutput := true }]
    tasks := [{ Task.revise "publish" "text" "page" [.amount .minimum .words 1] with
        jokers := ["summary"] },
      .revise "shorten" "text" "summary" [], .revise "write" "notes" "text" []]
    knowledge := [] }

namespace Pipeline

/-- The report is published after what it depends on. -/
theorem report_published_last : ∃ v before, report.validate none = .ok v ∧
    v.executionOrder = ["write", "shorten", "publish"] ∧
    report.dependencies? "publish" = some before ∧ before.Pairwise (· < ·) ∧
    ∀ name ∈ before, v.executionOrder.idxOf name < v.executionOrder.idxOf "publish" := by
  have horder : report.executionOrderNames = .ok ["write", "shorten", "publish"] := by cbv
  have h : report.validate none = .ok ⟨report.warnings none, ["write", "shorten", "publish"]⟩ := by
    have hcycles : report.checkCycles = .ok () := by cbv
    rw [validate, hcycles, horder]
    rfl
  obtain ⟨before, -, hbefore, -, hlists, -, -, -, -, hearlier⟩ :=
    neighbours_match_document h List.mem_cons_self
  exact ⟨_, before, h, rfl, hbefore, hlists.increasing, hearlier⟩

end Pipeline

end PromptPipeline
