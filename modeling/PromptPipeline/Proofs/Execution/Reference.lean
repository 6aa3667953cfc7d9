import PromptPipeline.Proofs.Execution.Outcome

/-!
# The reference evaluator

What a pipeline comes to, without a scheduler: the tasks are visited one at a time, in topological
order, and each visit plays the whole work on the task against tools that give each call one answer.
There is no bound on parallel tasks, no schedule and no interleaving, so this is what runs are
measured against.

* `visit_coherent`: a visit keeps states coherent, in the sense in which those of runs are.
* `evaluated_complete`: after all visits, each task is finished or lacks a parameter. This needs the
  order to be topological: a later visit supplies no earlier task.
-/

namespace PromptPipeline

variable {N : Type}

namespace Pipeline

variable [Zero N] [Add N] (p : Pipeline)

/-- The values of the declared inputs, and an error for each of them that was not given. -/
def unvisited (inputs : Bindings String) : RunState N p :=
  { tasks := Vector.replicate _ .pending
    resolved := inputs.filter fun name _ => p.inputs.any (·.name == name)
    errors := (p.inputs.filter (!inputs.contains ·.name)).map fun q =>
      { error := .execution (.inputNotGiven q.name) } }

/-- The state after the visit of a task: if all parameters that it requires have values, the work on
it is done from its beginning to its end. -/
def visit (tools : Tools) (maxAttempts : Nat) (answers : (c : Call) → c.Answer N)
    (s : RunState N p) (i : p.TaskIndex) : RunState N p :=
  let task := p.taskAt i
  if task.required.toList.all s.resolved.contains then
    let parameters := s.resolved.filter fun name _ => decide (name ∈ task.required)
    let work : Activity N (TaskRun N) :=
      Assignment.work { task, tools, parameters, maxAttempts }
    s.settle i ((work.evaluate answers).settled task)
  else s

/-- The outcome of a state in which every task is finished or skipped. -/
def conclude (s : RunState N p) : Outcome N :=
  let tasks := (List.finRange _).map fun i =>
    (s.task i).report?.getD { TaskReport.ofTask (p.taskAt i) with status := .skipped }
  let usage := Usage.total (tasks.map (·.usage))
  { report :=
      { url := p.url
        title := p.title
        dialectVersion := p.dialectVersion
        isSuccessful := s.errors.isEmpty && p.outputs.all (s.resolved.contains ·.name)
        tasks
        usage
        errors := s.errors
        outputs := s.resolved.filter fun name _ => p.outputs.any (·.name == name) }
    usage
    resolved := s.resolved }

/-- The outcome of the pipeline when its tasks are visited in the given order. -/
def evaluate (tools : Tools) (maxAttempts : Nat) (answers : (c : Call) → c.Answer N)
    (inputs : Bindings String) (order : List p.TaskIndex) : Outcome N :=
  p.conclude (order.foldl (p.visit tools maxAttempts answers) (p.unvisited inputs))

end Pipeline

namespace Executor

open RunState

variable [Zero N] [Add N] {x : Executor} {answers : (c : Call) → c.Answer N}
  {inputs : Bindings String} {s s' : RunState N x.pipeline} {i j : x.pipeline.TaskIndex}

/-- What a visit does to a task whose parameters have values, in terms of assignments. -/
theorem visit_of_supplied
    (h : ∀ name ∈ (x.pipeline.taskAt i).required, s.resolved.contains name = true) :
    x.pipeline.visit x.tools x.settings.maxAttempts answers s i =
      s.settle i (((x.assignment s i).work.evaluate answers).settled (x.pipeline.taskAt i)) := by
  unfold Pipeline.visit
  rw [if_pos (List.all_eq_true.mpr h)]
  rfl

theorem visit_of_not_supplied
    (h : ¬∀ name ∈ (x.pipeline.taskAt i).required, s.resolved.contains name = true) :
    x.pipeline.visit x.tools x.settings.maxAttempts answers s i = s := by
  unfold Pipeline.visit
  rw [if_neg fun hall => h (List.all_eq_true.mp hall)]

theorem visit_task_of_ne (h : i ≠ j) :
    (x.pipeline.visit x.tools x.settings.maxAttempts answers s i).task j = s.task j := by
  by_cases hsupplied : ∀ name ∈ (x.pipeline.taskAt i).required, s.resolved.contains name = true
  · rw [visit_of_supplied hsupplied, settle_task_of_ne h]
  · rw [visit_of_not_supplied hsupplied]

theorem visit_get?_of_ne {name : String} (h : name ≠ (x.pipeline.taskAt i).result) :
    (x.pipeline.visit x.tools x.settings.maxAttempts answers s i).resolved.get? name =
      s.resolved.get? name := by
  by_cases hsupplied : ∀ name ∈ (x.pipeline.taskAt i).required, s.resolved.contains name = true
  · rw [visit_of_supplied hsupplied, settle_get?_of_ne h]
  · rw [visit_of_not_supplied hsupplied]

/-- A visit keeps states coherent. -/
theorem visit_coherent (hx : x.Accepted) (hclosed : ∀ i, (x.pipeline.taskAt i).Closed)
    (hkept : ∀ c : Call, c.Kept (answers c))
    (hs : x.Coherent (Event.Obeys answers) inputs s) (hi : (s.task i).report? = none) :
    x.Coherent (Event.Obeys answers) inputs
      (x.pipeline.visit x.tools x.settings.maxAttempts answers s i) := by
  by_cases hsupplied : ∀ name ∈ (x.pipeline.taskAt i).required, s.resolved.contains name = true
  · rw [visit_of_supplied hsupplied]
    obtain ⟨history, hreaches, hE⟩ :=
      Activity.exists_reaches_evaluate answers (x.assignment s i).work
    refine hs.settle hi ⟨hsupplied, history, hreaches, hE⟩ (fun fault hending => ?_)
      fun _ _ => hs.result_not_contains hx hi
    have hcontent := Assignment.work_ordinary (fun _ he => Event.Obeys.kept hkept he) hx.attempts
      hreaches hE fault hending
    obtain ⟨text, htext⟩ :=
      (Assignment.content_isOk_iff (contains_assignment_iff hsupplied)).mpr (hclosed i)
    rw [htext] at hcontent
    cases hcontent
  · rw [visit_of_not_supplied hsupplied]
    exact hs

/-- After the visits of some tasks: these are complete, and the other ones wait. -/
structure Visited (x : Executor) (answers : (c : Call) → c.Answer N) (inputs : Bindings String)
    (visited : List x.pipeline.TaskIndex) (s : RunState N x.pipeline) : Prop where
  coherent : x.Coherent (Event.Obeys answers) inputs s
  complete : ∀ i ∈ visited, x.Complete s i
  waiting : ∀ i, i ∉ visited → s.task i = .pending

/-- A task that is not fed by a visited one stays complete when that one is visited. -/
theorem Complete.visit (h : x.Complete s j) (hij : i ≠ j) (hfeeds : ¬x.pipeline.Feeds i j) :
    x.Complete (x.pipeline.visit x.tools x.settings.maxAttempts answers s i) j := by
  unfold Complete
  rw [visit_task_of_ne hij]
  refine h.imp id fun ⟨hpending, hnot⟩ => ⟨hpending, ?_⟩
  rw [Bool.eq_false_iff, ne_eq, isReady_iff] at hnot ⊢
  rintro ⟨-, hall⟩
  refine hnot ⟨hpending, fun name hname => ?_⟩
  -- The visit binds the result of the visited task only, and this is not what `j` lacks.
  have hne : name ≠ (x.pipeline.taskAt i).result := by
    rintro rfl
    exact hfeeds hname
  have hbound := hall name hname
  rwa [Bindings.contains, visit_get?_of_ne hne] at hbound

/-- The visit of a task that waits completes it. -/
theorem complete_visit_self (hpending : s.task i = .pending) :
    x.Complete (x.pipeline.visit x.tools x.settings.maxAttempts answers s i) i := by
  by_cases hsupplied : ∀ name ∈ (x.pipeline.taskAt i).required, s.resolved.contains name = true
  · rw [visit_of_supplied hsupplied]
    exact .inl ⟨_, settle_task_self⟩
  · rw [visit_of_not_supplied hsupplied]
    refine .inr ⟨hpending, ?_⟩
    rw [Bool.eq_false_iff, ne_eq, isReady_iff]
    exact fun hready => hsupplied hready.2

theorem Visited.visit (hx : x.Accepted) (hclosed : ∀ i, (x.pipeline.taskAt i).Closed)
    (hkept : ∀ c : Call, c.Kept (answers c)) {visited : List x.pipeline.TaskIndex}
    (h : x.Visited answers inputs visited s) (hi : i ∉ visited)
    (hfeeds : ∀ j ∈ visited, ¬x.pipeline.Feeds i j) :
    x.Visited answers inputs (visited ++ [i])
      (x.pipeline.visit x.tools x.settings.maxAttempts answers s i) := by
  have hpending := h.waiting i hi
  refine ⟨visit_coherent hx hclosed hkept h.coherent (by rw [hpending]; rfl), ?_, fun j hj => ?_⟩
  · intro j hj
    rcases List.mem_append.mp hj with hj | hj
    · exact (h.complete j hj).visit (fun heq => hi (heq ▸ hj)) (hfeeds j hj)
    · obtain rfl := List.mem_singleton.mp hj
      exact complete_visit_self hpending
  · have hij : i ≠ j := fun heq => hj (List.mem_append_right _ (List.mem_singleton.mpr heq.symm))
    rw [visit_task_of_ne hij]
    exact h.waiting j fun hmem => hj (List.mem_append_left _ hmem)

/-- The visits of the tasks of a topological order, from some point on. -/
theorem Visited.foldl (hx : x.Accepted) (hclosed : ∀ i, (x.pipeline.taskAt i).Closed)
    (hkept : ∀ c : Call, c.Kept (answers c)) {order visited rest : List x.pipeline.TaskIndex}
    (horder : x.pipeline.graph.IsTopological order) (hsplit : order = visited ++ rest)
    (h : x.Visited answers inputs visited s) :
    x.Visited answers inputs order
      (rest.foldl (x.pipeline.visit x.tools x.settings.maxAttempts answers) s) := by
  induction rest generalizing visited s with
  | nil =>
    rw [List.append_nil] at hsplit
    rw [hsplit]
    exact h
  | cons i rest ih =>
    have hi : i ∉ visited := by
      have hnodup := horder.nodup
      rw [hsplit] at hnodup
      exact fun hmem => (List.nodup_append.mp hnodup).2.2 i hmem i List.mem_cons_self rfl
    refine ih (by rw [hsplit, List.append_assoc]; rfl)
      (h.visit hx hclosed hkept hi fun j hj hfeeds => ?_)
    -- A visited task stands before the one that would feed it.
    have hadj : x.pipeline.graph.Adj i j :=
      (Pipeline.adj_graph_iff_feeds hx.wellFormed.results_nodup).mpr hfeeds
    have hlt := horder.idxOf_lt (.single hadj)
    rw [hsplit, List.idxOf_append_of_mem hj, List.idxOf_append_of_notMem hi] at hlt
    have hj' := List.idxOf_lt_length_of_mem hj
    omega

end Executor

end PromptPipeline
