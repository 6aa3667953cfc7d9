import PromptPipeline.Proofs.Execution.Coherent

/-!
# The events of each task

A trace tells the events of the work on a task from those of other tasks and of the run itself. In a
traced state the events of a task, taken out of the trace, are a history of the work on this task
with the values that the state has for it (`Traced.logged`). So what happens to a task in a run is
what the work on it may do, however it is interleaved with the rest.

The work starts with the values of an earlier state. They are those of any later state as well,
since no move takes a value back or changes it (`Moves.resolved_le`).
-/

namespace PromptPipeline.Executor

open RunState

variable {N : Type} [Zero N] [Add N] {x : Executor} {inputs : Bindings String}
  {s s' : RunState N x.pipeline} {i j : x.pipeline.TaskIndex} {history : List (Event N)}
  {trace t : Trace N x.pipeline}

/-! ## Values are bound once -/

theorem Dispatched.resolved_eq (h : x.Dispatched s history s') : s'.resolved = s.resolved := by
  rcases h with ⟨-, rfl⟩ | ⟨-, rfl⟩
  · rfl
  · exact scan_induction (P := fun _ s' => s'.resolved = s.resolved) x.order [] rfl
      fun _ _ _ heq _ => heq

omit [Zero N] [Add N] in
theorem join_resolved_le {run : TaskRun N} {progress : Progress}
    (h : x.join s i run = .ok (s', progress)) : s.resolved.Le s'.resolved := by
  obtain ⟨rfl, -, -, hnew⟩ := settle_of_join h
  exact settle_le fun value hvalue => hnew value (TaskRun.settled_value?_eq_some_iff.mp hvalue)

/-- **A move keeps the values that are bound.** -/
theorem Moves.resolved_le (h : x.Moves s t s') : s.resolved.Le s'.resolved := by
  cases h with
  | proceed hi he => exact .refl _
  | join hi hjoin hdispatch =>
    rw [hdispatch.resolved_eq]
    exact join_resolved_le hjoin

/-- Whether moves lead from one state to the other. -/
def Advances (x : Executor) (s s' : RunState N x.pipeline) : Prop :=
  Relation.ReflTransGen (fun s s' => ∃ t, x.Moves s t s') s s'

theorem Advances.resolved_le (h : x.Advances s s') : s.resolved.Le s'.resolved := by
  induction h with
  | refl => exact .refl _
  | tail _ hmoves ih =>
    obtain ⟨t, hm⟩ := hmoves
    exact ih.trans hm.resolved_le

/-! ## The log of a task -/

omit [Zero N] [Add N] in
/-- The events of the work on a task, in a trace. -/
def eventsOf (trace : Trace N x.pipeline) (i : x.pipeline.TaskIndex) : List (Event N) :=
  trace.filterMap fun entry => if entry.1 = some i then some entry.2 else none

omit [Zero N] [Add N] in
theorem eventsOf_append : eventsOf (trace ++ t) i = eventsOf trace i ++ eventsOf t i :=
  List.filterMap_append

omit [Zero N] [Add N] in
theorem mem_of_mem_eventsOf {e : Event N} (h : e ∈ eventsOf trace i) :
    e ∈ trace.map (·.2) := by
  obtain ⟨entry, hentry, heq⟩ := List.mem_filterMap.mp h
  rw [Option.ite_none_right_eq_some] at heq
  obtain ⟨-, heq⟩ := heq
  cases heq
  exact List.mem_map_of_mem hentry

omit [Zero N] [Add N] in
/-- The run's own events belong to no task. -/
theorem eventsOf_own (events : List (Event N)) :
    eventsOf (x := x) (events.map (none, ·)) i = [] := by
  simp [eventsOf]

/-- The events account for the state of a task: none before it starts, and after that a history of
the work on it, up to what remains or to the end that the report is of. -/
inductive Logged (x : Executor) (s : RunState N x.pipeline) (i : x.pipeline.TaskIndex) :
    List (Event N) → TaskState N → Prop
  | pending : Logged x s i [] .pending
  | running {own : List (Event N)} {work : Activity N (TaskRun N)} (h : x.Worked s i own work) :
      Logged x s i own (.running work)
  | finished {own : List (Event N)} {run : TaskRun N} (h : x.Worked s i own (.done run))
      (hordinary : ∀ fault, run.ending ≠ .failed (.unexpected fault)) :
      Logged x s i own (.finished (run.settled (x.pipeline.taskAt i)))

namespace Logged

variable {own : List (Event N)} {state : TaskState N}

theorem mono (hle : s.resolved.Le s'.resolved) (h : x.Logged s i own state) :
    x.Logged s' i own state := by
  cases h with
  | pending => exact .pending
  | running h => exact .running (h.mono hle)
  | finished h hordinary => exact .finished (h.mono hle) hordinary

theorem eq_nil (h : x.Logged s i own .pending) : own = [] := by
  cases h
  rfl

theorem worked {work : Activity N (TaskRun N)} (h : x.Logged s i own (.running work)) :
    x.Worked s i own work := by
  cases h with
  | running h => exact h

/-- A scan starts tasks of which nothing is logged. -/
theorem dispatch {own : x.pipeline.TaskIndex → List (Event N)}
    (h : ∀ i, x.Logged s i (own i) (s.task i)) (hd : x.Dispatched s history s') :
    ∀ i, x.Logged s' i (own i) (s'.task i) := by
  rcases hd with ⟨-, rfl⟩ | ⟨-, rfl⟩
  · exact h
  · refine scan_induction (P := fun _ s => ∀ i, x.Logged s i (own i) (s.task i)) x.order [] h ?_
    intro _ s i hs hready j
    by_cases hij : i = j
    · subst hij
      obtain ⟨hpending, hsupplied⟩ := isReady_iff.mp hready
      have hi := hs i
      rw [hpending] at hi
      rw [start, setTask_task_self, hi.eq_nil]
      exact .running ⟨hsupplied, .refl _⟩
    · have hj := hs j
      rw [start, setTask_task_of_ne hij]
      exact Logged.mono (s := s) (.refl _) hj

/-- A task settles with the end of its log. -/
theorem settle {own : x.pipeline.TaskIndex → List (Event N)} {run : TaskRun N}
    (h : ∀ i, x.Logged s i (own i) (s.task i)) (hi : s.task i = .running (.done run))
    (hordinary : ∀ fault, run.ending ≠ .failed (.unexpected fault))
    (hle : s.resolved.Le (s.settle i (run.settled (x.pipeline.taskAt i))).resolved)
    (j : x.pipeline.TaskIndex) :
    x.Logged (s.settle i (run.settled (x.pipeline.taskAt i))) j (own j)
      ((s.settle i (run.settled (x.pipeline.taskAt i))).task j) := by
  by_cases hij : i = j
  · subst hij
    have hrun := h i
    rw [hi] at hrun
    rw [settle_task_self]
    exact .finished (hrun.worked.mono hle) hordinary
  · rw [settle_task_of_ne hij]
    exact (h j).mono hle

end Logged

/-- A move adds its events to the logs of the tasks. -/
theorem Moves.logged (h : ∀ i, x.Logged s i (eventsOf trace i) (s.task i)) (hm : x.Moves s t s') :
    ∀ i, x.Logged s' i (eventsOf (trace ++ t) i) (s'.task i) := by
  intro j
  rw [eventsOf_append]
  cases hm with
  | @proceed i work rest e hi he =>
    by_cases hij : i = j
    · -- the task that goes on
      subst hij
      have hwork := h i
      rw [hi] at hwork
      have hlast : eventsOf (x := x) [(some i, e)] i = [e] := by simp [eventsOf]
      rw [setTask_task_self, hlast]
      exact .running ⟨hwork.worked.supplied, hwork.worked.reaches.trans he⟩
    · -- another task
      have hnone : eventsOf (x := x) [(some i, e)] j = [] := by simp [eventsOf, hij]
      rw [setTask_task_of_ne hij, hnone, List.append_nil]
      exact Logged.mono (s := s) (.refl _) (h j)
  | join hi hjoin hdispatch =>
    have hle := join_resolved_le hjoin
    obtain ⟨rfl, -, hordinary, -⟩ := settle_of_join hjoin
    rw [eventsOf_own, List.append_nil]
    exact Logged.dispatch (Logged.settle h hi hordinary hle) hdispatch j

/-- **In a traced state, the events of a task are a history of the work on it**, with the values
that the state has for the parameters that it requires. -/
theorem Traced.logged (h : x.Traced inputs trace s) :
    ∀ i, x.Logged s i (eventsOf trace i) (s.task i) := by
  induction h with
  | start hdispatch =>
    have hinitial (i : x.pipeline.TaskIndex) :
        x.Logged (N := N) (x.initialState inputs) i [] ((x.initialState inputs).task i) := by
      rw [initialState_task]
      exact .pending
    simp only [eventsOf_own]
    exact Logged.dispatch hinitial hdispatch
  | move _ hm ih => exact hm.logged ih

/-- The events of a finished task are the whole history of the work that its report is of. -/
theorem Traced.exists_run (h : x.Traced inputs trace s) {report : TaskReport N}
    (hi : s.task i = .finished report) :
    ∃ run, x.Worked s i (eventsOf trace i) (.done run) ∧
      report = run.settled (x.pipeline.taskAt i) ∧
      ∀ fault, run.ending ≠ .failed (.unexpected fault) := by
  have hlogged := h.logged i
  rw [hi] at hlogged
  generalize eventsOf trace i = own at hlogged ⊢
  cases hlogged with
  | finished hworked hordinary => exact ⟨_, hworked, rfl, hordinary⟩

/-- Where each call has one answer, the report of a finished task is determined by what the task
was given. -/
theorem Traced.report_eq_evaluate (h : x.Traced inputs trace s)
    {answers : (c : Call) → c.Answer N} (hobeys : ∀ e ∈ trace.map (·.2), e.Obeys answers)
    {report : TaskReport N} (hi : s.task i = .finished report) :
    report = ((x.assignment s i).work.evaluate answers).settled (x.pipeline.taskAt i) := by
  obtain ⟨run, hworked, rfl, -⟩ := h.exists_run hi
  rw [← hworked.reaches.eq_evaluate fun e he => hobeys e (mem_of_mem_eventsOf he)]

end PromptPipeline.Executor
