import Mathlib.Data.List.FinRange
import PromptPipeline.Execution.Scheduler
import PromptPipeline.Proofs.Bindings

/-!
# How a task settles

A state of a run says of each task whether it waits, is worked on or is finished. When one task
moves on, the others stay as they are.

The work on a task ends once, and then the run takes from it a report, perhaps a value and perhaps
an error. `settle` says so in one equation for all endings, and `settle_of_join` shows that this is
what a run does, unless an error of the engine ends it (`join_eq_error`).
-/

/-! ## The tasks of a state -/

namespace PromptPipeline

variable {N : Type}

namespace TaskState

/-- The report of a task that is finished. -/
def report? : TaskState N → Option (TaskReport N)
  | .finished report => some report
  | _ => none

theorem report?_eq_some_iff {state : TaskState N} {report : TaskReport N} :
    state.report? = some report ↔ state = .finished report := by
  cases state <;> simp [report?]

end TaskState

namespace RunState

variable {p : Pipeline} {s : RunState N p} {i j : p.TaskIndex} {state : TaskState N}

/-- What the state knows of a task. -/
def task (s : RunState N p) (i : p.TaskIndex) : TaskState N :=
  s.tasks.get i

@[simp]
theorem setTask_task_self : (s.setTask i state).task i = state := by
  show (s.tasks.set i state)[i] = state
  simp

theorem setTask_task_of_ne (h : i ≠ j) : (s.setTask i state).task j = s.task j := by
  have hval : i.val ≠ j.val := fun heq => h (Fin.ext heq)
  show (s.tasks.set i state)[j] = s.tasks[j]
  simp [Vector.getElem_set_ne, hval]

theorem mem_running_iff : i ∈ s.running ↔ ∃ work, s.task i = .running work := by
  rw [running, List.mem_filter]
  show _ ∧ (s.task i).isRunning = true ↔ _
  cases s.task i <;> simp [TaskState.isRunning]

end RunState

end PromptPipeline

/-! ## The end of the work on a task -/

namespace PromptPipeline

/-- A list with one more item has, at the place of that item, what the item adds. -/
theorem filterMap_perm_of_eq_off {α β : Type} {l : List α} {a : α} {f g : α → Option β}
    (hnodup : l.Nodup) (ha : a ∈ l) (hnone : f a = none) (hoff : ∀ b, b ≠ a → g b = f b) :
    (l.filterMap g).Perm (l.filterMap f ++ (g a).toList) := by
  -- Before and after `a` the two functions agree.
  obtain ⟨l₁, l₂, rfl⟩ := List.append_of_mem ha
  obtain ⟨-, hnodup₂, hdisjoint⟩ := List.nodup_append.mp hnodup
  have hcongr {l' : List α} (h : ∀ b ∈ l', b ≠ a) : l'.filterMap g = l'.filterMap f :=
    List.filterMap_congr fun b hb => hoff b (h b hb)
  have h₁ : l₁.filterMap g = l₁.filterMap f :=
    hcongr fun b hb => hdisjoint b hb a List.mem_cons_self
  have h₂ : l₂.filterMap g = l₂.filterMap f := by
    refine hcongr fun b hb heq => ?_
    subst heq
    exact (List.nodup_cons.mp hnodup₂).1 hb
  have hcons : (a :: l₂).filterMap g = (g a).toList ++ l₂.filterMap f := by
    rw [← h₂]
    cases hg : g a <;> simp [hg]
  rw [List.filterMap_append, List.filterMap_append, h₁, hcons, List.filterMap_cons_none hnone,
    List.append_assoc]
  exact List.perm_append_comm.append_left _

variable {N : Type}

/-- The report of a task once the work on it has ended. -/
def TaskRun.settled (run : TaskRun N) (task : Task) : TaskReport N :=
  match run.ending with
  | .succeeded value => { run.report with status := .succeeded, result := some value }
  | .failed error =>
    { run.report with status := .failed, error := some { task := some task.name, error } }
  | .cancelled => { run.report with status := .cancelled }

namespace TaskReport

/-- The value that the task adds to the run. -/
def value? (r : TaskReport N) : Option String :=
  if r.status = .succeeded then r.result else none

/-- The error that the task adds to the run. -/
def failure? (r : TaskReport N) : Option ErrorRecord :=
  if r.status = .failed then r.error else none

/-- The notification that the task has come to its end. -/
def lastProgress (r : TaskReport N) (t : Task) : Progress :=
  .about t r.status r.attemptsUsed (r.failure?.map (·.error.message))

theorem status_of_value? {r : TaskReport N} {value : String} (h : r.value? = some value) :
    r.status = .succeeded := by
  unfold value? at h
  split at h
  next hstatus => exact hstatus
  next => cases h

theorem result_of_value? {r : TaskReport N} {value : String} (h : r.value? = some value) :
    r.result = some value := by
  unfold value? at h
  split at h
  next => exact h
  next => cases h

end TaskReport

namespace TaskRun

variable {run : TaskRun N} {task : Task}

/-- Only a success adds a value. -/
theorem settled_value?_eq_some_iff {value : String} :
    (run.settled task).value? = some value ↔ run.ending = .succeeded value := by
  unfold settled
  cases run.ending <;> simp [TaskReport.value?]

theorem settled_task : (run.settled task).task = run.report.task := by
  unfold settled
  cases run.ending <;> rfl

/-- A settled task succeeded with a value, failed with an error, or was cancelled. -/
theorem settled_cases (run : TaskRun N) (task : Task) :
    ((run.settled task).status = .succeeded ∧ ∃ value, (run.settled task).value? = some value) ∨
      ((run.settled task).status = .failed ∧
        ∃ record, (run.settled task).failure? = some record) ∨
      ((run.settled task).status = .cancelled ∧ run.ending = .cancelled) := by
  unfold settled
  cases run.ending with
  | succeeded value => exact .inl ⟨rfl, value, rfl⟩
  | failed error => exact .inr (.inl ⟨rfl, _, rfl⟩)
  | cancelled => exact .inr (.inr ⟨rfl, rfl⟩)

theorem settled_value?_of_succeeded (h : (run.settled task).status = .succeeded) :
    ∃ value, (run.settled task).value? = some value := by
  rcases run.settled_cases task with ⟨-, hvalue⟩ | ⟨hfailed, -⟩ | ⟨hcancelled, -⟩
  · exact hvalue
  · rw [hfailed] at h
    cases h
  · rw [hcancelled] at h
    cases h

/-- The error in the report is the one that the task adds. -/
theorem settled_failure?_eq_error (h : run.report.error = none) :
    (run.settled task).failure? = (run.settled task).error := by
  unfold settled
  cases run.ending <;> simp [TaskReport.failure?, h]

theorem settled_attemptsUsed (run : TaskRun N) (task : Task) :
    (run.settled task).attemptsUsed = run.report.attemptsUsed := by
  unfold settled
  cases run.ending <;> rfl

theorem settled_attempts (run : TaskRun N) (task : Task) :
    (run.settled task).attempts = run.report.attempts := by
  unfold settled
  cases run.ending <;> rfl

theorem settled_usage (run : TaskRun N) (task : Task) :
    (run.settled task).usage = run.report.usage := by
  unfold settled
  cases run.ending <;> rfl

theorem settled_jokerUsed : (run.settled task).jokerUsed = run.report.jokerUsed := by
  unfold settled
  cases run.ending <;> rfl

/-- Only a failure adds an error. -/
theorem settled_failure?_eq_some_iff {record : ErrorRecord} :
    (run.settled task).failure? = some record ↔
      ∃ error, run.ending = .failed error ∧ record = { task := some task.name, error } := by
  unfold settled
  cases run.ending <;> simp [TaskReport.failure?, eq_comm]

theorem settled_failure?_isSome_iff (run : TaskRun N) (task : Task) :
    (run.settled task).failure?.isSome = true ↔ (run.settled task).status = .failed := by
  unfold settled
  cases run.ending <;> simp [TaskReport.failure?]

/-- A settled task has come to its end. -/
theorem settled_isTerminal (run : TaskRun N) (task : Task) :
    (run.settled task).status.isTerminal = true := by
  unfold settled
  cases run.ending <;> rfl

end TaskRun

namespace RunState

variable {p : Pipeline} {s : RunState N p} {i j : p.TaskIndex} {report : TaskReport N}

/-- The state in which a task is finished with the report, and its value and its error are part of
the run. -/
def settle (s : RunState N p) (i : p.TaskIndex) (report : TaskReport N) : RunState N p :=
  { tasks := (s.setTask i (.finished report)).tasks
    resolved := match report.value? with
      | some value => s.resolved.insert (p.taskAt i).result value
      | none => s.resolved
    errors := s.errors ++ report.failure?.toList }

@[simp]
theorem settle_task_self : (s.settle i report).task i = .finished report :=
  setTask_task_self (s := s)

theorem settle_task_of_ne (h : i ≠ j) : (s.settle i report).task j = s.task j :=
  setTask_task_of_ne (s := s) h

theorem settle_finished_iff {r : TaskReport N} (hi : (s.task i).report? = none) :
    (s.settle i report).task j = .finished r ↔ s.task j = .finished r ∨ i = j ∧ report = r := by
  by_cases hij : i = j
  · subst hij
    have hnot : s.task i ≠ .finished r := by
      intro heq
      rw [heq] at hi
      cases hi
    rw [settle_task_self, or_iff_right hnot]
    simp
  · rw [settle_task_of_ne hij]
    simp [hij]

/-- A task that settles adds its value, if its result had none. -/
theorem settle_get?_eq_some_iff {name value : String}
    (hnew : ∀ value, report.value? = some value →
      s.resolved.contains (p.taskAt i).result = false) :
    (s.settle i report).resolved.get? name = some value ↔
      s.resolved.get? name = some value ∨
        (p.taskAt i).result = name ∧ report.value? = some value := by
  unfold settle
  cases hvalue : report.value? with
  | none => simp
  | some value' =>
    have hunbound := Bindings.not_contains_iff.mp (hnew value' hvalue)
    dsimp only
    rw [Bindings.get?_insert]
    split
    next heq =>
      subst heq
      simp [hunbound]
    next hne => simp [Ne.symm hne]

/-- A value is bound once and stays. -/
theorem settle_le (hnew : ∀ value, report.value? = some value →
    s.resolved.contains (p.taskAt i).result = false) :
    s.resolved.Le (s.settle i report).resolved :=
  fun _ _ hvalue => (settle_get?_eq_some_iff hnew).mpr (.inl hvalue)

theorem settle_get?_of_ne {name : String} (h : name ≠ (p.taskAt i).result) :
    (s.settle i report).resolved.get? name = s.resolved.get? name := by
  unfold settle
  cases report.value? with
  | none => rfl
  | some value =>
    dsimp only
    rw [Bindings.get?_insert, if_neg h]

/-- The errors of the tasks that failed, in document order. -/
def failures (s : RunState N p) : List ErrorRecord :=
  (List.finRange p.tasks.length).filterMap fun i => (s.task i).report?.bind (·.failure?)

theorem failures_settle_perm (hi : (s.task i).report? = none) :
    (s.settle i report).failures.Perm (s.failures ++ report.failure?.toList) := by
  have hself : ((s.settle i report).task i).report?.bind (·.failure?) = report.failure? := by
    rw [settle_task_self]
    rfl
  rw [← hself]
  refine filterMap_perm_of_eq_off (List.nodup_finRange _) (List.mem_finRange i) ?_ fun j hj => ?_
  · rw [hi]
    rfl
  · rw [settle_task_of_ne hj.symm]

end RunState

namespace Executor

variable {x : Executor} {s s' : RunState N x.pipeline} {i : x.pipeline.TaskIndex} {run : TaskRun N}

/-- **A run settles each task.** Its result had no value before, and it did not fail with an
internal error. -/
theorem settle_of_join {progress : Progress} (h : x.join s i run = .ok (s', progress)) :
    s' = s.settle i (run.settled (x.pipeline.taskAt i)) ∧
      progress = (run.settled (x.pipeline.taskAt i)).lastProgress (x.pipeline.taskAt i) ∧
      (∀ fault, run.ending ≠ .failed (.unexpected fault)) ∧
      ∀ value, run.ending = .succeeded value →
        s.resolved.contains (x.pipeline.taskAt i).result = false := by
  unfold join at h
  unfold TaskRun.settled
  dsimp only at h
  split at h
  -- A success adds a value, unless its result has one.
  next value hending =>
    split at h
    next => cases h
    next hnew =>
      cases h
      rw [hending]
      refine ⟨?_, rfl, fun _ hfault => ?_, fun _ _ => by simpa using hnew⟩
      · simp [RunState.settle, RunState.setTask, TaskReport.value?, TaskReport.failure?]
      · cases hfault
  next => cases h
  -- A failure adds an error, unless it is an internal one, which ends the run.
  next error hordinary hending =>
    cases h
    rw [hending]
    refine ⟨?_, rfl, fun fault hfault => ?_, fun _ hvalue => ?_⟩
    · simp [RunState.settle, RunState.setTask, TaskReport.value?, TaskReport.failure?]
    · cases hfault
      exact hordinary fault rfl
    · cases hvalue
  -- A cancelled task adds nothing.
  next hending =>
    cases h
    rw [hending]
    refine ⟨?_, rfl, fun _ hfault => ?_, fun _ hvalue => ?_⟩
    · simp [RunState.settle, RunState.setTask, TaskReport.value?, TaskReport.failure?]
    · cases hfault
    · cases hvalue

/-- The end of the work on a task ends the run if the task failed with an internal error, or if its
result has a value already. -/
theorem join_eq_error {e : PipelineError} (h : x.join s i run = .error e) :
    (∃ fault, run.ending = .failed (.unexpected fault) ∧ e = .unexpected fault) ∨
      s.resolved.contains (x.pipeline.taskAt i).result = true := by
  unfold join at h
  dsimp only at h
  split at h
  next value hending =>
    split at h
    next hbound => exact .inr hbound
    next => cases h
  next fault hending =>
    cases h
    exact .inl ⟨fault, hending, rfl⟩
  next => cases h
  next => cases h

end Executor

end PromptPipeline
