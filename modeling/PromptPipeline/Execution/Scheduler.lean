import PromptPipeline.Document.Validation
import PromptPipeline.Execution.Settings
import PromptPipeline.Execution.State

/-!
# Running a pipeline

A run starts tasks as soon as their parameters have values, as many at a time as the settings
allow, and gathers their results. Which task moves on next is not the run's choice: a schedule
decides at each tick, and every schedule is possible. Ticks pass one interaction at a time, so all
interleavings of tasks are schedules.
-/

namespace PromptPipeline

/-- A validated pipeline with what it takes to run it. -/
structure Executor where
  pipeline : Pipeline
  tools : Tools
  settings : ExecutionSettings
  /-- The tasks in topological order. -/
  order : List pipeline.TaskIndex

/-- The choices of a run: a number for each tick, taken modulo the number of tasks to choose from. -/
abbrev Schedule := Nat → Nat

/-- The schedule that always works on the first task in the document. -/
def Schedule.firstTask : Schedule := fun _ => 0

namespace Executor

/-- The executor of a pipeline, if the settings can be used and the pipeline is valid. -/
def ofPipeline (pipeline : Pipeline) (tools : Tools) (settings : ExecutionSettings) :
    Result Executor := do
  settings.check.mapError .settings
  let _ ← (pipeline.validate none).mapError .logic
  let order ← pipeline.executionOrder.mapError .logic
  .ok { pipeline, tools, settings, order }

variable {N : Type} [Zero N] [Add N] (x : Executor)

/-- The declared inputs among the given values. -/
def declaredInputs (inputs : Bindings String) : Bindings String :=
  inputs.filter fun name _ =>
    match x.pipeline.parameter? name with
    | some parameter => parameter.isInput
    | none => false

/-- The state in which no task has started. -/
def initialState (inputs : Bindings String) : RunState N x.pipeline :=
  let resolved := x.declaredInputs inputs
  { tasks := Vector.replicate _ .pending
    resolved
    errors := (x.pipeline.inputs.filter (!resolved.contains ·.name)).map fun parameter =>
      { error := .execution (.inputNotGiven parameter.name) } }

/-- Whether a task waits and all parameters that it requires have values. -/
def isReady (s : RunState N x.pipeline) (i : x.pipeline.TaskIndex) : Bool :=
  s.tasks[i].isPending && (x.pipeline.taskAt i).required.toList.all s.resolved.contains

/-- The task with the values of the parameters that it requires. -/
def assignment (s : RunState N x.pipeline) (i : x.pipeline.TaskIndex) : Assignment :=
  let task := x.pipeline.taskAt i
  { task
    tools := x.tools
    parameters := s.resolved.filter fun name _ => decide (name ∈ task.required)
    maxAttempts := x.settings.maxAttempts }

/-- Starts a task. -/
def start (s : RunState N x.pipeline) (i : x.pipeline.TaskIndex) : RunState N x.pipeline :=
  s.setTask i (.running (x.assignment s i).work)

/-- Starts the ready tasks among the given ones, as long as there is room. -/
def scan (s : RunState N x.pipeline) :
    List x.pipeline.TaskIndex → RunState N x.pipeline × List Progress
  | [] => (s, [])
  | i :: rest =>
    if x.settings.maxParallel ≤ s.inFlight then (s, [])
    else if x.isReady s i then
      let (s, started) := scan (x.start s i) rest
      (s, .about (x.pipeline.taskAt i) .ready 0 :: started)
    else scan s rest

/-- Records the end of the work on a task; an error of the engine ends the run instead. -/
def join (s : RunState N x.pipeline) (i : x.pipeline.TaskIndex) (run : TaskRun N) :
    Result (RunState N x.pipeline × Progress) :=
  let task := x.pipeline.taskAt i
  let report := run.report
  let close (s : RunState N x.pipeline) (report : TaskReport N) (message : Option String) :=
    .ok (s.setTask i (.finished report), .about task report.status report.attemptsUsed message)
  match run.ending with
  | .succeeded value =>
    if s.resolved.contains task.result then
      .error (.unexpected (.resolvedTwice task.result))
    else
      close { s with resolved := s.resolved.insert task.result value }
        { report with status := .succeeded, result := some value } none
  | .failed (.unexpected fault) => .error (.unexpected fault)
  | .failed error =>
    let record : ErrorRecord := { task := some task.name, error }
    close { s with errors := s.errors ++ [record] }
      { report with status := .failed, error := some record } (some error.message)
  | .cancelled => close s { report with status := .cancelled } none

omit [Zero N] [Add N] in
theorem join_follows {s : RunState N x.pipeline} {i : x.pipeline.TaskIndex} {run : TaskRun N}
    {work : Activity N (TaskRun N)} (h : s.tasks[i] = .running work)
    {s' : RunState N x.pipeline} {p : Progress} (hj : x.join s i run = .ok (s', p)) :
    s'.Follows s := by
  have hset (r : TaskReport N) (resolved : Bindings String) (errors : List ErrorRecord) :
      (RunState.setTask { tasks := s.tasks, resolved, errors } i (.finished r)).Follows s :=
    RunState.setTask_follows (s := s) (by rw [h]; exact .finish r work)
  simp only [join] at hj
  split at hj
  · split at hj
    · simp at hj
    · cases hj; exact hset ..
  · simp at hj
  · cases hj; exact hset ..
  · cases hj; exact hset ..

theorem scan_later {s : RunState N x.pipeline} {is : List x.pipeline.TaskIndex} :
    (x.scan s is).1 = s ∨ (x.scan s is).1.Later s := by
  induction is generalizing s with
  | nil => exact .inl rfl
  | cons i rest ih =>
    simp only [scan]
    split
    · exact .inl rfl
    · split
      · next hready =>
        have hpending : s.tasks[i] = .pending := by
          simp only [isReady, Bool.and_eq_true] at hready
          cases htask : s.tasks[i] with
          | pending => rfl
          | running work => simp [htask, TaskState.isPending] at hready
          | finished report => simp [htask, TaskState.isPending] at hready
        have hstart : (x.start s i).Follows s :=
          RunState.setTask_follows (by rw [hpending]; exact .start _)
        rcases ih (s := x.start s i) with h | h
        · right; rw [h]; exact .single hstart
        · exact .inr (.tail h hstart)
      · exact ih

/-- The report of a task at the end of a run. A task that has not started is cancelled if the
signal is set, and is skipped otherwise. -/
def closingReport (s : RunState N x.pipeline) (cancelled : Bool) (i : x.pipeline.TaskIndex) :
    TaskReport N × List Progress :=
  let task := x.pipeline.taskAt i
  match s.tasks[i] with
  | .finished report => (report, [])
  | _ =>
    let status := if cancelled then .cancelled else .skipped
    ({ TaskReport.ofTask task with status }, [.about task status 0])

/-- What a run comes to when no task is being worked on. -/
def outcome (s : RunState N x.pipeline) (cancelled : Bool) (tasks : List (TaskReport N)) :
    Outcome N :=
  let errors := s.errors ++
    if cancelled && tasks.any (·.status == .cancelled) then
      [{ error := .execution .cancelled }]
    else []
  let declared := x.pipeline.outputs.map (·.name)
  let outputs := s.resolved.filter fun name _ => declared.contains name
  let usage := Usage.total (tasks.map (·.usage))
  { report :=
      { url := x.pipeline.url
        title := x.pipeline.title
        dialectVersion := x.pipeline.dialectVersion
        isSuccessful := errors.isEmpty && declared.all outputs.contains
        tasks
        usage
        errors
        outputs }
    usage
    resolved := s.resolved }

/-- Looks at the signal and starts ready tasks unless it is set. -/
def dispatch {α : Type} (s : RunState N x.pipeline)
    (next : {s' : RunState N x.pipeline // s' = s ∨ s'.Later s} → Activity N α) : Activity N α :=
  .isCancelled fun
    | true => next ⟨s, .inl rfl⟩
    | false =>
      let scanned := x.scan s x.order
      .notifyAll scanned.2 (next ⟨scanned.1, x.scan_later⟩)

/-- Ends a run. -/
def close (s : RunState N x.pipeline) : Activity N (Outcome N) :=
  .isCancelled fun cancelled =>
    let closings := (List.finRange _).map (x.closingReport s cancelled)
    .notifyAll (closings.flatMap (·.2)) (.done (x.outcome s cancelled (closings.map (·.1))))

/-- What a tick leads to: a later state, or the end of the run. -/
inductive Tick (s : RunState N x.pipeline) where
  | proceed (next : RunState N x.pipeline) (later : next.Later s)
  | finished (result : Result (Outcome N))

/-- Passes one interaction of one of the tasks that are being worked on, or gathers its result if
the work is done; ends the run if there is none. -/
def tick (s : RunState N x.pipeline) (choice : Nat) : Activity N (x.Tick s) :=
  match s.running[choice % s.running.length]? with
  | none => do return .finished (.ok (← x.close s))
  | some i =>
    let proceed (work : Activity N (TaskRun N)) (h : (TaskState.running work).Follows s.tasks[i]) :
        Activity N (x.Tick s) :=
      .done (.proceed (s.setTask i (.running work)) (.single (RunState.setTask_follows h)))
    match hi : s.tasks[i] with
    | .running (.done run) =>
      match hj : x.join s i run with
      | .error e => .done (.finished (.error e))
      | .ok (s', progress) =>
        have hs : s'.Follows s := x.join_follows hi hj
        .notify progress (x.dispatch s' fun
          | ⟨s'', h⟩ => .done (.proceed s'' (by
              rcases h with rfl | h
              · exact .single hs
              · exact .tail h hs)))
    | .running (.isCancelled next) =>
      .isCancelled fun b => proceed (next b) (by rw [hi]; exact .proceed (.isCancelled next b))
    | .running (.notify p next) =>
      .notify p (proceed next (by rw [hi]; exact .proceed (.notify p next)))
    | .running (.ask c next) =>
      .ask c fun a => proceed (next a) (by rw [hi]; exact .proceed (.ask c next a))
    | .pending | .finished _ => do return .finished (.ok (← x.close s))

/-- Ticks until the run ends; `time` is the number of the next tick. -/
def ticks (schedule : Schedule) (time : Nat) (s : RunState N x.pipeline) :
    Activity N (Result (Outcome N)) := do
  match ← x.tick s (schedule time) with
  | .finished result => return result
  | .proceed next _ => ticks schedule (time + 1) next
termination_by s
decreasing_by assumption

/-- Runs the pipeline on inputs, under a schedule. Values of undeclared inputs are ignored. -/
def execute (schedule : Schedule) (inputs : Bindings String) : Activity N (Result (Outcome N)) :=
  .notifyAll (x.pipeline.tasks.map fun task => .about task .pending 0)
    (x.dispatch (x.initialState inputs) fun s => x.ticks schedule 0 s.1)

end Executor

end PromptPipeline
