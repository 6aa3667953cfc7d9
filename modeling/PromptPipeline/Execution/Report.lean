import PromptPipeline.Error
import PromptPipeline.Execution.Progress
import PromptPipeline.Execution.Prompt

/-!
# Reports

The record of a run: what each attempt of each task came to, the errors that ended tasks or concern
the run as a whole, and the outputs.
-/

namespace PromptPipeline

/-- An error of a run: one that ended a task, or one of the run as a whole. -/
structure ErrorRecord where
  task : Option String := none
  error : PipelineError
  deriving DecidableEq

/-- The error on one line. -/
def ErrorRecord.line (e : ErrorRecord) : String :=
  match e.task with
  | some task => s!"[{e.error.family}] {task}: {e.error.message}"
  | none => s!"[{e.error.family}] {e.error.message}"

/-- One attempt of a task. -/
structure AttemptReport (N : Type) where
  /-- The number of the attempt, from one on. -/
  attempt : Nat
  /-- What the generator answered, if one was asked and answered. -/
  reply : Option (Reply N) := none
  /-- The output after postprocessing, if the attempt came that far. -/
  result : Option String := none
  error : Option PipelineError := none

/-- What the attempt cost. -/
def AttemptReport.usage {N : Type} [Zero N] (a : AttemptReport N) : Usage N :=
  match a.reply with
  | some reply => reply.usage
  | none => 0

/-- What became of a task. -/
structure TaskReport (N : Type) where
  task : Task
  status : TaskStatus := .pending
  /-- The number of attempts that were made. -/
  attemptsUsed : Nat := 0
  /-- The content with its parameters substituted. -/
  substitutedContent : Option String := none
  result : Option String := none
  /-- The joker that stands in for an answer. -/
  jokerUsed : Option String := none
  /-- What all attempts cost. -/
  usage : Usage N
  attempts : List (AttemptReport N) := []
  error : Option ErrorRecord := none

namespace TaskReport

variable {N : Type}

/-- The report of a task that has not started. -/
def ofTask [Zero N] (t : Task) : TaskReport N :=
  { task := t, usage := 0 }

/-- What the generator had to say besides its last answer. -/
def lastRawResponse? (r : TaskReport N) : Option Json :=
  r.attempts.reverse.findSome? fun a => a.reply.map (·.rawResponse)

end TaskReport

/-- The record of a run. -/
structure ExecutionReport (N : Type) where
  url : Option String
  title : String
  dialectVersion : String
  isSuccessful : Bool
  /-- The reports of the tasks in document order. -/
  tasks : List (TaskReport N)
  usage : Usage N
  errors : List ErrorRecord
  /-- The values of the output parameters. -/
  outputs : Bindings String

/-- What a run comes to. -/
structure Outcome (N : Type) where
  report : ExecutionReport N
  /-- What the run cost. -/
  usage : Usage N
  /-- The values of all parameters, inputs included. -/
  resolved : Bindings String

/-- The number of tasks with each status that occurs, by the words for the status. -/
def ExecutionReport.statusCounts {N : Type} (r : ExecutionReport N) : Bindings Nat :=
  r.tasks.foldl (fun counts t =>
    counts.insert t.status.words ((counts.get? t.status.words).getD 0 + 1)) ∅

end PromptPipeline
