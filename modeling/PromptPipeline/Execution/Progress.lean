import PromptPipeline.Document.Pipeline

/-!
# Progress

The stages of a task within a run, and the notifications about them.
-/

namespace PromptPipeline

/-- The stage of a task within a run. -/
inductive TaskStatus where
  | pending
  | ready
  | dispatching
  | succeeded
  /-- The attempts are used up, or an error was final. -/
  | failed
  /-- The task was never started, since a parameter did not resolve. -/
  | skipped
  | cancelled
  deriving DecidableEq, Repr

namespace TaskStatus

/-- Whether the task has come to its end. -/
def isTerminal : TaskStatus → Bool
  | succeeded | failed | skipped | cancelled => true
  | pending | ready | dispatching => false

/-- The name of the status in reports. -/
def label : TaskStatus → String
  | pending => "PENDING"
  | ready => "READY"
  | dispatching => "DISPATCHING"
  | succeeded => "SUCCEEDED"
  | failed => "FAILED"
  | skipped => "SKIPPED"
  | cancelled => "CANCELLED"

/-- The status in the words of a message. -/
def words : TaskStatus → String
  | pending => "pending"
  | ready => "ready"
  | dispatching => "dispatching"
  | succeeded => "succeeded"
  | failed => "failed"
  | skipped => "skipped"
  | cancelled => "cancelled"

/-- The sign of the status on a terminal. -/
def symbol : TaskStatus → String
  | succeeded => "✓"
  | failed => "✗"
  | skipped => "○"
  | cancelled => "⊘"
  | pending | ready | dispatching => "→"

end TaskStatus

/-- A notification that a task has come to a stage. -/
structure Progress where
  taskName : String
  taskTitle : String
  status : TaskStatus
  /-- The number of the attempt, or zero before the first one. -/
  attempt : Nat
  message : Option String := none
  deriving DecidableEq

namespace Progress

/-- The notification about a task. -/
def about (t : Task) (status : TaskStatus) (attempt : Nat) (message : Option String := none) :
    Progress :=
  ⟨t.name, t.title, status, attempt, message⟩

/-- The notification on one line. -/
def line (p : Progress) : String :=
  p.status.symbol ++ " " ++ p.taskTitle ++
    (if 1 < p.attempt then s!" (attempt {p.attempt})" else "") ++
    (match p.message with
     | some message => " - " ++ message
     | none => "")

end Progress

end PromptPipeline
