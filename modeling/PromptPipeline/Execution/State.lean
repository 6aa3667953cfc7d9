import PromptPipeline.Document.TaskGraph
import PromptPipeline.Execution.Worker

/-!
# The state of a run

Each task of a run waits, is worked on, or is finished. A task never goes back, and the work on it
comes to an end, so no run goes on forever. Main statement: `later_wellFounded`.
-/

namespace PromptPipeline

/-- What a run knows of a task. -/
inductive TaskState (N : Type) where
  | pending
  /-- The rest of the work on the task. -/
  | running (work : Activity N (TaskRun N))
  | finished (report : TaskReport N)

namespace TaskState

variable {N : Type}

/-- Whether the task waits. -/
def isPending : TaskState N → Bool
  | pending => true
  | _ => false

/-- Whether the task is being worked on. -/
def isRunning : TaskState N → Bool
  | running _ => true
  | _ => false

/-- Whether a state of a task comes directly after another one. -/
inductive Follows : TaskState N → TaskState N → Prop
  | start (work : Activity N (TaskRun N)) : Follows (running work) pending
  | proceed {rest work : Activity N (TaskRun N)} (h : rest.Continues work) :
      Follows (running rest) (running work)
  | finish (report : TaskReport N) (work : Activity N (TaskRun N)) :
      Follows (finished report) (running work)

theorem follows_wellFounded : WellFounded (Follows (N := N)) := by
  have hfinished (report : TaskReport N) : Acc Follows (finished report) :=
    ⟨_, fun _ h => nomatch h⟩
  have hrunning (work : Activity N (TaskRun N)) : Acc Follows (running work) := by
    induction work using Activity.continues_wellFounded.induction with
    | _ work ih =>
      refine ⟨_, fun _ h => ?_⟩
      cases h with
      | proceed h => exact ih _ h
      | finish report => exact hfinished report
  refine ⟨fun state => ?_⟩
  cases state with
  | pending => exact ⟨_, fun _ h => by cases h; exact hrunning _⟩
  | running work => exact hrunning work
  | finished report => exact hfinished report

end TaskState

/-- Whether a list comes from another one by replacing one item by one that is related to it. -/
inductive OneReplaced {α : Type} (r : α → α → Prop) : List α → List α → Prop
  | head {y x : α} (rest : List α) (h : r y x) : OneReplaced r (y :: rest) (x :: rest)
  | tail (x : α) {rest' rest : List α} (h : OneReplaced r rest' rest) :
      OneReplaced r (x :: rest') (x :: rest)

theorem OneReplaced.wellFounded {α : Type} {r : α → α → Prop} (h : WellFounded r) :
    WellFounded (OneReplaced r) := by
  refine ⟨fun l => ?_⟩
  induction l with
  | nil => exact ⟨_, fun _ h => nomatch h⟩
  | cons x rest ih =>
    induction x using h.induction generalizing rest with
    | _ x ihx =>
      induction ih with
      | intro rest hrest ihrest =>
        refine ⟨_, fun _ hstep => ?_⟩
        cases hstep with
        | head _ hyx => exact ihx _ hyx rest ⟨rest, hrest⟩
        | tail _ htail => exact ihrest _ htail

theorem OneReplaced.set {α : Type} {r : α → α → Prop} {l : List α} {i : Nat} {x y : α}
    (hi : l[i]? = some x) (h : r y x) : OneReplaced r (l.set i y) l := by
  induction l generalizing i with
  | nil => simp at hi
  | cons z rest ih =>
    cases i with
    | zero =>
      simp only [List.getElem?_cons_zero, Option.some.injEq] at hi
      subst hi
      exact .head rest h
    | succ i =>
      simp only [List.getElem?_cons_succ] at hi
      exact .tail z (ih hi)

/-- The state of a run between two interactions. -/
structure RunState (N : Type) (p : Pipeline) where
  tasks : Vector (TaskState N) p.tasks.length
  /-- The parameters that have values. -/
  resolved : Bindings String
  errors : List ErrorRecord

namespace RunState

variable {N : Type} {p : Pipeline}

/-- The state in which one task has moved on. -/
def setTask (s : RunState N p) (i : p.TaskIndex) (state : TaskState N) : RunState N p :=
  { s with tasks := s.tasks.set i state }

/-- The number of tasks that are being worked on. -/
def inFlight (s : RunState N p) : Nat :=
  s.tasks.toList.countP (·.isRunning)

/-- The tasks that are being worked on, in document order. -/
def running (s : RunState N p) : List p.TaskIndex :=
  (List.finRange p.tasks.length).filter fun i => s.tasks[i].isRunning

/-- Whether one task has moved on from one state to the other. -/
def Follows (s' s : RunState N p) : Prop :=
  OneReplaced TaskState.Follows s'.tasks.toList s.tasks.toList

/-- Whether tasks have moved on from one state to the other, and at least one has. -/
def Later (s' s : RunState N p) : Prop :=
  Relation.TransGen Follows s' s

/-- No run goes on forever. -/
theorem later_wellFounded : WellFounded (Later (N := N) (p := p)) :=
  WellFounded.transGen (InvImage.wf (fun s : RunState N p => s.tasks.toList)
    (OneReplaced.wellFounded TaskState.follows_wellFounded))

instance : WellFoundedRelation (RunState N p) := ⟨Later, later_wellFounded⟩

theorem setTask_follows {s : RunState N p} {i : p.TaskIndex} {state : TaskState N}
    (h : state.Follows s.tasks[i]) : (s.setTask i state).Follows s := by
  simp only [Follows, setTask, Vector.toList_set]
  exact OneReplaced.set (by simp) h

end RunState

end PromptPipeline
