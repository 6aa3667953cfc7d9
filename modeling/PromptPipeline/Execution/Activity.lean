import PromptPipeline.Execution.Call
import PromptPipeline.Execution.Progress

/-!
# Activities

An activity is what a run, or one of its tasks, does, as a tree: each node is a call, a look at the
cancellation signal or a notification, and has a branch for every answer. What the adapters are is
left open; `Activity.run` plays an activity in an environment that answers.
-/

namespace PromptPipeline

/-- A sequence of interactions with the outside that ends with a result. -/
inductive Activity (N α : Type) where
  | done (result : α)
  | isCancelled (next : Bool → Activity N α)
  | notify (progress : Progress) (next : Activity N α)
  | ask (call : Call) (next : call.Answer N → Activity N α)

/-- The outside of a run: it answers calls, knows whether to stop, and hears of progress. -/
structure Environment (m : Type → Type) (N : Type) where
  answer : (call : Call) → m (call.Answer N)
  isCancelled : m Bool
  notify : Progress → m Unit

namespace Activity

variable {N α β : Type}

/-- One activity after another. -/
def bind : Activity N α → (α → Activity N β) → Activity N β
  | done a, f => f a
  | isCancelled next, f => isCancelled fun b => bind (next b) f
  | notify p next, f => notify p (bind next f)
  | ask c next, f => ask c fun a => bind (next a) f

instance : Monad (Activity N) where
  pure := done
  bind := bind

/-- The activity of one call. -/
def call (c : Call) : Activity N (c.Answer N) :=
  ask c done

/-- The activity after some notifications. -/
def notifyAll : List Progress → Activity N α → Activity N α
  | [], rest => rest
  | p :: ps, rest => notify p (notifyAll ps rest)

/-- Plays the activity in an environment. -/
def run {m : Type → Type} [Monad m] (env : Environment m N) : Activity N α → m α
  | done a => pure a
  | isCancelled next => do run env (next (← env.isCancelled))
  | notify p next => do
    env.notify p
    run env next
  | ask c next => do run env (next (← env.answer c))

/-- Whether an activity is what remains of another one after its first interaction. -/
inductive Continues : Activity N α → Activity N α → Prop
  | isCancelled (next : Bool → Activity N α) (b : Bool) : Continues (next b) (.isCancelled next)
  | notify (p : Progress) (next : Activity N α) : Continues next (.notify p next)
  | ask (c : Call) (next : c.Answer N → Activity N α) (a : c.Answer N) :
      Continues (next a) (.ask c next)

/-- Every activity comes to its end. -/
theorem continues_wellFounded : WellFounded (Continues (N := N) (α := α)) := by
  refine ⟨fun t => ?_⟩
  induction t with
  | done a => exact ⟨_, fun _ h => nomatch h⟩
  | isCancelled next ih => exact ⟨_, fun _ h => by cases h; exact ih _⟩
  | notify p next ih => exact ⟨_, fun _ h => by cases h; exact ih⟩
  | ask c next ih => exact ⟨_, fun _ h => by cases h; exact ih _⟩

end Activity

end PromptPipeline
