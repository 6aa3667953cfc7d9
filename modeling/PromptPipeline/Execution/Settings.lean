import PromptPipeline.Error

/-!
# Bounds of a run
-/

namespace PromptPipeline

/-- How often a task may be attempted, and how many tasks may run at the same time. -/
structure ExecutionSettings where
  maxAttempts : Nat := 3
  maxParallel : Nat := 5
  deriving DecidableEq

namespace ExecutionSettings

/-- The settings with which tasks run one at a time. -/
def sequential (s : ExecutionSettings) : ExecutionSettings :=
  { s with maxParallel := 1 }

/-- Both bounds are positive. -/
def check (s : ExecutionSettings) : Except SettingsFault Unit :=
  if s.maxAttempts = 0 then .error .noAttempts
  else if s.maxParallel = 0 then .error .noParallelTasks
  else .ok ()

end ExecutionSettings

end PromptPipeline
