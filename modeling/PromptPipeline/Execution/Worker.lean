import PromptPipeline.Dialect.Template
import PromptPipeline.Execution.Activity
import PromptPipeline.Execution.Report
import PromptPipeline.Expectation.Check

/-!
# The work on a task

What a task does once its parameters have values: it adopts the first joker that meets the
expectations, or makes attempts until one succeeds, an error is final or the attempts are used up.
An attempt produces an output, puts it through the postprocessing functions and checks the
expectations.
-/

namespace PromptPipeline

/-- A task that is ready to run. -/
structure Assignment where
  task : Task
  tools : Tools
  /-- The values of the parameters that the task requires. -/
  parameters : Bindings String
  maxAttempts : Nat

/-- How the work on a task ends. -/
inductive TaskEnd where
  | succeeded (value : String)
  | failed (error : PipelineError)
  | cancelled
  deriving DecidableEq

/-- The finished work on a task. -/
structure TaskRun (N : Type) where
  report : TaskReport N
  ending : TaskEnd

namespace Tools

variable {N : Type}

/-- Asks the generators from a position on for their models: the first one that serves the model.
A generator that does not answer is passed over. -/
def askForModel (name : String) (variant : ModelVariant) :
    (position : Nat) → List String → Activity N (Option Nat)
  | _, [] => pure none
  | i, _ :: rest => do
    let models : Result (List AvailableModel) ← Activity.call (.listModels i)
    match models with
    | .ok models =>
      if models.any (·.serves name variant) then pure (some i)
      else askForModel name variant (i + 1) rest
    | .error _ => askForModel name variant (i + 1) rest

/-- The generator for the requirements: the first one if they name no model, else the first one
that serves the model. -/
def chooseGenerator (tools : Tools) (r : ModelRequirements) : Activity N (Result Nat) :=
  match tools.generators, r.modelName with
  | [], _ => pure (.error (.execution .noGenerator))
  | _ :: _, none => pure (.ok 0)
  | titles, some name => do
    match ← askForModel name r.variant 0 titles with
    | some i => pure (.ok i)
    | none => pure (.error (.execution (.modelNotOffered name r.variant titles)))

end Tools

namespace Assignment

variable {N : Type}

/-- The first joker that meets all expectations, with its value. -/
def passingJoker? (a : Assignment) : Option (String × String) :=
  a.task.jokers.findSome? fun joker =>
    (a.parameters.get? joker).bind fun value =>
      if Expectation.allHold a.task.expectations value then some (joker, value) else none

/-- Asks a generator. -/
def generate (a : Assignment) (content : String) : Activity N (Result (Reply N)) := do
  let requirements := a.task.modelRequirements.getD {}
  match ← a.tools.chooseGenerator requirements with
  | .ok i =>
    Activity.call (.generate i requirements.variant
      { title := a.task.title, content, requirements, expectations := a.task.expectations })
  | .error e => pure (.error e)

/-- Runs the content as a script, with the values of the parameters that it reads. -/
def runScript (a : Assignment) (content : String) : Activity N (Result String) :=
  let language := a.task.contentLanguage.getD ""
  match a.tools.languageRunner? language with
  | some i =>
    Activity.call (.runScript i language content
      (a.parameters.filter fun name _ => decide (name ∈ a.task.dependencies)))
  | none => pure (.error (.execution (.noLanguageRunner language)))

/-- Asks a person. -/
def askUser (a : Assignment) (content : String) : Activity N (Result String) :=
  match a.tools.interface? with
  | some i => Activity.call (.askUser i { title := a.task.title, message := content })
  | none => pure (.error (.execution (.noInterface a.task.name)))

/-- Produces an output, with the reply of a generator if one was asked and answered. -/
def produce (a : Assignment) (content : String) :
    Activity N (Option (Reply N) × Result String) := do
  match a.task.executionType with
  | .simpleTemplate => pure (none, .ok content)
  | .promptTemplate =>
    match ← a.generate content with
    | .ok reply => pure (some reply, .ok reply.content)
    | .error e => pure (none, .error e)
  | .script => do
    let output ← a.runScript content
    pure (none, output)
  | .promptDialog => do
    let output ← a.askUser content
    pure (none, output)

/-- Puts a value through the functions, in order. -/
def postprocess (a : Assignment) (value : String) : List String → Activity N (Result String)
  | [] => pure (.ok value)
  | name :: rest =>
    match a.tools.functionRunner? name with
    | some i => do
      let output : Result String ← Activity.call (.applyFunction i name value a.parameters)
      match output with
      | .ok value => a.postprocess value rest
      | .error e => pure (.error e)
    | none => pure (.error (.execution (.noFunctionRunner name)))

/-- The report of an attempt that has an output, or failed to have one. -/
def judge (a : Assignment) (number : Nat) (reply : Option (Reply N)) :
    Result String → AttemptReport N × Result String
  | .ok value =>
    match Expectation.firstFault? a.task.expectations value with
    | none => ({ attempt := number, reply, result := some value }, .ok value)
    | some fault =>
      ({ attempt := number, reply, result := some value, error := some (.expectation fault) },
        .error (.expectation fault))
  | .error e => ({ attempt := number, reply, error := some e }, .error e)

/-- One attempt: produce an output, postprocess it, check the expectations. -/
def attempt (a : Assignment) (content : String) (number : Nat) :
    Activity N (AttemptReport N × Result String) := do
  let (reply, output) ← a.produce content
  match output with
  | .ok value => do
    let value ← a.postprocess value a.task.postprocessing
    pure (a.judge number reply value)
  | .error e => pure (a.judge number reply (.error e))

/-- Makes attempts, the first of which has the given number, while any remain. The signal is looked
at before and after each attempt; an attempt during which it is set does not count. -/
def makeAttempts (a : Assignment) (content : String) (number : Nat) (report : TaskReport N) :
    (remaining : Nat) → Activity N (TaskRun N)
  | 0 => .done ⟨report, .failed (.unexpected (.neverAttempted a.task.name))⟩
  | remaining + 1 => .isCancelled fun
    | true => .done ⟨report, .cancelled⟩
    | false => .notify (.about a.task .dispatching number) do
      let (attempt, result) ← a.attempt content number
      let report :=
        { report with attemptsUsed := number, attempts := report.attempts ++ [attempt] }
      .isCancelled fun
        | true => .done ⟨report, .cancelled⟩
        | false =>
          match result with
          | .ok value => .done ⟨report, .succeeded value⟩
          | .error e =>
            if e.isRetryable = true ∧ 0 < remaining then
              a.makeAttempts content (number + 1) report remaining
            else .done ⟨report, .failed e⟩

/-- The content of the task with its parameters substituted; a script stays as it is. -/
def content (a : Assignment) : Result String :=
  if a.task.executionType = .script then .ok a.task.content
  else Template.substitute a.task.content a.parameters

/-- The work on the task. -/
def work [Zero N] [Add N] (a : Assignment) : Activity N (TaskRun N) := do
  let report := TaskReport.ofTask a.task
  match a.content with
  | .error e => pure ⟨report, .failed e⟩
  | .ok content =>
    let report := { report with substitutedContent := some content }
    match a.passingJoker? with
    | some (joker, value) => pure ⟨{ report with jokerUsed := some joker }, .succeeded value⟩
    | none => do
      let run ← a.makeAttempts content 1 report a.maxAttempts
      pure { run with
        report := { run.report with
          usage := Usage.total (run.report.attempts.map (·.usage)) } }

end Assignment

end PromptPipeline
