import PromptPipeline.Adapter.Bench
import PromptPipeline.CommandLine.Console
import PromptPipeline.CommandLine.Invocation
import PromptPipeline.Execution.Scheduler
import PromptPipeline.Settings

/-!
# Launching a run

The command that runs a pipeline with the adapters that the settings and options select, and tells
what became of its tasks.
-/

namespace PromptPipeline.CommandLine

/-- The generator for a backend, without a cache. -/
def Backend.generator (settings : Settings) : Backend → TextGenerator
  | echo => .echo
  | filler => .filler settings.loopLimit

/-- The remark on how a task came to its end. -/
def taskRemark (r : TaskReport Binary64) : String :=
  if r.attemptsUsed = 0 ∧ r.jokerUsed.isSome then " (joker)"
  else if r.attemptsUsed ≤ 1 then ""
  else s!" ({r.attemptsUsed} attempts)"

/-- The lines about a task. -/
def taskLines (r : TaskReport Binary64) : List String :=
  s!"  {r.status.symbol} {r.task.title}{taskRemark r}" ::
    match r.status, r.error with
    | .failed, some e => [s!"    {e.error.message}"]
    | _, _ => []

/-- The lines about the outputs. -/
def outputLines (outputs : Bindings String) : List String :=
  outputs.toList.map fun (name, value) => "  " ++ braced name ++ " = " ++ value

namespace Job

/-- The generator for a run. -/
def prepareGenerator (o : RunOptions) (settings : Settings) : Job TextGenerator := do
  let generator := o.backend.generator settings
  if settings.isCacheEnabled && !o.bypassesCache then
    let cache : FileCache := ⟨← locate settings.cacheDirectory⟩
    setFiles (← require (cache.create (← get).session.files))
    return .cached generator cache
  else return generator

/-- Carries out a run in the session. -/
def execute (x : Executor) (bench : Bench) (inputs : Bindings String) : Job (Outcome Binary64) := do
  let (result, bench) : Result (Outcome Binary64) × Bench :=
    ((x.execute Schedule.firstTask inputs).run Bench.environment).run bench
  modify fun c =>
    { c with
      session := { bench.session with shown := "" }
      complaints := c.complaints ++ bench.session.shown }
  awaitInput
  require result

/-- Tells what a run came to. -/
def tellOutcome (isVerbose : Bool) (report : ExecutionReport Binary64) : Job Unit := do
  writeTitle "Tasks"
  (report.tasks.flatMap taskLines).forM writeLine
  if report.outputs.toList ≠ [] then
    writeTitle "Outputs"
    (outputLines report.outputs).forM writeLine
  if isVerbose then
    writeTitle "Usage"
    writeLine ("  " ++ report.usage.summary)
  writeLine ""
  if report.isSuccessful then writeLine "Pipeline completed successfully!"
  else
    ((report.errors.filter (·.task.isNone)).map fun e => s!"  ✗ {e.line}").forM complain
    throw (.failedRun report.errors.length)

/-- Runs a pipeline. -/
def run (isVerbose : Bool) (o : RunOptions) (settings : Settings) : Job Unit := do
  let p ← loadPipeline o.file
  let inputs ← demand .input (Input.readAll o.inputs)
  if isVerbose then
    let validation ← requireValid (p.validate none)
    (validation.warnings.map fun w => s!"  ⚠ {w.message}").forM complain
  let generator ← prepareGenerator o settings
  let bench : Bench :=
    { generators := [generator]
      runners := [.functions ScriptRunner.builtIns, .shell settings.shell]
      interfaces := [.terminal]
      session := (← get).session }
  writeLine ("Running " ++ p.url.getD p.title)
  let bounds := if o.isSequential then settings.execution.sequential else settings.execution
  let x ← require (Executor.ofPipeline p bench.tools bounds)
  let outcome ← execute x bench inputs
  match o.report with
  | some path => writeFile path outcome.report.toJson.pretty (.unwritableReport path)
  | none => pure ()
  tellOutcome isVerbose outcome.report

end Job

end PromptPipeline.CommandLine
