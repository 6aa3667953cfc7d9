import PromptPipeline.CommandLine.Document
import PromptPipeline.CommandLine.Launch
import PromptPipeline.CommandLine.Upkeep
import PromptPipeline.CommandLine.Verdict

/-!
# The program

From the arguments to what they come to: the arguments are read, the directory is entered, the
settings are found, and the command is carried out, in this order.
-/

namespace PromptPipeline.CommandLine

/-- Why the program does not come to a good end. -/
inductive Failure where
  | usage (fault : UsageFault)
  | directory (path reason : String)
  | settings (error : PipelineError)
  | command (fault : CommandFault)
  deriving DecidableEq

/-- What went wrong; nothing where arguments do not fit. -/
def Failure.message? : Failure → Option String
  | usage _ => none
  | directory path reason => some s!"Failed to change to directory '{path}': {reason}"
  | settings error => some error.message
  | command fault => some fault.message

/-- Carries out what there is to do. -/
def Action.job (isVerbose : Bool) (settings : Settings) : Action → Job Unit
  | compile file format output => Job.compile isVerbose file format output
  | validate path => Job.validate isVerbose path
  | run options => Job.run isVerbose options settings
  | graph file format => Job.graph file format
  | cacheStats => Job.cacheStats settings
  | cacheClear isConfirmed => Job.cacheClear settings isConfirmed

/-- Enters a directory. -/
def Console.enter (c : Console) : Option String → Except Failure Console
  | none => .ok c
  | some path =>
    let location := FilePath.resolve c.directory path
    match c.session.files.find location with
    | .ok .directory => .ok { c with directory := location }
    | .ok (.file _) => .error (.directory path FileFault.notDirectory.message)
    | .error e => .error (.directory path e.message)

/-- What the program does with its arguments at a console. -/
def invoke (userSettings : Option Location) (arguments : List String) (c : Console) :
    Except Failure Unit × Console :=
  let prepared : Except Failure (Invocation × Console × Settings) := do
    let invocation ← (Invocation.ofArguments arguments).mapError .usage
    let inside ← c.enter invocation.directory
    let settings ← (Settings.discover inside.session.files inside.directory userSettings
      invocation.settingsFile).mapError .settings
    .ok (invocation, inside, settings)
  match prepared with
  | .error failure => (.error failure, c)
  | .ok (invocation, inside, settings) =>
    let (result, after) := (invocation.action.job invocation.isVerbose settings).play inside
    (result.mapError .command, after)

end PromptPipeline.CommandLine
