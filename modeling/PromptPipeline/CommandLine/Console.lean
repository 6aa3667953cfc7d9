import PromptPipeline.Adapter.Session
import PromptPipeline.CommandLine.Input
import PromptPipeline.Document.File

/-!
# The console

What a command works with and on: the session with its files, the directory to work in, and what
was written to the console. A command that fails keeps what it has written.
-/

namespace PromptPipeline.CommandLine

/-- Why a command fails. -/
inductive CommandFault where
  | pipeline (error : PipelineError)
  | input (fault : InputFault)
  | pipelineNotFound (path : String)
  | pathNotFound (path : String)
  | malformedPattern (path : String)
  | unwritableDocument (path reason : String)
  | unwritableReport (path reason : String)
  /-- Some pipelines are not valid. -/
  | invalidPipelines (count : Nat)
  /-- The run of a pipeline came to errors. -/
  | failedRun (errors : Nat)
  /-- The command can not go on before more is typed. -/
  | awaitingInput
  deriving DecidableEq

namespace CommandFault

/-- What went wrong. -/
def message : CommandFault → String
  | pipeline error => error.message
  | input fault => fault.message
  | pipelineNotFound path => s!"Pipeline file not found: {path}"
  | pathNotFound path => s!"Path not found: {path}"
  | malformedPattern path => s!"Invalid pattern: {path}"
  | unwritableDocument path reason => s!"Failed to write '{path}': {reason}"
  | unwritableReport path reason => s!"Failed to write report {path}: {reason}"
  | invalidPipelines count => s!"{count} pipeline(s) failed validation"
  | failedRun errors => s!"Pipeline failed with {errors} error(s)"
  | awaitingInput => "More input is needed"

/-- The diagnostic code, of errors that have one. -/
def code : CommandFault → Option String
  | pipeline error => some error.code
  | _ => none

/-- What to do about it. -/
def help : CommandFault → Option String
  | pipeline error => error.help
  | _ => none

end CommandFault

/-- What a command works with and on. -/
structure Console where
  session : Session := {}
  directory : Location := []
  /-- What commands have written. -/
  output : String := ""
  /-- What was written apart from that: warnings, questions and errors. -/
  complaints : String := ""

/-- A command at work. -/
abbrev Job (α : Type) := ExceptT CommandFault (StateM Console) α

namespace Job

/-- Carries out a command at a console: what it comes to, and the console afterwards. -/
def play {α : Type} (job : Job α) (c : Console) : Except CommandFault α × Console :=
  StateT.run (ExceptT.run job) c

/-- Writes a text. -/
def write (text : String) : Job Unit :=
  modify fun c => { c with output := c.output ++ text }

/-- Writes a line. -/
def writeLine (line : String) : Job Unit :=
  write (line ++ "\n")

/-- Writes the title of a section. -/
def writeTitle (title : String) : Job Unit :=
  write ("\n" ++ title ++ ":\n")

/-- Writes a line apart from the output. -/
def complain (line : String) : Job Unit :=
  modify fun c => { c with complaints := c.complaints ++ line ++ "\n" }

/-- Goes on only with a good result; otherwise the command fails. -/
def demand {ε α : Type} (fault : ε → CommandFault) (r : Except ε α) : Job α :=
  fun c => (r.mapError fault, c)

/-- Goes on only with the result of a good operation on pipelines. -/
def require {α : Type} (r : Result α) : Job α :=
  demand .pipeline r

/-- Goes on only if the document breaks no rule. -/
def requireValid {α : Type} (r : Except LogicFault α) : Job α :=
  demand (.pipeline ∘ .logic) r

/-- Goes on unless more has to be typed first. -/
def awaitInput : Job Unit := do
  if (← get).session.isAwaiting then throw .awaitingInput

/-- Where a path leads. -/
def locate (path : String) : Job Location := do
  return FilePath.resolve (← get).directory path

/-- Puts other files in place of those of the session. -/
def setFiles (files : FileTree) : Job Unit :=
  modify fun c => { c with session := { c.session with files } }

/-- Writes a file. -/
def writeFile (path content : String) (fault : (reason : String) → CommandFault) : Job Unit := do
  match (← get).session.files.write (← locate path) (Text.utf8Bytes content) with
  | .ok files => setFiles files
  | .error e => throw (fault e.message)

/-- The pipeline in a file. -/
def loadPipeline (path : String) : Job Pipeline := do
  let c ← get
  if c.session.files.contains (← locate path) then
    require (Pipeline.ofFile c.session.files c.directory path)
  else throw (.pipelineNotFound path)

end Job

end PromptPipeline.CommandLine
