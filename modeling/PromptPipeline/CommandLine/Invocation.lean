import PromptPipeline.CommandLine.Grammar

/-!
# Invocations

What the program is asked to do, and the arguments that say so.
-/

namespace PromptPipeline.CommandLine

/-- The form in which a compiled document is written. -/
inductive DocumentFormat where
  | json
  | yaml
  deriving DecidableEq

/-- The form in which a task graph is drawn. -/
inductive GraphFormat where
  | text
  | dot
  | mermaid
  deriving DecidableEq

/-- Which text generator serves a run. -/
inductive Backend where
  /-- Answers with the prompt. -/
  | echo
  /-- Answers with filler text that meets the expectations. -/
  | filler
  deriving DecidableEq

/-- How a pipeline is to be run. -/
structure RunOptions where
  file : String
  /-- The inputs as they are written. -/
  inputs : List String := []
  backend : Backend := .echo
  /-- Where the report is written. -/
  report : Option String := none
  isSequential : Bool := false
  /-- Whether the cache is left alone. -/
  bypassesCache : Bool := false
  deriving DecidableEq

/-- What there is to do. -/
inductive Action where
  | compile (file : String) (format : DocumentFormat) (output : Option String)
  | validate (path : String)
  | run (options : RunOptions)
  | graph (file : String) (format : GraphFormat)
  | cacheStats
  | cacheClear (isConfirmed : Bool)
  deriving DecidableEq

/-- What the program is asked to do, and where. -/
structure Invocation where
  action : Action
  isVerbose : Bool := false
  /-- The directory to work in. -/
  directory : Option String := none
  /-- The settings file. -/
  settingsFile : Option String := none
  deriving DecidableEq

/-! ## Words -/

/-- The words for the formats of documents. -/
def DocumentFormat.table : List (String × DocumentFormat) :=
  [("json", .json), ("yaml", .yaml)]

/-- The words for the formats of drawings. -/
def GraphFormat.table : List (String × GraphFormat) :=
  [("text", .text), ("dot", .dot), ("mermaid", .mermaid)]

/-- The words for the text generators. -/
def Backend.table : List (String × Backend) :=
  [("echo", .echo), ("fake", .filler)]

/-- An option with one of the words of a table as its value. -/
def choiceOption {α : Type} (name : String) (letter : Option Char) (table : List (String × α)) :
    OptionSpec :=
  ⟨name, letter, .choice (table.map (·.1))⟩

/-! ## The grammar of the program -/

/-- The options of all commands. -/
def sharedOptions : List OptionSpec :=
  [⟨"verbose", some 'v', .flag⟩, ⟨"directory", some 'C', .path⟩, ⟨"config", none, .path⟩,
    ⟨"help", some 'h', .help⟩]

/-- A command with options of its own and one operand. -/
def commandWith (options : List OptionSpec) (operand : Option String) : Grammar :=
  .takes (options ++ sharedOptions) operand []

/-- The grammar of the command that runs a pipeline. -/
def runGrammar : Grammar :=
  commandWith
    [⟨"input", some 'i', .texts⟩, choiceOption "llm" none Backend.table, ⟨"report", none, .path⟩,
      ⟨"sequential", none, .flag⟩, ⟨"no-cache", none, .flag⟩]
    (some "FILE")

/-- The grammar of the commands for the cache. -/
def cacheGrammar : Grammar :=
  .takes sharedOptions none
    [("stats", commandWith [] none), ("clear", commandWith [⟨"yes", some 'y', .flag⟩] none)]

/-- The grammar of the program. -/
def grammar : Grammar :=
  .takes (⟨"version", some 'V', .version⟩ :: sharedOptions) none
    [("compile", commandWith
        [choiceOption "format" (some 'f') DocumentFormat.table, ⟨"output", some 'o', .path⟩]
        (some "FILE")),
      ("validate", commandWith [] (some "PATH")),
      ("run", runGrammar),
      ("graph", commandWith [choiceOption "format" (some 'f') GraphFormat.table] (some "FILE")),
      ("cache", cacheGrammar)]

/-! ## Reading -/

namespace Arguments

/-- The choice that an option makes. -/
def choice {α : Type} (a : Arguments) (name : String) (table : List (String × α)) (default : α) :
    α :=
  ((a.value? name).bind (table.lookup ·)).getD default

/-- The operand. -/
def operand (a : Arguments) (name : String) : String :=
  (a.value? name).getD ""

/-- What arguments say that there is to do. -/
def action? (a : Arguments) : Option Action :=
  match a.command with
  | ["compile"] =>
    some (.compile (a.operand "FILE") (a.choice "format" DocumentFormat.table .json)
      (a.value? "output"))
  | ["validate"] => some (.validate (a.operand "PATH"))
  | ["run"] =>
    some (.run {
      file := a.operand "FILE"
      inputs := a.values "input"
      backend := a.choice "llm" Backend.table .echo
      report := a.value? "report"
      isSequential := a.has "sequential"
      bypassesCache := a.has "no-cache" })
  | ["graph"] =>
    some (.graph (a.operand "FILE") (a.choice "format" GraphFormat.table .text))
  | ["cache", "stats"] => some .cacheStats
  | ["cache", "clear"] => some (.cacheClear (a.has "yes"))
  | _ => none

end Arguments

/-- What arguments ask the program to do. -/
def Invocation.ofArguments (arguments : List String) : Except UsageFault Invocation := do
  let a ← grammar.read arguments
  match a.action? with
  | some action =>
    .ok {
      action
      isVerbose := a.has "verbose"
      directory := a.value? "directory"
      settingsFile := a.value? "config" }
  | none => .error .missingCommand

end PromptPipeline.CommandLine
