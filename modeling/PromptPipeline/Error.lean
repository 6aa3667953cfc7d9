import PromptPipeline.Error.Logic

/-!
# Errors

Everything that can go wrong, by cause: in a source, in a document, in an attempt to run a task, in
the engine itself, and in the files and settings around them. A cause has a message, a diagnostic
code and a suggestion. Attempts fail with execution and expectation errors, and those alone may be
worth another attempt (`isRetryable`).
-/

namespace PromptPipeline

/-- Why an attempt to run a task, or a run, could not go on. -/
inductive ExecutionFault where
  | inputNotGiven (name : String)
  | cancelled
  | noLanguageRunner (language : String)
  | noInterface (task : String)
  | noFunctionRunner (name : String)
  | wrongOperation (operation declared : ModelVariant)
  | noGenerator
  | modelNotOffered (name : String) (variant : ModelVariant) (titles : List String)
  | functionNotProvided (runner name : String)
  | languageNotSupported (runner language : String)
  | functionNotRegistered (name : String)
  | functionFailed (name reason : String)
  | shellLanguageNotSupported (language : String)
  | shellUnavailable (shell reason : String)
  | scriptFailed (code : Int) (output : String)
  | fakeTextLimit (limit : Nat)
  /-- A failure that an adapter reports in its own words. -/
  | reported (message : String) (isFinal : Bool)
  deriving DecidableEq

namespace ExecutionFault

/-- What went wrong. -/
def message : ExecutionFault → String
  | inputNotGiven name => s!"Input parameter {braced name} was not given"
  | cancelled => "Execution was cancelled"
  | noLanguageRunner language => s!"No script runner can run {language} scripts"
  | noInterface task => s!"Task '{task}' asks the user but no user interface is configured"
  | noFunctionRunner name => s!"No script runner provides postprocessing function `{name}`"
  | wrongOperation operation declared =>
    s!"Use {operation.operation} only for {operation.label} variant, " ++
      s!"prompt declares {declared.label}"
  | noGenerator => "No text generator is configured"
  | modelNotOffered name variant titles =>
    s!"Model {name} ({variant.label}) is not offered by " ++ ", ".intercalate titles
  | functionNotProvided runner name => s!"{runner} does not provide function `{name}`"
  | languageNotSupported runner language => s!"{runner} can not run {language} scripts"
  | functionNotRegistered name => s!"Function `{name}` is not registered"
  | functionFailed name reason => s!"Function `{name}` failed: {reason}"
  | shellLanguageNotSupported language => s!"Shell runner can not run {language} scripts"
  | shellUnavailable shell reason => s!"Shell '{shell}' may not be available: {reason}"
  | scriptFailed code output => s!"Script exited with code {code}: {output}"
  | fakeTextLimit limit =>
    s!"Can not generate fake text to meet the expectations, loop limit {limit} reached"
  | reported message _ => message

/-- Whether the same call can never succeed: a capability is missing. -/
def isFinal : ExecutionFault → Bool
  | inputNotGiven _ | functionFailed .. | scriptFailed .. | fakeTextLimit _ => false
  | reported _ isFinal => isFinal
  | _ => true

end ExecutionFault

/-- Why a result does not meet an expectation. -/
inductive ExpectationFault where
  | amount (sign : Sign) (amount : Amount) (unit : TextUnit) (actual : Nat)
  | notJson
  /-- A failure that an adapter reports in its own words. -/
  | reported (message : String)
  deriving DecidableEq

/-- What was expected. -/
def ExpectationFault.message : ExpectationFault → String
  | amount sign n unit actual =>
    s!"Expected {sign.words} {n.toNat} {unit.label} but got {actual}"
  | notJson => "Expected valid JSON output"
  | reported message => message

/-- A broken promise of the engine or of an adapter. -/
inductive InternalFault where
  | unresolvedPlaceholder (name : String)
  | resolvedTwice (name : String)
  | neverAttempted (task : String)
  | reported (message : String)
  deriving DecidableEq

/-- Which promise is broken. -/
def InternalFault.message : InternalFault → String
  | unresolvedPlaceholder name => s!"Parameter {braced name} is not resolved"
  | resolvedTwice name => s!"Parameter {braced name} is resolved more than once"
  | neverAttempted task => s!"Task '{task}' was never attempted"
  | reported message => message

/-- A setting that can not be used. -/
inductive SettingsFault where
  | noAttempts
  | noParallelTasks
  | noLoopLimit
  | blankShell
  | fileNotFound (path : String)
  | reported (message : String)
  deriving DecidableEq

/-- What is wrong with the setting. -/
def SettingsFault.message : SettingsFault → String
  | noAttempts => "max_execution_attempts must be at least 1"
  | noParallelTasks => "max_parallel_count must be at least 1"
  | noLoopLimit => "mock.loop_limit must be at least 1"
  | blankShell => "shell.shell must name an executable"
  | fileNotFound path => s!"Config file not found: {path}"
  | reported message => message

/-- What the cache was doing when the file system refused. -/
inductive CacheAction where
  | createDirectory
  | readDirectory
  | readSubdirectory
  | readEntry
  | writeEntry
  | removeEntry
  | clear
  | recreateDirectory
  | measureDirectory
  deriving DecidableEq

/-- The action in the words of a message. -/
def CacheAction.words : CacheAction → String
  | createDirectory => "create cache directory"
  | readDirectory => "read cache directory"
  | readSubdirectory => "read cache subdirectory"
  | readEntry => "read cache entry"
  | writeEntry => "write cache entry"
  | removeEntry => "remove cache entry"
  | clear => "clear cache"
  | recreateDirectory => "recreate cache directory"
  | measureDirectory => "read directory"

/-- Why the cache could not serve a request. -/
inductive CacheFault where
  | file (action : CacheAction) (reason : String)
  /-- The entry is no cached answer. -/
  | malformedEntry
  | reported (message : String)
  deriving DecidableEq

/-- What the cache could not do. -/
def CacheFault.message : CacheFault → String
  | file action reason => s!"Failed to {action.words}: {reason}"
  | malformedEntry => "Failed to parse cache entry"
  | reported message => message

/-- An error, by the part of the program that raises it. -/
inductive PipelineError where
  /-- The source breaks a rule of the dialect on the given line. -/
  | dialect (line : Nat) (fault : DialectFault)
  | logic (fault : LogicFault)
  | execution (fault : ExecutionFault)
  | expectation (fault : ExpectationFault)
  | unexpected (fault : InternalFault)
  | pipelineNotFound (path : String)
  | unreadableFile (path reason : String)
  | settings (fault : SettingsFault)
  | cache (fault : CacheFault)
  | malformedJson
  | malformedToml
  | malformedPattern
  deriving DecidableEq

namespace PipelineError

/-- What went wrong. -/
def message : PipelineError → String
  | dialect line fault => s!"Syntax error on line {line}: {fault.message}"
  | logic fault => fault.message
  | execution fault => s!"Execution failed: {fault.message}"
  | expectation fault => s!"Expectation not met: {fault.message}"
  | unexpected fault => s!"Unexpected internal error: {fault.message}"
  | pipelineNotFound path => s!"Pipeline file not found: {path}"
  | unreadableFile path reason => s!"Failed to read file '{path}': {reason}"
  | settings fault => s!"Invalid configuration: {fault.message}"
  | cache fault => s!"Cache error: {fault.message}"
  | malformedJson => "JSON parsing error"
  | malformedToml => "TOML parsing error"
  | malformedPattern => "Glob pattern error"

/-- The diagnostic code. -/
def code : PipelineError → String
  | dialect .. => "promptflow::syntax"
  | logic fault => "promptflow::logic::" ++ fault.code
  | execution _ => "promptflow::execution"
  | expectation _ => "promptflow::expect"
  | unexpected _ => "promptflow::unexpected"
  | pipelineNotFound _ => "promptflow::pipeline_not_found"
  | unreadableFile .. => "promptflow::file_read_error"
  | settings _ => "promptflow::config"
  | cache _ => "promptflow::cache_error"
  | malformedJson => "promptflow::json_error"
  | malformedToml => "promptflow::toml_error"
  | malformedPattern => "promptflow::glob_error"

/-- What to do about it. -/
def help : PipelineError → Option String
  | dialect _ fault => fault.help
  | logic fault => fault.help
  | unexpected _ => some "This is a bug in promptflow, not in your pipeline"
  | pipelineNotFound _ => some "Pass a .ptbk.md or .ptbk.json file"
  | _ => none

/-- Whether another attempt may succeed. -/
def isRetryable : PipelineError → Bool
  | execution fault => !fault.isFinal
  | expectation _ => true
  | _ => false

/-- Whether the error belongs to one task and leaves the run going. -/
def isTaskLevel : PipelineError → Bool
  | execution _ | expectation _ => true
  | _ => false

/-- The name of the error's family in reports. -/
def family : PipelineError → String
  | dialect .. => "SyntaxError"
  | logic _ => "LogicError"
  | execution _ => "ExecutionError"
  | expectation _ => "ExpectError"
  | unexpected _ => "UnexpectedError"
  | _ => "Error"

end PipelineError

/-- The outcome of something that may fail. -/
abbrev Result (α : Type) := Except PipelineError α

end PromptPipeline
