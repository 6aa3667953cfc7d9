import PromptPipeline.Adapter.TextFunction
import PromptPipeline.Execution.Call
import PromptPipeline.Script.Shell.Run
import PromptPipeline.Text.Lowercase

/-!
# Script runners

The runners: one that holds functions by name, one that runs shell scripts, and one that only writes
down what it was asked to do.
-/

namespace PromptPipeline

/-- A script runner. -/
inductive ScriptRunner where
  | functions (registry : Bindings TextFunction)
  | shell (executable : String)
  | recorder (title : String) (languages functions : List String)

namespace ScriptRunner

/-- The runner that holds the functions which are always on offer. -/
def builtIns : Bindings TextFunction :=
  .ofList (BuiltIn.names.map fun (name, f) => (name, .builtIn f))

/-- The title of the runner. -/
def title : ScriptRunner → String
  | functions _ => "Functions"
  | shell _ => "Shell"
  | recorder title _ _ => title

/-- Whether the runner provides the function. -/
def providesFunction (name : String) : ScriptRunner → Bool
  | functions registry => registry.contains name
  | shell _ => false
  | recorder _ _ names => names.contains name

/-- The names of the languages that shells run. -/
def shellLanguages : List String :=
  ["bash", "sh", "shell", "zsh"]

/-- Whether the runner runs scripts in the language. -/
def runsLanguage (language : String) : ScriptRunner → Bool
  | functions _ => false
  | shell _ => shellLanguages.contains (.ofList (Text.lowercase language.toList))
  | recorder _ languages _ => languages.contains language

/-- What the runner offers. -/
def profile (r : ScriptRunner) : RunnerProfile :=
  { title := r.title, providesFunction := (r.providesFunction ·), runsLanguage := (r.runsLanguage ·) }

/-- What a recorder writes down. -/
def protocol (title name value : String) (parameters : Bindings String) : String :=
  (Json.array [.string title, .string name, .string value, textsJson parameters]).compact

/-- Applies a function to a value; the runner may change. -/
def applyFunction (name value : String) (parameters : Bindings String) :
    ScriptRunner → StateM Session (Result String × ScriptRunner)
  | functions registry =>
    match registry.get? name with
    | none =>
      return (.error (.execution (.functionNotRegistered name)), functions registry)
    | some f => do
      let (output, f) ← f.apply value parameters
      return (output.mapError fun reason => .execution (.functionFailed name reason),
        functions (registry.insert name f))
  | recorder title languages names =>
    let output := if names.contains name then .ok (protocol title name value parameters)
      else .error (.execution (.functionNotProvided title name))
    return (output, recorder title languages names)
  | shell executable =>
    return (.error (.execution (.functionNotProvided "Shell" name)), shell executable)

/-- Runs a shell script: what it writes, without the line feeds at the end. -/
def runShell (executable script : String) (parameters : Bindings String) : Result String :=
  match Shell.execute? executable script parameters with
  | none => .error (.execution (.shellUnavailable executable FileFault.notFound.message))
  | some ending =>
    if ending.status = 0 then
      .ok (.ofList (Text.dropEndWhile (· == '\n') (Text.ofUtf8Lossy ending.output)))
    else
      .error (.execution (.scriptFailed ending.status
        (.ofList (Text.trim (Text.ofUtf8Lossy ending.complaints)))))

/-- Runs a script. -/
def runScript (language script : String) (parameters : Bindings String) :
    ScriptRunner → Result String
  | functions registry =>
    .error (.execution (.languageNotSupported (functions registry).title language))
  | shell executable =>
    if (shell executable).runsLanguage language then runShell executable script parameters
    else .error (.execution (.shellLanguageNotSupported language))
  | recorder title languages _ =>
    if languages.contains language then .ok (protocol title language script parameters)
    else .error (.execution (.languageNotSupported title language))

end ScriptRunner

end PromptPipeline
