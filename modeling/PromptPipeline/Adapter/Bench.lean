import PromptPipeline.Adapter.Generator
import PromptPipeline.Adapter.Runner
import PromptPipeline.Execution.Activity
import PromptPipeline.Execution.Json

/-!
# The bench

The adapters at hand, by kind and in order of preference, with the session that they share. A bench
answers the calls of a run. Beside generators and runners there are user interfaces, which answer the
questions of a task to a person: a fixed answer, an error, the question itself, or the person at the
terminal.
-/

namespace PromptPipeline

/-! ## User interfaces -/

/-- A user interface. -/
inductive UserInterface where
  | fixed (answer : Result String)
  /-- Answers with the question. -/
  | echo
  | terminal

namespace UserInterface

/-- What a person at the terminal is shown. -/
def dialog (p : UserPrompt) : String :=
  (if p.title = "" then "" else p.title ++ "\n") ++ p.message ++ "\n" ++
    (match p.defaultValue with
     | some value => s!"(default: {value})\n"
     | none => "") ++ "> "

/-- The answer to a question. -/
def ask (p : UserPrompt) : UserInterface → StateM Session (Result String)
  | fixed answer => return answer
  | echo => return .ok p.toJson.compact
  | terminal => do
    Session.display (dialog p)
    let line ← if (← get).isTerminal then Session.readLine else pure ""
    if Text.trim line.toList = [] then return .ok (p.defaultValue.getD line) else return .ok line

end UserInterface

/-! ## All adapters -/

/-- The adapters at hand with their session. -/
structure Bench where
  generators : List TextGenerator := []
  runners : List ScriptRunner := []
  interfaces : List UserInterface := []
  session : Session := {}
  /-- What was heard of the progress of runs. -/
  progress : List Progress := []

namespace Bench

/-- What a run knows of the adapters. -/
def tools (b : Bench) : Tools :=
  { generators := b.generators.map (·.title)
    runners := b.runners.map (·.profile)
    interfaces := b.interfaces.length }

/-- Lets a generator act in the session of the bench. -/
def atGenerator (i : Nat)
    (act : TextGenerator → StateM Session (Result (Reply Binary64) × TextGenerator)) :
    StateM Bench (Result (Reply Binary64)) := do
  let b ← get
  match b.generators[i]? with
  | none => return .error (.execution .noGenerator)
  | some g =>
    let ((answer, g), session) := (act g).run b.session
    set { b with generators := b.generators.set i g, session }
    return answer

/-- Lets a runner act in the session of the bench. -/
def atRunner (i : Nat) (name : String)
    (act : ScriptRunner → StateM Session (Result String × ScriptRunner)) :
    StateM Bench (Result String) := do
  let b ← get
  match b.runners[i]? with
  | none => return .error (.execution (.noFunctionRunner name))
  | some r =>
    let ((answer, r), session) := (act r).run b.session
    set { b with runners := b.runners.set i r, session }
    return answer

/-- Lets an interface act in the session of the bench. -/
def atInterface (i : Nat) (p : UserPrompt) : StateM Bench (Result String) := do
  let b ← get
  match b.interfaces[i]? with
  | none => return .error (.execution (.noInterface p.title))
  | some ui =>
    let (answer, session) := (ui.ask p).run b.session
    set { b with session }
    return answer

/-- Answers a call. -/
def answer : (call : Call) → StateM Bench (call.Answer Binary64)
  | .listModels i => do
    match (← get).generators[i]? with
    | some g => return (g.models : Result (List AvailableModel))
    | none => return (.error (.execution .noGenerator) : Result (List AvailableModel))
  | .generate i operation prompt => atGenerator i (·.generate operation prompt)
  | .runScript i language script parameters => do
    match (← get).runners[i]? with
    | some r => return (r.runScript language script parameters : Result String)
    | none => return (.error (.execution (.noLanguageRunner language)) : Result String)
  | .applyFunction i name value parameters =>
    atRunner i name (·.applyFunction name value parameters)
  | .askUser i prompt => atInterface i prompt

/-- The bench as the outside of a run. -/
def environment : Environment (StateM Bench) Binary64 where
  answer := answer
  isCancelled := return (← get).session.isCancelled
  notify p := modify fun b => { b with progress := b.progress ++ [p] }

/-- How often sheets of prepared answers were consulted. -/
def preparedCalls (b : Bench) : Nat :=
  b.generators.foldl (fun n g => n + g.calls) 0

end Bench

end PromptPipeline
