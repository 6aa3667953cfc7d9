import PromptPipeline.Document.Model
import PromptPipeline.Execution.Prompt

/-!
# Tools and calls

The tools of a run are ordered lists of adapters, of which a run only knows what they offer. It
reaches them by calls, which name an adapter by its position; what a call may be answered depends
on its kind.
-/

namespace PromptPipeline

/-- What a script runner offers. -/
structure RunnerProfile where
  title : String
  /-- The functions that the runner provides. -/
  providesFunction : String → Bool
  /-- The script languages that the runner can run. -/
  runsLanguage : String → Bool

/-- The adapters of a run, by kind and in order of preference. -/
structure Tools where
  /-- The titles of the text generators. -/
  generators : List String
  runners : List RunnerProfile
  /-- The number of user interfaces. -/
  interfaces : Nat

namespace Tools

/-- The first runner that provides the function. -/
def functionRunner? (tools : Tools) (name : String) : Option Nat :=
  tools.runners.findIdx? (·.providesFunction name)

/-- The first runner that runs scripts in the language. -/
def languageRunner? (tools : Tools) (language : String) : Option Nat :=
  tools.runners.findIdx? (·.runsLanguage language)

/-- The first user interface. -/
def interface? (tools : Tools) : Option Nat :=
  if 0 < tools.interfaces then some 0 else none

end Tools

/-- A call to an adapter. -/
inductive Call where
  | listModels (generator : Nat)
  | generate (generator : Nat) (operation : ModelVariant) (prompt : Prompt)
  | runScript (runner : Nat) (language script : String) (parameters : Bindings String)
  | applyFunction (runner : Nat) (name value : String) (parameters : Bindings String)
  | askUser (interface : Nat) (prompt : UserPrompt)
  deriving DecidableEq

/-- What a call may be answered. -/
def Call.Answer (N : Type) : Call → Type
  | .listModels _ => Result (List AvailableModel)
  | .generate _ _ _ => Result (Reply N)
  | .runScript _ _ _ _ => Result String
  | .applyFunction _ _ _ _ => Result String
  | .askUser _ _ => Result String

end PromptPipeline
