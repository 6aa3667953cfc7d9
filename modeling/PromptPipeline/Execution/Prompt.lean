import PromptPipeline.Document.Pipeline
import PromptPipeline.Json.Value
import PromptPipeline.Usage

/-!
# Prompts and replies

What a run hands to a text generator or to a person, and what a generator gives back.
-/

namespace PromptPipeline

/-- A moment, as the time since the epoch. -/
structure Moment where
  seconds : Nat
  nanoseconds : Nat
  deriving DecidableEq

/-- When a call started and when it was complete. -/
structure Timing where
  start : Moment
  complete : Moment
  deriving DecidableEq

/-- A prompt for a text generator, with all parameters substituted. -/
structure Prompt where
  /-- The title of the task that asks. -/
  title : String
  content : String
  requirements : ModelRequirements
  /-- The expectations that the result of the task has to meet. -/
  expectations : List Expectation := []
  deriving DecidableEq

/-- What a text generator answers. -/
structure Reply (N : Type) where
  content : String
  /-- The model that served the call. -/
  modelName : String
  timing : Timing
  usage : Usage N
  /-- What the generator had to say besides. -/
  rawResponse : Json

/-- A question for a person. -/
structure UserPrompt where
  title : String
  message : String
  defaultValue : Option String := none
  deriving DecidableEq

end PromptPipeline
