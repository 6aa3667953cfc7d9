import PromptPipeline.Cache.Store

/-!
# Sessions

What the adapters of a run share: the files that they see, the time, the cancellation signal, and
what they have to show for their calls. Adapters read and change it in turn.
-/

namespace PromptPipeline

/-- A call to a generator, as the log of a session keeps it. -/
structure GeneratorCall where
  /-- The title of the generator. -/
  generator : String
  operation : ModelVariant
  prompt : Prompt
  deriving DecidableEq

/-- What the adapters of a run share. -/
structure Session where
  files : FileTree := {}
  /-- The time at which the session takes place. -/
  now : Moment := ⟨0, 0⟩
  /-- Whether the cancellation signal is set. It is never reset. -/
  isCancelled : Bool := false
  /-- The calls to generators that keep a log, in order. -/
  calls : List GeneratorCall := []
  /-- What a person was shown at the terminal. -/
  shown : String := ""
  /-- Whether a person is at the terminal. -/
  isTerminal : Bool := false
  /-- What was typed and has not been read yet, line by line. -/
  typed : List String := []
  /-- Whether more may still be typed. -/
  mayTypeMore : Bool := false
  /-- Whether the session waits for more to be typed. What it shows from then on is moot. -/
  isAwaiting : Bool := false

namespace Session

/-- Sets the cancellation signal. -/
def cancel : StateM Session Unit :=
  modify fun s => { s with isCancelled := true }

/-- Adds a call to the log. -/
def record (call : GeneratorCall) : StateM Session Unit :=
  modify fun s => { s with calls := s.calls ++ [call] }

/-- Shows a text at the terminal, unless it is moot. -/
def display (text : String) : StateM Session Unit :=
  modify fun s => if s.isAwaiting then s else { s with shown := s.shown ++ text }

/-- Reads the next line; an empty one if there is none, and then the session waits for it if it may
still be typed. -/
def readLine : StateM Session String :=
  modifyGet fun s =>
    match s.typed with
    | [] => ("", { s with isAwaiting := s.isAwaiting || s.mayTypeMore })
    | line :: rest => (line, { s with typed := rest })

/-- The timing of a call that takes no time. -/
def timing (s : Session) : Timing :=
  ⟨s.now, s.now⟩

end Session

end PromptPipeline
