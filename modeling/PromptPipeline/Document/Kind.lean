/-!
# Kinds of tasks, models and expectations

The closed sets of choices that a pipeline document makes, with the words that messages use for
them.
-/

namespace PromptPipeline

/-- How a task produces its result. -/
inductive ExecutionType where
  /-- A text generator answers the content. -/
  | promptTemplate
  /-- The content itself is the result. -/
  | simpleTemplate
  /-- A script runner runs the content. -/
  | script
  /-- A person answers the content. -/
  | promptDialog
  deriving DecidableEq, Repr

/-- The execution type in the words of a message. -/
def ExecutionType.words : ExecutionType → String
  | .promptTemplate => "prompt template"
  | .simpleTemplate => "simple template"
  | .script => "script"
  | .promptDialog => "prompt dialog"

/-- The general kind of a text generation model, and of a call to one. -/
inductive ModelVariant where
  | completion
  | chat
  deriving DecidableEq, Repr

/-- The name of the variant. -/
def ModelVariant.label : ModelVariant → String
  | .completion => "COMPLETION"
  | .chat => "CHAT"

/-- The name of the operation that serves the variant. -/
def ModelVariant.operation : ModelVariant → String
  | .completion => "complete"
  | .chat => "chat"

/-- How a count is compared with the amount of an expectation. -/
inductive Sign where
  | exactly
  | minimum
  | maximum
  deriving DecidableEq, Repr

/-- The sign in the words of a message. -/
def Sign.words : Sign → String
  | .exactly => "exactly"
  | .minimum => "minimum"
  | .maximum => "maximum"

/-- What an expectation counts. -/
inductive TextUnit where
  | characters
  | words
  | sentences
  | lines
  | paragraphs
  | pages
  deriving DecidableEq, Repr

/-- The unit in the words of a message. -/
def TextUnit.label : TextUnit → String
  | .characters => "characters"
  | .words => "words"
  | .sentences => "sentences"
  | .lines => "lines"
  | .paragraphs => "paragraphs"
  | .pages => "pages"

/-- All units, in the order in which they are checked. -/
def TextUnit.all : List TextUnit :=
  [.characters, .words, .sentences, .lines, .paragraphs, .pages]

/-- The format that an expectation asks for. -/
inductive TextFormat where
  | json
  deriving DecidableEq, Repr

/-- The name of the format. -/
def TextFormat.label : TextFormat → String
  | .json => "JSON"

/-- Amounts are 32-bit numbers. -/
abbrev Amount := UInt32

/-- A constraint on the result of a task. -/
inductive Expectation where
  | amount (sign : Sign) (unit : TextUnit) (amount : Amount)
  | format (format : TextFormat)
  deriving DecidableEq

/-- The expectation in the words of a message, which are also the words of its command. -/
def Expectation.words : Expectation → String
  | .amount sign unit n => s!"{sign.words} {n.toNat} {unit.label}"
  | .format f => s!"format {f.label}"

end PromptPipeline
