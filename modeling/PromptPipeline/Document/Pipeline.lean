import PromptPipeline.Document.Kind
import PromptPipeline.NameSet

/-!
# Pipeline documents

A pipeline document says what a pipeline needs and gives (its parameters) and which tasks lead from
the one to the other. Each task produces one parameter; the tasks stand in the order of the source,
which need not be the order in which they run.
-/

namespace PromptPipeline

/-- A named value that a run binds at most once. -/
structure Parameter where
  name : String
  description : Option String := none
  isInput : Bool := false
  isOutput : Bool := false
  deriving DecidableEq

/-- What a task requires of the model that answers it. -/
structure ModelRequirements where
  variant : ModelVariant := .chat
  modelName : Option String := none
  maxTokens : Option Amount := none
  deriving DecidableEq

/-- One step of a pipeline. -/
structure Task where
  name : String
  title : String
  description : Option String
  executionType : ExecutionType
  /-- The parameters whose values the content needs. -/
  dependencies : NameSet
  modelRequirements : Option ModelRequirements
  contentLanguage : Option String
  /-- A template, or a script. -/
  content : String
  result : String
  /-- The functions applied to an answer, in order. -/
  postprocessing : List String
  expectations : List Expectation
  /-- The parameters whose values may stand in for an answer, in order of preference. -/
  jokers : List String
  deriving DecidableEq

namespace Task

/-- The parameters that must have values before the task starts. -/
def required (t : Task) : NameSet :=
  t.dependencies.union (.ofList t.jokers)

/-- Whether the task reads the parameter, in its content or as a joker. -/
def reads (t : Task) (parameter : String) : Bool :=
  decide (parameter ∈ t.dependencies) || t.jokers.contains parameter

theorem mem_required {t : Task} {parameter : String} :
    parameter ∈ t.required ↔ parameter ∈ t.dependencies ∨ parameter ∈ t.jokers := by
  simp [required]

theorem reads_iff {t : Task} {parameter : String} :
    t.reads parameter = true ↔ parameter ∈ t.required := by
  simp [reads, mem_required]

end Task

/-- Where a piece of knowledge comes from. -/
structure KnowledgeSource where
  title : String
  href : String
  deriving DecidableEq

/-- Reference material attached to a pipeline. -/
structure KnowledgePiece where
  name : String
  title : String
  content : String
  keywords : List String
  sources : List KnowledgeSource
  deriving DecidableEq

/-- A pipeline document. -/
structure Pipeline where
  url : Option String
  title : String
  dialectVersion : String
  description : Option String
  parameters : List Parameter
  tasks : List Task
  knowledge : List KnowledgePiece
  deriving DecidableEq

namespace Pipeline

/-- The first parameter of the name. -/
def parameter? (p : Pipeline) (name : String) : Option Parameter :=
  p.parameters.find? (·.name == name)

/-- The first task of the name. -/
def task? (p : Pipeline) (name : String) : Option Task :=
  p.tasks.find? (·.name == name)

/-- The first task that produces the parameter. -/
def producer? (p : Pipeline) (parameter : String) : Option Task :=
  p.tasks.find? (·.result == parameter)

/-- The parameters that a run must be given. -/
def inputs (p : Pipeline) : List Parameter :=
  p.parameters.filter (·.isInput)

/-- The parameters that a run gives back. -/
def outputs (p : Pipeline) : List Parameter :=
  p.parameters.filter (·.isOutput)

/-- The names of the tasks in document order. -/
def taskNames (p : Pipeline) : List String :=
  p.tasks.map (·.name)

end Pipeline

end PromptPipeline
