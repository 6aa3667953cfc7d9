import PromptPipeline.Error.Dialect

/-!
# What can be wrong with a pipeline document

Each way in which a pipeline document contradicts itself, with its diagnostic code, message and
suggestion.
-/

namespace PromptPipeline

/-- A contradiction in a pipeline document, or between the documents of a collection. -/
inductive LogicFault where
  | duplicateParameter (name : String)
  | duplicateTask (name : String)
  | multipleWriters (name : String) (tasks : List String)
  | inputOverwritten (name task : String)
  | unresolvedParameter (name context : String)
  | unusedParameter (name : String)
  | unknownModel (task : String) (variant : ModelVariant) (modelName : String)
  | nonPositiveExpectation (task bound : String) (unit : TextUnit)
  | invertedExpectation (task : String) (unit : TextUnit) (min max : Amount)
  | jokerWithoutExpectations (task parameter : String)
  | circularDependencies (tasks : List String)
  | missingPipelineUrl (title : String)
  | duplicatePipelineUrl (url : String)
  deriving DecidableEq

namespace LogicFault

/-- The last part of the diagnostic code. -/
def code : LogicFault → String
  | duplicateParameter .. => "duplicate_parameter"
  | duplicateTask .. => "duplicate_task"
  | multipleWriters .. => "multiple_writers"
  | inputOverwritten .. => "input_overwritten"
  | unresolvedParameter .. => "unresolved_parameter"
  | unusedParameter .. => "unused_parameter"
  | unknownModel .. => "unknown_model"
  | nonPositiveExpectation .. => "non_positive_expectation"
  | invertedExpectation .. => "inverted_expectation"
  | jokerWithoutExpectations .. => "joker_without_expectations"
  | circularDependencies .. => "circular_dependencies"
  | missingPipelineUrl .. => "missing_url"
  | duplicatePipelineUrl .. => "duplicate_url"

/-- What is wrong. -/
def message : LogicFault → String
  | duplicateParameter name => s!"Parameter {braced name} is declared more than once"
  | duplicateTask name => s!"Task '{name}' is defined more than once"
  | multipleWriters name tasks =>
    s!"Parameter {braced name} is produced by more than one task: " ++ ", ".intercalate tasks
  | inputOverwritten name task =>
    s!"Parameter {braced name} is an input but task '{task}' also produces it"
  | unresolvedParameter name context =>
    s!"Can not resolve some parameters: {braced name} {context}"
  | unusedParameter name => s!"Parameter {braced name} is created but not used"
  | unknownModel task variant modelName =>
    s!"Unknown model key {variant.label} {modelName} in task '{task}'"
  | nonPositiveExpectation task bound unit =>
    s!"{bound} expectation of {unit.label} must be positive in task '{task}'"
  | invertedExpectation task unit min max =>
    s!"Min expectation ({min.toNat}) of {unit.label} is higher than max expectation " ++
      s!"({max.toNat}) in task '{task}'"
  | jokerWithoutExpectations _ parameter =>
    s!"Joker parameters are used for {braced parameter} but no expectations are defined"
  | circularDependencies tasks =>
    "Pipeline has circular dependencies: " ++ " → ".intercalate tasks
  | missingPipelineUrl title => s!"Pipeline '{title}' has no identity URL"
  | duplicatePipelineUrl url => s!"Pipeline URL {url} is used by more than one pipeline"

/-- What to do about it. -/
def help : LogicFault → Option String
  | duplicateTask .. => some "Section titles must be unique after normalization"
  | unresolvedParameter .. => some "Declare it as an INPUT PARAMETER or produce it with a task"
  | unusedParameter .. => some "Read it in some task or mark it as OUTPUT PARAMETER"
  | jokerWithoutExpectations .. =>
    some "A joker is only adopted when it satisfies the task's expectations"
  | circularDependencies .. => some "Review which parameters each task reads and produces"
  | missingPipelineUrl .. => some "Add a PIPELINE URL command to the pipeline header"
  | _ => none

end LogicFault

end PromptPipeline
