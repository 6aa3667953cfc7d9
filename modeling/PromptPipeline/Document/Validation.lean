import PromptPipeline.Document.Model
import PromptPipeline.Document.TaskGraph

/-!
# Validation

A pipeline that passes validation can be run: its parameters and tasks have names of their own,
every parameter that is read has a value, no expectation contradicts another, and no task waits for
itself. The rules are checked in a fixed order, and the first violation is the answer.
-/

namespace PromptPipeline

namespace Pipeline

/-- The first name that stands in the list, or in `seen`, before. -/
def firstRepeated? (seen : List String) : List String → Option String
  | [] => none
  | name :: rest =>
    if name ∈ seen then some name else firstRepeated? (name :: seen) rest

/-- Fails with the first fault. -/
def failFirst (faults : List LogicFault) : Except LogicFault Unit :=
  match faults with
  | [] => .ok ()
  | fault :: _ => .error fault

/-- The names of the tasks that produce the parameter, in document order. -/
def writers (p : Pipeline) (parameter : String) : List String :=
  (p.tasks.filter (·.result == parameter)).map (·.name)

/-- The tasks whose results other tasks produce too. -/
def sharedResultFaults (p : Pipeline) : List LogicFault :=
  p.tasks.filterMap fun t =>
    let names := p.writers t.result
    if 1 < names.length then some (.multipleWriters t.result names) else none

/-- The tasks whose results are inputs, or no parameters at all. -/
def resultFaults (p : Pipeline) : List LogicFault :=
  p.tasks.filterMap fun t =>
    match p.parameter? t.result with
    | some parameter =>
      if parameter.isInput then some (.inputOverwritten parameter.name t.name) else none
    | none =>
      some (.unresolvedParameter t.result s!"is produced by task '{t.name}' but never declared")

/-- Names are unique, and each task produces a parameter of its own that is no input. -/
def checkStructure (p : Pipeline) : Except LogicFault Unit := do
  failFirst ((firstRepeated? [] (p.parameters.map (·.name))).toList.map .duplicateParameter)
  failFirst ((firstRepeated? [] p.taskNames).toList.map .duplicateTask)
  failFirst p.sharedResultFaults
  failFirst p.resultFaults

/-- Whether a run can give the name a value: it is declared, and is an input or produced. -/
def isResolvable (p : Pipeline) (name : String) : Bool :=
  match p.parameter? name with
  | some parameter => parameter.isInput || (p.producer? name).isSome
  | none => false

/-- What the contents of tasks read and what the pipeline gives back can be resolved. -/
def checkResolution (p : Pipeline) : Except LogicFault Unit := do
  failFirst (p.tasks.flatMap fun t =>
    (t.dependencies.toList.filter (!p.isResolvable ·)).map fun name =>
      .unresolvedParameter name s!"needed by task '{t.name}'")
  failFirst ((p.outputs.filter (!p.isResolvable ·.name)).map fun parameter =>
    .unresolvedParameter parameter.name "is an output parameter but no task produces it")

/-- The word for an expectation without content. -/
def boundWord : Sign → String
  | .exactly => "Exact"
  | .minimum => "Min"
  | .maximum => "Max"

/-- The amounts that the expectations state for a unit with one of the signs. -/
def amountsOf (expectations : List Expectation) (signs : List Sign) (unit : TextUnit) :
    List Amount :=
  expectations.filterMap fun
    | .amount sign u n => if sign ∈ signs ∧ u = unit then some n else none
    | .format _ => none

/-- The greatest lower bound that the expectations state for a unit. -/
def lowerBound? (expectations : List Expectation) (unit : TextUnit) : Option Amount :=
  match amountsOf expectations [.exactly, .minimum] unit with
  | [] => none
  | n :: rest => some (rest.foldl max n)

/-- The least upper bound that the expectations state for a unit. -/
def upperBound? (expectations : List Expectation) (unit : TextUnit) : Option Amount :=
  match amountsOf expectations [.exactly, .maximum] unit with
  | [] => none
  | n :: rest => some (rest.foldl min n)

/-- The expectations of a task that no text meets. -/
def expectationFaults (t : Task) : List LogicFault :=
  (t.expectations.filterMap fun
    | .amount sign unit n =>
      if n = 0 then some (.nonPositiveExpectation t.name (boundWord sign) unit) else none
    | .format _ => none) ++
  (TextUnit.all.filterMap fun unit =>
    match lowerBound? t.expectations unit, upperBound? t.expectations unit with
    | some low, some high =>
      if high < low then some (.invertedExpectation t.name unit low high) else none
    | _, _ => none)

/-- Amounts are positive and bounds do not cross. -/
def checkExpectations (p : Pipeline) : Except LogicFault Unit :=
  failFirst (p.tasks.flatMap expectationFaults)

/-- The jokers of a task that can not be adopted. -/
def jokerFaults (p : Pipeline) (t : Task) : List LogicFault :=
  match t.jokers with
  | [] => []
  | first :: rest =>
    if t.expectations = [] then [.jokerWithoutExpectations t.name first]
    else
      ((first :: rest).filter (!p.isResolvable ·)).map fun name =>
        .unresolvedParameter name s!"used as a joker in task '{t.name}'"

/-- Jokers can be resolved and have expectations to meet. -/
def checkJokers (p : Pipeline) : Except LogicFault Unit :=
  failFirst (p.tasks.flatMap p.jokerFaults)

end Pipeline

open Pipeline in
/-- The requirements of a task that names a model. -/
def Task.namedModel? (t : Task) : Option (String × ModelVariant) :=
  match t.executionType, t.modelRequirements with
  | .promptTemplate, some r => r.modelName.map fun name => (name, r.variant)
  | _, _ => none

namespace Pipeline

/-- The models that tasks name are known, if there is a registry. -/
def checkModels (p : Pipeline) (known : Option (List AvailableModel)) : Except LogicFault Unit :=
  match known with
  | none => .ok ()
  | some models =>
    failFirst (p.tasks.filterMap fun t =>
      match t.namedModel? with
      | some (name, variant) =>
        if models.any (·.serves name variant) then none
        else some (.unknownModel t.name variant name)
      | none => none)

/-- Every parameter is read by a task or given back. -/
def checkUses (p : Pipeline) : Except LogicFault Unit :=
  failFirst ((p.parameters.filter fun parameter =>
    !parameter.isOutput && !p.tasks.any (·.reads parameter.name)).map fun parameter =>
      .unusedParameter parameter.name)

/-- No task waits for itself. -/
def checkCycles (p : Pipeline) : Except LogicFault Unit :=
  failFirst (p.cycleNames?.toList.map .circularDependencies)

/-- Something about a valid pipeline that its author may want to know. -/
inductive Warning where
  | noUrl
  | noTasks
  | uncheckedModels (count : Nat)
  deriving DecidableEq

/-- The warning in words. -/
def Warning.message : Warning → String
  | noUrl => "Pipeline has no PIPELINE URL and can not be added to a collection"
  | noTasks => "Pipeline has no tasks"
  | uncheckedModels count =>
    s!"{count} task(s) name a model, but no model registry was given to check them"

/-- What is to say about a pipeline that breaks no rule. -/
def warnings (p : Pipeline) (known : Option (List AvailableModel)) : List Warning :=
  let named := (p.tasks.filter (·.namedModel?.isSome)).length
  (if p.url.isNone then [.noUrl] else []) ++
    (if p.tasks = [] then [.noTasks] else []) ++
    (if known.isNone ∧ 0 < named then [.uncheckedModels named] else [])

/-- What validation finds out about a valid pipeline. -/
structure Validation where
  warnings : List Warning
  /-- The names of the tasks in one order in which they can run. -/
  executionOrder : List String

/-- Checks all rules; with a registry, also that the named models are in it. -/
def validate (p : Pipeline) (known : Option (List AvailableModel)) :
    Except LogicFault Validation := do
  p.checkStructure
  p.checkResolution
  p.checkExpectations
  p.checkJokers
  p.checkModels known
  p.checkUses
  p.checkCycles
  let executionOrder ← p.executionOrderNames
  .ok ⟨p.warnings known, executionOrder⟩

end Pipeline

end PromptPipeline
