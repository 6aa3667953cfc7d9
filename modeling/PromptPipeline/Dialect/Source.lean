import PromptPipeline.Dialect.Command
import PromptPipeline.Dialect.Outline
import PromptPipeline.Dialect.Template
import PromptPipeline.Document.Pipeline
import PromptPipeline.Script.Scan

/-!
# From a source to a pipeline document

`Pipeline.ofSource` reads the commands of the header and of each section in the order of the source
and reports the first one that is out of place. It checks the form of a source only; whether the
parameters and tasks fit together is the business of validation.
-/

namespace PromptPipeline

open Text

/-- The model requirements collected so far, and the keywords that were set. -/
structure ModelSetting where
  requirements : ModelRequirements := {}
  set : List String := []

namespace ModelSetting

/-- Sets one requirement, which may be set once. -/
def apply (setting : ModelSetting) (command : ModelCommand) (line : Nat) : Result ModelSetting :=
  if setting.set.contains command.keyword then
    .error (.dialect line (.repeatedCommand command.keyword))
  else
    let requirements :=
      match command with
      | .variant v => { setting.requirements with variant := v }
      | .name n => { setting.requirements with modelName := some n }
      | .maxTokens n => { setting.requirements with maxTokens := some n }
    .ok ⟨requirements, command.keyword :: setting.set⟩

/-- The setting of a section under a header: the same requirements, all of which may be set. -/
def forSection (header : ModelSetting) : ModelSetting :=
  ⟨header.requirements, []⟩

end ModelSetting

/-- The parameters after one more declaration. A repeated declaration must have the same facets; it
gives the description if there was none. -/
def declare (parameters : List Parameter) (d : Declaration) (line : Nat) :
    Result (List Parameter) :=
  match parameters with
  | [] => .ok [⟨d.name, d.description, d.isInput, d.isOutput⟩]
  | p :: rest =>
    if p.name = d.name then
      if p.isInput ≠ d.isInput ∨ p.isOutput ≠ d.isOutput then
        .error (.dialect line (.conflictingFacets d.name))
      else .ok ({ p with description := p.description.or d.description } :: rest)
    else (declare rest d line).map (p :: ·)

/-- Sets a value that may be set once. -/
def setOnce {α : Type} (old : Option α) (new : α) (keyword : String) (line : Nat) :
    Result (Option α) :=
  match old with
  | some _ => .error (.dialect line (.repeatedCommand keyword))
  | none => .ok (some new)

/-- The paragraphs as one text, if there are any. -/
def joinParagraphs (paragraphs : List String) : Option String :=
  if paragraphs = [] then none else some ("\n\n".intercalate paragraphs)

/-- What the header of a source has said so far. -/
structure Header where
  url : Option String := none
  version : Option String := none
  parameters : List Parameter := []
  model : ModelSetting := {}
  paragraphs : List String := []

namespace Header

/-- Obeys a command of the header. -/
def obey (h : Header) (line : Nat) : Command → Result Header
  | .pipelineUrl url => do
    .ok { h with url := ← setOnce h.url url "PIPELINE URL" line }
  | .dialectVersion version => do
    .ok { h with version := ← setOnce h.version version "PROMPTBOOK VERSION" line }
  | .parameter d => do
    .ok { h with parameters := ← declare h.parameters d line }
  | .model m => do
    .ok { h with model := ← h.model.apply m line }
  | other => .error (.dialect line (.taskCommandInHeader other.keyword))

/-- Reads one block of the header. -/
def read (h : Header) : Content → Result Header
  | .item text line => do h.obey line (← Command.parse text line)
  | .paragraph text _ => .ok { h with paragraphs := h.paragraphs ++ [text] }
  | .code _ _ line => .error (.dialect line .contentInHeader)
  | .arrow _ line => .error (.dialect line .contentInHeader)

end Header

/-- The name on an arrow line, if the line is well formed. -/
def arrowName? (text : List Char) : Option (List Char) := do
  let rest ← dropStart? ['-', '>'] text
  let (name, rest) ← bracedText? (trimStart rest)
  if rest.all isBlank then some (trim name) else none

/-- The code block of a task. -/
structure CodeBlock where
  language : Option String
  content : String
  line : Nat

/-- What a section has said so far, and the parameters declared up to here. -/
structure Draft where
  parameters : List Parameter
  model : ModelSetting
  executionType : Option ExecutionType := none
  jokers : List String := []
  postprocessing : List String := []
  expectations : List Expectation := []
  paragraphs : List String := []
  code : Option CodeBlock := none
  result : Option String := none

namespace Draft

/-- Obeys a command of a section. -/
def obey (d : Draft) (line : Nat) : Command → Result Draft
  | .execute type => do
    .ok { d with executionType := ← setOnce d.executionType type "EXECUTE" line }
  | .model m => do
    .ok { d with model := ← d.model.apply m line }
  | .joker name =>
    .ok (if d.jokers.contains name then d else { d with jokers := d.jokers ++ [name] })
  | .parameter declaration => do
    .ok { d with parameters := ← declare d.parameters declaration line }
  | .postprocess function => .ok { d with postprocessing := d.postprocessing ++ [function] }
  | .expect expectation => .ok { d with expectations := d.expectations ++ [expectation] }
  | other => .error (.dialect line (.headerCommandInTask other.keyword))

/-- Reads the arrow line of a section. -/
def readArrow (d : Draft) (task text : String) (line : Nat) : Result Draft :=
  if d.result.isSome then .error (.dialect line (.secondArrow task))
  else
    match arrowName? text.toList with
    | none => .error (.dialect line (.malformedArrow text))
    | some name =>
      if !Name.isParameter name then .error (.dialect line (.invalidParameterName (.ofList name)))
      else if d.code.isNone then .error (.dialect line .earlyArrow)
      else .ok { d with result := some (.ofList name) }

/-- Reads one block of the section of a task. -/
def read (task : String) (d : Draft) : Content → Result Draft
  | .item text line => do d.obey line (← Command.parse text line)
  | .paragraph text _ => .ok { d with paragraphs := d.paragraphs ++ [text] }
  | .code language content line =>
    if d.code.isSome then .error (.dialect line (.secondCodeBlock task))
    else .ok { d with code := some ⟨language, content, line⟩ }
  | .arrow text line => d.readArrow task text line

end Draft

/-- The parameters that the content of a task reads. -/
def contentDependencies (type : ExecutionType) (code : CodeBlock) : Result NameSet :=
  match type with
  | .script =>
    let name := code.language.getD ""
    match ScriptLanguage.ofName? name with
    | some language => .ok (language.freeNames code.content)
    | none => .error (.dialect code.line (.unsupportedLanguage name))
  | _ => .ok (Template.parameters code.content)

/-- The model requirements of a task, which only a prompt template may have. -/
def taskRequirements (type : ExecutionType) (model : ModelSetting) (task : String) (line : Nat) :
    Result (Option ModelRequirements) :=
  match type with
  | .promptTemplate => .ok (some model.requirements)
  | _ =>
    if model.set = [] then .ok none else .error (.dialect line (.misplacedModel task type))

/-- The task of a section whose blocks have been read. -/
def Draft.toTask (d : Draft) (name : String) (s : Section) : Result Task := do
  match d.code, d.result with
  | none, _ => .error (.dialect s.line (.missingCodeBlock name))
  | some _, none => .error (.dialect s.line (.missingArrow name))
  | some code, some result =>
    let type := d.executionType.getD .promptTemplate
    let dependencies ← contentDependencies type code
    let modelRequirements ← taskRequirements type d.model name s.line
    .ok {
      name
      title := s.title
      description := joinParagraphs d.paragraphs
      executionType := type
      dependencies
      modelRequirements
      contentLanguage := code.language
      content := code.content
      result
      postprocessing := d.postprocessing
      expectations := d.expectations
      jokers := d.jokers }

/-- The task of a section, and the parameters declared up to its end. -/
def Section.toTask (s : Section) (model : ModelSetting) (parameters : List Parameter) :
    Result (Task × List Parameter) := do
  let name := Name.ofTitle s.title
  if name = "" then .error (.dialect s.line (.namelessTask s.title))
  else
    let draft ← s.contents.foldlM (Draft.read name) { parameters, model := model.forSection }
    let task ← draft.toTask name s
    .ok (task, draft.parameters)

/-- The tasks of the sections, and the parameters declared up to the end. -/
def sectionTasks (model : ModelSetting) (parameters : List Parameter) :
    List Section → Result (List Task × List Parameter)
  | [] => .ok ([], parameters)
  | s :: rest => do
    let (task, parameters) ← s.toTask model parameters
    let (tasks, parameters) ← sectionTasks model parameters rest
    .ok (task :: tasks, parameters)

/-- The declared parameters, and after them the results of tasks that were never declared. -/
def withResults (parameters : List Parameter) (tasks : List Task) : List Parameter :=
  tasks.foldl (fun ps t =>
    if ps.any (·.name == t.result) then ps else ps ++ [{ name := t.result }]) parameters

namespace Pipeline

/-- The document of an outline. -/
def ofOutline (o : Outline) : Result Pipeline := do
  let header ← o.preamble.foldlM Header.read {}
  match header.version with
  | none => .error (.dialect 1 .missingVersion)
  | some version =>
    let (tasks, parameters) ← sectionTasks header.model header.parameters o.sections
    if parameters = [] then .error (.dialect 1 .noParameters)
    else
      .ok {
        url := header.url
        title := o.title
        dialectVersion := version
        description := joinParagraphs header.paragraphs
        parameters := withResults parameters tasks
        tasks
        knowledge := [] }

/-- The document of a source. -/
def ofSource (source : String) : Result Pipeline := do
  ofOutline (← Outline.ofSource source)

end Pipeline

end PromptPipeline
