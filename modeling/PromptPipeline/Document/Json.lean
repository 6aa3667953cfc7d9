import PromptPipeline.Document.Pipeline
import PromptPipeline.Error
import PromptPipeline.Json.Decode
import PromptPipeline.Json.Printer
import PromptPipeline.Json.Reader

/-!
# The interchange form of pipeline documents

A pipeline document is exchanged as a JSON object. Members stand in a fixed order when written;
members without content are left out.
-/

namespace PromptPipeline

open Json

/-- The names of the execution types. -/
def ExecutionType.names : List (String × ExecutionType) :=
  [("PROMPT_TEMPLATE", .promptTemplate), ("SIMPLE_TEMPLATE", .simpleTemplate),
    ("SCRIPT", .script), ("PROMPT_DIALOG", .promptDialog)]

/-- The name of the execution type. -/
def ExecutionType.name : ExecutionType → String
  | .promptTemplate => "PROMPT_TEMPLATE"
  | .simpleTemplate => "SIMPLE_TEMPLATE"
  | .script => "SCRIPT"
  | .promptDialog => "PROMPT_DIALOG"

/-- The names of the model variants. -/
def ModelVariant.names : List (String × ModelVariant) :=
  [("COMPLETION", .completion), ("CHAT", .chat)]

/-- The names of the signs. -/
def Sign.names : List (String × Sign) :=
  [("EXACTLY", .exactly), ("MINIMUM", .minimum), ("MAXIMUM", .maximum)]

/-- The name of the sign. -/
def Sign.name : Sign → String
  | .exactly => "EXACTLY"
  | .minimum => "MINIMUM"
  | .maximum => "MAXIMUM"

/-- The names of the units. -/
def TextUnit.names : List (String × TextUnit) :=
  TextUnit.all.map fun unit => (unit.label, unit)

/-- The names of the formats. -/
def TextFormat.names : List (String × TextFormat) :=
  [("JSON", .json)]

/-- An amount as a number. -/
def amountJson (n : Amount) : Json := .ofNat n.toNat

/-- The expectation as a record that names its type. -/
def Expectation.toJson : Expectation → Json
  | .amount sign unit n =>
    .object [("type", .string "AMOUNT"), ("sign", .string sign.name), ("unit", .string unit.label),
      ("amount", amountJson n)]
  | .format f => .object [("type", .string "FORMAT"), ("format", .string f.label)]

/-- The expectation of a type, from its other members. -/
def Expectation.ofTyped? (type : String) (body : Json) : Option Expectation := do
  if type = "AMOUNT" then
    let ms ← record? ["sign", "unit", "amount"] body
    let sign ← required? ms "sign" (choice? Sign.names)
    let unit ← required? ms "unit" (choice? TextUnit.names)
    let n ← required? ms "amount" word?
    some (.amount sign unit n)
  else if type = "FORMAT" then
    let ms ← record? ["format"] body
    let f ← required? ms "format" (choice? TextFormat.names)
    some (.format f)
  else none

/-- The expectation that a record stands for. Its type may stand anywhere among its members. -/
def Expectation.ofJson? : Json → Option Expectation
  | .object members =>
    match membersNamed members "type" with
    | [.string type] => Expectation.ofTyped? type (.object (members.filter (·.1 != "type")))
    | _ => none
  | .array (.string type :: rest) => Expectation.ofTyped? type (.array rest)
  | _ => none

/-- The parameter as a record. -/
def Parameter.toJson (p : Parameter) : Json :=
  .object ([("name", .string p.name)] ++ present "description" .string p.description ++
    [("isInput", .bool p.isInput), ("isOutput", .bool p.isOutput)])

/-- The parameter that a record stands for. -/
def Parameter.ofJson? (j : Json) : Option Parameter := do
  let ms ← record? ["name", "description", "isInput", "isOutput"] j
  let name ← required? ms "name" string?
  let description ← optional? ms "description" string?
  let isInput ← withDefault? ms "isInput" false bool?
  let isOutput ← withDefault? ms "isOutput" false bool?
  some { name, description, isInput, isOutput }

/-- The requirements as a record. -/
def ModelRequirements.toJson (r : ModelRequirements) : Json :=
  .object ([("modelVariant", .string r.variant.label)] ++
    present "modelName" .string r.modelName ++ present "maxTokens" amountJson r.maxTokens)

/-- The requirements that a record stands for. -/
def ModelRequirements.ofJson? (j : Json) : Option ModelRequirements := do
  let ms ← record? ["modelVariant", "modelName", "maxTokens"] j
  let variant ← required? ms "modelVariant" (choice? ModelVariant.names)
  let modelName ← optional? ms "modelName" string?
  let maxTokens ← optional? ms "maxTokens" word?
  some { variant, modelName, maxTokens }

/-- The task as a record. -/
def Task.toJson (t : Task) : Json :=
  .object ([("name", .string t.name), ("title", .string t.title)] ++
    present "description" .string t.description ++
    [("executionType", .string t.executionType.name),
      ("dependentParameterNames", ofStrings t.dependencies.toList)] ++
    present "modelRequirements" ModelRequirements.toJson t.modelRequirements ++
    present "contentLanguage" .string t.contentLanguage ++
    [("content", .string t.content), ("resultingParameterName", .string t.result)] ++
    nonempty "postprocessing" .string t.postprocessing ++
    nonempty "expectations" Expectation.toJson t.expectations ++
    nonempty "jokerParameterNames" .string t.jokers)

/-- The names of the members of a task. -/
def Task.memberNames : List String :=
  ["name", "title", "description", "executionType", "dependentParameterNames",
    "modelRequirements", "contentLanguage", "content", "resultingParameterName",
    "postprocessing", "expectations", "jokerParameterNames"]

/-- The task that a record stands for. -/
def Task.ofJson? (j : Json) : Option Task := do
  let ms ← record? Task.memberNames j
  let name ← required? ms "name" string?
  let title ← required? ms "title" string?
  let description ← optional? ms "description" string?
  let executionType ← required? ms "executionType" (choice? ExecutionType.names)
  let dependencies ← required? ms "dependentParameterNames" (list? string?)
  let modelRequirements ← optional? ms "modelRequirements" ModelRequirements.ofJson?
  let contentLanguage ← optional? ms "contentLanguage" string?
  let content ← required? ms "content" string?
  let result ← required? ms "resultingParameterName" string?
  let postprocessing ← withDefault? ms "postprocessing" [] (list? string?)
  let expectations ← withDefault? ms "expectations" [] (list? Expectation.ofJson?)
  let jokers ← withDefault? ms "jokerParameterNames" [] (list? string?)
  some { name, title, description, executionType, dependencies := .ofList dependencies,
         modelRequirements, contentLanguage, content, result, postprocessing, expectations,
         jokers }

/-- The source of knowledge as a record. -/
def KnowledgeSource.toJson (s : KnowledgeSource) : Json :=
  .object [("title", .string s.title), ("href", .string s.href)]

/-- The source of knowledge that a record stands for. -/
def KnowledgeSource.ofJson? (j : Json) : Option KnowledgeSource := do
  let ms ← record? ["title", "href"] j
  let title ← required? ms "title" string?
  let href ← required? ms "href" string?
  some { title, href }

/-- The piece of knowledge as a record. -/
def KnowledgePiece.toJson (k : KnowledgePiece) : Json :=
  .object [("name", .string k.name), ("title", .string k.title), ("content", .string k.content),
    ("keywords", ofStrings k.keywords), ("sources", .array (k.sources.map KnowledgeSource.toJson))]

/-- The piece of knowledge that a record stands for. -/
def KnowledgePiece.ofJson? (j : Json) : Option KnowledgePiece := do
  let ms ← record? ["name", "title", "content", "keywords", "sources"] j
  let name ← required? ms "name" string?
  let title ← required? ms "title" string?
  let content ← required? ms "content" string?
  let keywords ← withDefault? ms "keywords" [] (list? string?)
  let sources ← withDefault? ms "sources" [] (list? KnowledgeSource.ofJson?)
  some { name, title, content, keywords, sources }

namespace Pipeline

/-- The document as a record. -/
def toJson (p : Pipeline) : Json :=
  .object (present "pipelineUrl" .string p.url ++
    [("title", .string p.title), ("dialectVersion", .string p.dialectVersion)] ++
    present "description" .string p.description ++
    [("parameters", .array (p.parameters.map Parameter.toJson)),
      ("tasks", .array (p.tasks.map Task.toJson)),
      ("knowledge", .array (p.knowledge.map KnowledgePiece.toJson))])

/-- The document that a record stands for. -/
def ofJson? (j : Json) : Option Pipeline := do
  let ms ← record? ["pipelineUrl", "title", "dialectVersion", "description", "parameters", "tasks",
    "knowledge"] j
  let url ← optional? ms "pipelineUrl" string?
  let title ← required? ms "title" string?
  let dialectVersion ← required? ms "dialectVersion" string?
  let description ← optional? ms "description" string?
  let parameters ← required? ms "parameters" (list? Parameter.ofJson?)
  let tasks ← required? ms "tasks" (list? Task.ofJson?)
  let knowledge ← withDefault? ms "knowledge" [] (list? KnowledgePiece.ofJson?)
  some { url, title, dialectVersion, description, parameters, tasks, knowledge }

/-- The document as JSON text. -/
def toJsonText (p : Pipeline) : String :=
  p.toJson.pretty

/-- The document that a JSON text stands for. -/
def ofJsonText (text : String) : Result Pipeline :=
  match (Json.read? text.toList).bind ofJson? with
  | some p => .ok p
  | none => .error .malformedJson

end Pipeline

end PromptPipeline
