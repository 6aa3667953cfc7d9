import PromptPipeline.Document.Json
import PromptPipeline.Execution.Report

/-!
# The interchange form of prompts, replies and reports
-/

namespace PromptPipeline

open Json

/-- The number as a record. -/
def UncertainNumber.toJson (x : UncertainNumber Binary64) : Json :=
  .object [("value", .number (.real x.value)), ("isExact", .bool x.isExact)]

/-- The number that a record stands for. -/
def UncertainNumber.ofJson? (j : Json) : Option (UncertainNumber Binary64) := do
  let ms ← record? ["value", "isExact"] j
  let value ← required? ms "value" real?
  let isExact ← required? ms "isExact" bool?
  some { value, isExact }

/-- The usage as a record. -/
def Usage.toJson (u : Usage Binary64) : Json :=
  .object [("price", u.price.toJson), ("inputTokens", u.inputTokens.toJson),
    ("outputTokens", u.outputTokens.toJson)]

/-- The usage that a record stands for. -/
def Usage.ofJson? (j : Json) : Option (Usage Binary64) := do
  let ms ← record? ["price", "inputTokens", "outputTokens"] j
  let price ← required? ms "price" UncertainNumber.ofJson?
  let inputTokens ← required? ms "inputTokens" UncertainNumber.ofJson?
  let outputTokens ← required? ms "outputTokens" UncertainNumber.ofJson?
  some { price, inputTokens, outputTokens }

namespace Moment

/-- The number of nanoseconds in a second. -/
def nanosecondsPerSecond : Nat := 1000000000

/-- The names of the members of a moment. -/
def memberNames : List String := ["secs_since_epoch", "nanos_since_epoch"]

/-- The moment as a record. -/
def toJson (t : Moment) : Json :=
  .object [("secs_since_epoch", .ofNat t.seconds), ("nanos_since_epoch", .ofNat t.nanoseconds)]

/-- The moment that a record stands for. It has no other members; seconds that are counted among the
nanoseconds are carried over, and the seconds fit 63 bits. -/
def ofJson? (j : Json) : Option Moment := do
  guard (hasOnly memberNames j)
  let ms ← record? memberNames j
  let seconds ← required? ms "secs_since_epoch" (natBelow? UInt64.size)
  let nanoseconds ← required? ms "nanos_since_epoch" (natBelow? UInt32.size)
  let total := seconds + nanoseconds / nanosecondsPerSecond
  guard (total < Nat.pow 2 63)
  some { seconds := total, nanoseconds := nanoseconds % nanosecondsPerSecond }

end Moment

/-- The timing as a record. -/
def Timing.toJson (t : Timing) : Json :=
  .object [("start", t.start.toJson), ("complete", t.complete.toJson)]

/-- The timing that a record stands for. -/
def Timing.ofJson? (j : Json) : Option Timing := do
  let ms ← record? ["start", "complete"] j
  let start ← required? ms "start" Moment.ofJson?
  let complete ← required? ms "complete" Moment.ofJson?
  some { start, complete }

/-- The prompt as a record. -/
def Prompt.toJson (p : Prompt) : Json :=
  .object ([("title", .string p.title), ("content", .string p.content),
    ("modelRequirements", p.requirements.toJson)] ++
    nonempty "expectations" Expectation.toJson p.expectations)

/-- The prompt that a record stands for. -/
def Prompt.ofJson? (j : Json) : Option Prompt := do
  let ms ← record? ["title", "content", "modelRequirements", "expectations"] j
  let title ← required? ms "title" string?
  let content ← required? ms "content" string?
  let requirements ← required? ms "modelRequirements" ModelRequirements.ofJson?
  let expectations ← withDefault? ms "expectations" [] (list? Expectation.ofJson?)
  some { title, content, requirements, expectations }

/-- The question as a record. -/
def UserPrompt.toJson (p : UserPrompt) : Json :=
  .object [("title", .string p.title), ("message", .string p.message),
    ("defaultValue", (p.defaultValue.map .string).getD .null)]

/-- The reply as a record. -/
def Reply.toJson (r : Reply Binary64) : Json :=
  .object [("content", .string r.content), ("modelName", .string r.modelName),
    ("timing", r.timing.toJson), ("usage", r.usage.toJson), ("rawResponse", r.rawResponse)]

/-- The reply that a record stands for. -/
def Reply.ofJson? (j : Json) : Option (Reply Binary64) := do
  let ms ← record? ["content", "modelName", "timing", "usage", "rawResponse"] j
  let content ← required? ms "content" string?
  let modelName ← required? ms "modelName" string?
  let timing ← required? ms "timing" Timing.ofJson?
  let usage ← required? ms "usage" Usage.ofJson?
  let rawResponse ← required? ms "rawResponse" (some ·.normal)
  some { content, modelName, timing, usage, rawResponse }

/-- The error as a record. -/
def ErrorRecord.toJson (e : ErrorRecord) : Json :=
  .object ([("kind", .string e.error.family)] ++ present "task" .string e.task ++
    [("message", .string e.error.message)])

/-- The attempt as a record. -/
def AttemptReport.toJson (a : AttemptReport Binary64) : Json :=
  .object ([("attempt", .ofNat a.attempt)] ++ present "result" .string a.result ++
    present "modelName" (fun r : Reply Binary64 => .string r.modelName) a.reply ++
    present "rawResponse" (·.rawResponse) a.reply ++
    present "timing" (·.timing.toJson) a.reply ++
    [("usage", a.usage.toJson)] ++
    present "error" (fun e : PipelineError => .string e.message) a.error)

/-- The report of a task as a record. -/
def TaskReport.toJson (r : TaskReport Binary64) : Json :=
  .object ([("taskName", .string r.task.name), ("title", .string r.task.title),
    ("executionType", .string r.task.executionType.name),
    ("resultingParameterName", .string r.task.result), ("status", .string r.status.label),
    ("attemptsUsed", .ofNat r.attemptsUsed)] ++
    present "substitutedContent" .string r.substitutedContent ++
    present "result" .string r.result ++ present "jokerUsed" .string r.jokerUsed ++
    [("usage", r.usage.toJson)] ++ nonempty "attempts" AttemptReport.toJson r.attempts ++
    present "error" ErrorRecord.toJson r.error)

/-- Named texts as a record. -/
def textsJson (texts : Bindings String) : Json :=
  .object (texts.toList.map fun (name, text) => (name, .string text))

/-- The report as a record. -/
def ExecutionReport.toJson (r : ExecutionReport Binary64) : Json :=
  .object (present "pipelineUrl" .string r.url ++
    [("title", .string r.title), ("dialectVersion", .string r.dialectVersion),
      ("isSuccessful", .bool r.isSuccessful), ("tasks", .array (r.tasks.map TaskReport.toJson)),
      ("usage", r.usage.toJson), ("errors", .array (r.errors.map ErrorRecord.toJson)),
      ("outputParameters", textsJson r.outputs)])

end PromptPipeline
