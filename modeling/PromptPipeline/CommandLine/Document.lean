import PromptPipeline.CommandLine.Console
import PromptPipeline.CommandLine.Invocation
import PromptPipeline.Document.Drawing
import PromptPipeline.Yaml.Printer

/-!
# Documents and drawings

The commands that write out a compiled document, and the task graph of one.
-/

namespace PromptPipeline.CommandLine

/-- The text of a document in a format. -/
def DocumentFormat.text (p : Pipeline) : DocumentFormat → String
  | json => p.toJsonText
  | yaml => Yaml.document p.toJson

/-- The text of a drawing in a format. A drawing in words has the tasks in their order, so there is
none if tasks wait for one another. -/
def GraphFormat.draw (p : Pipeline) : GraphFormat → Except LogicFault String
  | text => p.toText
  | dot => .ok p.toDot
  | mermaid => .ok p.toMermaid

/-- The text with one line feed at its end, in place of the white space there. -/
def closed (text : String) : String :=
  .ofList (Text.trimEnd text.toList) ++ "\n"

namespace Job

/-- Writes out the document of a pipeline. -/
def compile (isVerbose : Bool) (file : String) (format : DocumentFormat) (output : Option String) :
    Job Unit := do
  let p ← loadPipeline file
  let text := closed (format.text p)
  match output with
  | none => write text
  | some path =>
    writeFile path text (.unwritableDocument path)
    if isVerbose then complain s!"  ✓ {p.title} ({p.tasks.length} tasks) -> {path}"

/-- Writes out the task graph of a pipeline. -/
def graph (file : String) (format : GraphFormat) : Job Unit := do
  let p ← loadPipeline file
  write (closed (← requireValid (format.draw p)))

end Job

end PromptPipeline.CommandLine
