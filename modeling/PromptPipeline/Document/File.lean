import PromptPipeline.Dialect.Source
import PromptPipeline.Document.Json
import PromptPipeline.Files.Glob

/-!
# Pipeline files

A pipeline is kept in a file as a source in the dialect or as a compiled document. The name of the
file tells which of the two it is.
-/

namespace PromptPipeline

/-- The endings of the names of pipeline files, sources before compiled documents. -/
def pipelineExtensions : List String :=
  ["ptbk.md", "ptbk.json"]

/-- Whether the name of a file says that it holds a compiled document. -/
def isCompiledPath (path : String) : Bool :=
  (FilePath.fileName? path).any (·.endsWith ".json")

/-- The pipeline in a file. -/
def Pipeline.ofFile (files : FileTree) (directory : Location) (path : String) :
    Result Pipeline := do
  let location := FilePath.resolve directory path
  if files.contains location then
    let text ← (files.readText location).mapError fun fault => .unreadableFile path fault.message
    if isCompiledPath path then Pipeline.ofJsonText text else Pipeline.ofSource text
  else .error (.pipelineNotFound path)

/-- The pattern for the pipeline files below a directory with one ending. -/
def pipelinePattern (path ending : String) : String :=
  FilePath.join (FilePath.join path "**") ("*." ++ ending)

/-- The paths of the pipeline files below a directory in their order; nothing if the path makes no
pattern. -/
def pipelinePaths? (files : FileTree) (directory : Location) (path : String) :
    Option (List String) :=
  (pipelineExtensions.mapM fun ending =>
    Glob.paths? files directory (pipelinePattern path ending)).map fun found =>
      found.flatten.mergeSort FilePath.le

end PromptPipeline
