import PromptPipeline.CommandLine.Console
import PromptPipeline.Document.Validation

/-!
# Verdicts

The command that validates a pipeline file, or all pipeline files below a directory. Among those of
one directory no URL may occur twice. Main statement: `verdicts_map_fst`, every file gets one
verdict.
-/

namespace PromptPipeline.CommandLine

/-- What there is to say about a pipeline file. -/
abbrev Verdict := Result Pipeline.Validation

/-- The verdict on a file after others whose URLs were seen; also the URLs that are seen after
it. -/
def verdict (files : FileTree) (directory : Location) (seen : List String) (path : String) :
    Verdict × List String :=
  match Pipeline.ofFile files directory path with
  | .error e => (.error e, seen)
  | .ok p =>
    match p.validate none, p.url with
    | .error fault, _ => (.error (.logic fault), seen)
    | .ok validation, none => (.ok validation, seen)
    | .ok validation, some url =>
      if seen.contains url then (.error (.logic (.duplicatePipelineUrl url)), seen)
      else (.ok validation, seen ++ [url])

/-- The verdicts on files, in their order. -/
def verdicts (files : FileTree) (directory : Location) (seen : List String) :
    List String → List (String × Verdict)
  | [] => []
  | path :: rest =>
    let (v, seen) := verdict files directory seen path
    (path, v) :: verdicts files directory seen rest

/-- Whether a verdict is that the file is not valid. -/
def Verdict.isBad : Verdict → Bool
  | .ok _ => false
  | .error _ => true

/-- The lines about a file. -/
def verdictLines (isVerbose : Bool) (path : String) : Verdict → List String
  | .ok validation =>
    s!"  ✓ {path}" :: validation.warnings.map (fun w => s!"    ⚠ {w.message}") ++
      if isVerbose then ["    Order: " ++ " → ".intercalate validation.executionOrder] else []
  | .error e => [s!"  ✗ {path}", s!"    {e.message}"]

namespace Job

/-- The files that a path stands for: itself, or the pipeline files below it. -/
def pipelineFiles (path : String) : Job (List String) := do
  let c ← get
  let location ← locate path
  if !c.session.files.contains location then throw (.pathNotFound path)
  if !c.session.files.isDirectory location then return [path]
  match pipelinePaths? c.session.files c.directory path with
  | some paths => return paths
  | none => throw (.malformedPattern path)

/-- Validates the pipelines that a path stands for. -/
def validate (isVerbose : Bool) (path : String) : Job Unit := do
  write "Validating pipelines...\n\n"
  let paths ← pipelineFiles path
  if paths = [] then writeLine "  ⚠ No pipeline files found"
  else
    let c ← get
    let all := verdicts c.session.files c.directory [] paths
    all.forM fun (path, v) => (verdictLines isVerbose path v).forM writeLine
    if isVerbose then write s!"\n  Checked {paths.length} file(s)\n"
    writeLine ""
    let bad := (all.filter (·.2.isBad)).length
    if bad = 0 then writeLine "All pipelines are valid!" else throw (.invalidPipelines bad)

end Job

/-- Every file gets one verdict. -/
theorem verdicts_map_fst (files : FileTree) (directory : Location) (seen paths : List String) :
    (verdicts files directory seen paths).map (·.1) = paths := by
  induction paths generalizing seen with
  | nil => rfl
  | cons path rest ih => simp [verdicts, ih]

end PromptPipeline.CommandLine
