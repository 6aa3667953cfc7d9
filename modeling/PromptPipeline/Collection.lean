import PromptPipeline.Document.File
import PromptPipeline.Document.Validation

/-!
# Collections of pipelines

Valid pipelines by their URL. A pipeline is entered into a collection in place, after three checks.
Main statements: `run_enter`, a call that fails a check leaves the collection as it was, and
`add_eq_ok_iff`, a pipeline that is added has a URL that is new, and is valid.
-/

namespace PromptPipeline

/-- Pipelines by their URL. -/
structure Collection where
  pipelines : Bindings Pipeline := .empty

namespace Collection

/-- Enters a pipeline, which must have a new URL and be valid. The collection is changed in place:
what a failure leaves behind is what was done before it. -/
def enter (p : Pipeline) : ExceptT PipelineError (StateM Collection) Unit := do
  match p.url with
  | none => throw (.logic (.missingPipelineUrl p.title))
  | some url =>
    if (← get).pipelines.contains url then throw (.logic (.duplicatePipelineUrl url))
    else
      match p.validate none with
      | .error fault => throw (.logic fault)
      | .ok _ => modify fun c => ⟨c.pipelines.insert url p⟩

/-- The collection with one more pipeline, if it can be entered. -/
def add (c : Collection) (p : Pipeline) : Result Collection :=
  match (enter p).run c with
  | (.ok (), d) => .ok d
  | (.error e, _) => .error e

/-- The collection after pipelines were entered one after the other, as far as they could be. -/
def afterEntering (c : Collection) (pipelines : List Pipeline) : Collection :=
  pipelines.foldl (fun c p => ((enter p).run c).2) c

/-- The collection of some pipelines. -/
def ofPipelines (pipelines : List Pipeline) : Result Collection :=
  pipelines.foldlM add {}

/-- The collection of the pipelines that sources describe. -/
def ofSources (sources : List String) : Result Collection := do
  ofPipelines (← sources.mapM Pipeline.ofSource)

/-- Adds the pipelines of some files. -/
def addFiles (files : FileTree) (directory : Location) (c : Collection) :
    List String → Result Collection
  | [] => .ok c
  | path :: rest => do
    addFiles files directory (← c.add (← Pipeline.ofFile files directory path)) rest

/-- The collection of the pipeline files below a directory. -/
def ofDirectory (files : FileTree) (directory : Location) (path : String) : Result Collection :=
  if files.isDirectory (FilePath.resolve directory path) then
    match pipelinePaths? files directory path with
    | some paths => addFiles files directory {} paths
    | none => .error .malformedPattern
  else .error (.pipelineNotFound path)

/-- The pipelines in the order of their URLs. -/
def toList (c : Collection) : List Pipeline :=
  c.pipelines.toList.map (·.2)

/-- The URLs in their order. -/
def urls (c : Collection) : List String :=
  c.pipelines.keys

/-- The pipeline with the URL. -/
def get? (c : Collection) (url : String) : Option Pipeline :=
  c.pipelines.get? url

/-- The number of pipelines. -/
def size (c : Collection) : Nat :=
  c.pipelines.size

/-- The collection as a text. -/
def toJsonText (c : Collection) : String :=
  (Json.array (c.toList.map Pipeline.toJson)).pretty

/-- The collection that a text stands for. -/
def ofJsonText (text : String) : Result Collection :=
  match (Json.read? text.toList).bind (Json.list? Pipeline.ofJson?) with
  | some pipelines => ofPipelines pipelines
  | none => .error .malformedJson

/-- One call of `enter`: whatever check fails, the collection is still as it was. -/
theorem run_enter (p : Pipeline) (c : Collection) : (enter p).run c =
    match p.url with
    | none => (.error (.logic (.missingPipelineUrl p.title)), c)
    | some url =>
      if c.pipelines.contains url then (.error (.logic (.duplicatePipelineUrl url)), c)
      else
        match p.validate none with
        | .error fault => (.error (.logic fault), c)
        | .ok _ => (.ok (), ⟨c.pipelines.insert url p⟩) := by
  unfold enter
  cases p.url with
  | none => rfl
  | some url =>
    show (ite (c.pipelines.contains url = true) _ _ :
      ExceptT PipelineError (StateM Collection) Unit).run c = ite _ _ _
    split
    next => rfl
    next => cases p.validate none <;> rfl

/-- A pipeline that is added has a URL that is new, and is valid. -/
theorem add_eq_ok_iff {c d : Collection} {p : Pipeline} :
    c.add p = .ok d ↔
      ∃ url v, p.url = some url ∧ c.pipelines.contains url = false ∧ p.validate none = .ok v ∧
        d = ⟨c.pipelines.insert url p⟩ := by
  unfold add
  rw [run_enter]
  cases hurl : p.url with
  | none => simp
  | some url =>
    by_cases hc : c.pipelines.contains url = true
    · simp [hc]
    · cases hv : p.validate none with
      | error fault => simp [hc]
      | ok v =>
        simp only [hc, Bool.false_eq_true, if_false, Except.ok.injEq]
        constructor
        · rintro rfl
          exact ⟨url, v, rfl, by simpa using hc, rfl, rfl⟩
        · rintro ⟨u, w, hu, -, -, rfl⟩
          rw [Option.some.inj hu]

end Collection

end PromptPipeline
