import PromptPipeline.Execution.Settings
import PromptPipeline.Files.Path
import PromptPipeline.Toml.Reader

/-!
# Settings

What a settings file says: the bounds of a run, the cache, the shell and the offline generators.
Every setting has a default, and settings of other names are ignored. Main statement:
`check_eq_ok_iff`, settings are usable exactly when all bounds are positive and the shell has a
name.
-/

namespace PromptPipeline

/-- The settings of the program. -/
structure Settings where
  execution : ExecutionSettings := {}
  /-- Whether answers of text generators are kept in a cache. -/
  isCacheEnabled : Bool := false
  cacheDirectory : String := ".promptflow/cache"
  /-- The shell that runs scripts. -/
  shell : String := "bash"
  /-- How many texts are tried to meet the expectations of a task. -/
  loopLimit : Nat := 1000
  deriving DecidableEq

namespace Settings

/-- Whether the settings can be used, or the first one that can not. -/
def check (s : Settings) : Except SettingsFault Unit := do
  s.execution.check
  if s.loopLimit = 0 then throw .noLoopLimit
  if Text.trim s.shell.toList = [] then throw .blankShell

/-! ## Reading -/

/-- The fields of a section that is a table, or an array of the fields in their order. A date is a
section without fields. -/
def fields? (names : List String) : Toml → Option (List (String × Toml))
  | .table members => some members
  | .array items => some (names.zip items)
  | .dateTime _ => some []
  | _ => none

/-- A field, which has a value even if it is not there. -/
def field? {α : Type} (fields : List (String × Toml)) (name : String) (default : α)
    (decode : Toml → Option α) : Option α :=
  match fields.lookup name with
  | some value => decode value
  | none => some default

/-- A field that is a section, empty if it is not there. -/
def sectionFields? (fields : List (String × Toml)) (name : String) (names : List String) :
    Option (List (String × Toml)) :=
  field? fields name [] (fields? names)

/-- A number that is not negative and below the limit. -/
def count? (limit : Nat) : Toml → Option Nat
  | .integer n => if 0 ≤ n ∧ n < limit then some n.toNat else none
  | _ => none

/-- A truth value. -/
def truth? : Toml → Option Bool
  | .boolean b => some b
  | _ => none

/-- A text. -/
def text? : Toml → Option String
  | .string s => some s
  | _ => none

/-- The settings in a document. -/
def ofToml? (t : Toml) : Option Settings := do
  let all ← fields? ["execution", "cache", "shell", "mock"] t
  let default : Settings := {}
  let execution ← sectionFields? all "execution" ["max_execution_attempts", "max_parallel_count"]
  let cache ← sectionFields? all "cache" ["enabled", "directory"]
  let shell ← sectionFields? all "shell" ["shell"]
  let mock ← sectionFields? all "mock" ["loop_limit"]
  some {
    execution := {
      maxAttempts := ← field? execution "max_execution_attempts" default.execution.maxAttempts
        (count? UInt32.size)
      maxParallel := ← field? execution "max_parallel_count" default.execution.maxParallel
        (count? UInt64.size) }
    isCacheEnabled := ← field? cache "enabled" default.isCacheEnabled truth?
    cacheDirectory := ← field? cache "directory" default.cacheDirectory text?
    shell := ← field? shell "shell" default.shell text?
    loopLimit := ← field? mock "loop_limit" default.loopLimit (count? UInt64.size) }

/-- The settings in the text of a document. -/
def ofText (text : String) : Result Settings :=
  match (Toml.read? text.toList).bind ofToml? with
  | some s => (s.check.mapError .settings).map fun _ => s
  | none => .error .malformedToml

/-! ## Files -/

/-- The name of a settings file. -/
def fileName : String := "promptflow.toml"

/-- The name of the directory with the settings of a user, in the directory with the settings of
all programs. -/
def userDirectory : String := "promptflow"

/-- The settings in a file; the default ones if there is no file. -/
def ofFile (files : FileTree) (location : Location) (path : String) : Result Settings :=
  if files.contains location then do
    ofText (← (files.readText location).mapError fun fault => .unreadableFile path fault.message)
  else .ok {}

/-- The settings that hold in a directory: from the file that is asked for, which must exist, or
else from the directory, or else from the settings of the user. -/
def discover (files : FileTree) (directory : Location) (userSettings : Option Location)
    (asked : Option String) : Result Settings :=
  match asked with
  | some path =>
    let location := FilePath.resolve directory path
    if files.contains location then ofFile files location path
    else .error (.settings (.fileNotFound path))
  | none =>
    let nearby := directory ++ [fileName]
    if files.contains nearby then ofFile files nearby fileName
    else
      match userSettings with
      | some root =>
        let location := root ++ [userDirectory, fileName]
        ofFile files location ("/" ++ "/".intercalate location)
      | none => .ok {}

/-- Settings are usable exactly when all bounds are positive and the shell has a name. -/
theorem check_eq_ok_iff {s : Settings} :
    s.check = .ok () ↔
      0 < s.execution.maxAttempts ∧ 0 < s.execution.maxParallel ∧ 0 < s.loopLimit ∧
        Text.trim s.shell.toList ≠ [] := by
  simp only [check, ExecutionSettings.check, Nat.pos_iff_ne_zero]
  by_cases ha : s.execution.maxAttempts = 0 <;> by_cases hp : s.execution.maxParallel = 0 <;>
    by_cases hl : s.loopLimit = 0 <;> by_cases hs : Text.trim s.shell.toList = [] <;>
      simp [ha, hp, hl, hs, bind, Except.bind, throw, throwThe, MonadExceptOf.throw, pure,
        Except.pure]

end Settings

end PromptPipeline
