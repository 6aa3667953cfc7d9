import PromptPipeline.CommandLine.Manual
import PromptPipeline.CommandLine.Program
import Std.Time.DateTime.Timestamp

/-!
# The executable

Carries the program out on the machine: the files that the arguments and the settings name are read,
the program is run on them, and what it has changed is written back. When the program waits for a
line, it is read and the program is run again from the start, which repeats what it did, since a
run depends on nothing else.
-/

namespace PromptPipeline.Executable

open CommandLine

/-- The path of a location. -/
def pathOf (l : Location) : String :=
  "/" ++ "/".intercalate l

/-- The location of an absolute path. -/
def locationOf (path : String) : Location :=
  FilePath.resolve [] path

/-! ## Reading -/

/-- Adds what is at a location. -/
def readNode (files : FileTree) (l : Location) : IO FileTree := do
  let path := (← IO.currentDir) / pathOf l
  if ← path.isDir then return files.put l .directory
  if ← path.pathExists then
    try
      return files.put l (.file (← IO.FS.readBinFile path).toList)
    catch _ => return files
  return files

/-- Adds what is at a location and on the way to it. -/
def readWay (files : FileTree) (l : Location) : IO FileTree :=
  (List.range l.length).foldlM (fun files n => readNode files (l.take (n + 1))) files

/-- Adds all that is below a location. -/
partial def readTree (files : FileTree) (l : Location) : IO FileTree := do
  let path := (← IO.currentDir) / pathOf l
  if !(← path.isDir) then return files
  let mut files := files
  for entry in ← path.readDir do
    let inner := l ++ [entry.fileName]
    files ← readTree (← readNode files inner) inner
  return files

/-- The directory with the settings of the user for all programs. -/
def userSettings? : IO (Option Location) := do
  match ← IO.getEnv "XDG_CONFIG_HOME" with
  | some path => if FilePath.isAbsolute path then return some (locationOf path)
  | none => pure ()
  return (← IO.getEnv "HOME").map fun home => FilePath.resolve (locationOf home) ".config"

/-- The paths that there may be something to read at, each with whether all that is below it is to
be read as well. -/
def pathsOf (settings : Settings) : Action → List (String × Bool)
  | .compile file _ output => (file, false) :: output.toList.map (·, false)
  | .validate path => [(path, true)]
  | .run o => [(o.file, false), (settings.cacheDirectory, true)] ++ o.report.toList.map (·, false)
  | .graph file _ => [(file, false)]
  | .cacheStats | .cacheClear _ => [(settings.cacheDirectory, true)]

/-- Reads the files that the arguments and the settings name. -/
def readFiles (user : Option Location) (directory : Location) (arguments : List String) :
    IO FileTree := do
  let files ← readWay {} directory
  match Invocation.ofArguments arguments with
  | .error _ => return files
  | .ok invocation =>
    let inside := (invocation.directory.map (FilePath.resolve directory)).getD directory
    let candidates := (invocation.settingsFile.map (FilePath.resolve inside)).toList ++
      [inside ++ [Settings.fileName]] ++
      (user.map (· ++ [Settings.userDirectory, Settings.fileName])).toList
    let files ← candidates.foldlM readWay (← readWay files inside)
    match Settings.discover files inside user invocation.settingsFile with
    | .error _ => return files
    | .ok settings =>
      (pathsOf settings invocation.action).foldlM (fun files (path, isDeep) => do
        let l := FilePath.resolve inside path
        let files ← readWay files l
        if isDeep then readTree files l else return files) files

/-! ## Writing -/

/-- Writes the differences between two trees, directories before what is in them. -/
def writeChanges (before after : FileTree) : IO Unit := do
  let base ← IO.currentDir
  for (l, node) in before.entries do
    if !after.contains l then
      match node with
      | .file _ => IO.FS.removeFile (base / pathOf l)
      | .directory => pure ()
  let changed := after.entries.filter fun (l, node) => before.at? l != some node
  for (l, node) in changed.mergeSort fun a b => a.1.length ≤ b.1.length do
    match node with
    | .directory => IO.FS.createDirAll (base / pathOf l)
    | .file bytes => IO.FS.writeBinFile (base / pathOf l) ⟨bytes.toArray⟩
  let gone := before.entries.filter fun (l, node) => node == .directory && !after.contains l
  for (l, _) in gone.mergeSort fun a b => b.1.length ≤ a.1.length do
    IO.FS.removeDirAll (base / pathOf l)

/-! ## Running -/

/-- The time. -/
def currentTime : IO Moment := do
  let nanoseconds := (← Std.Time.Timestamp.now).toNanosecondsSinceUnixEpoch.toInt.toNat
  return ⟨nanoseconds / nanosecondsPerSecond, nanoseconds % nanosecondsPerSecond⟩

/-- The part of a text that was not yet written. -/
def unwritten (written text : String) : String :=
  .ofList (text.toList.drop written.length)

/-- Runs the program, again and again as long as it waits for a line. -/
partial def converse (user : Option Location) (arguments : List String) (console shown : Console) :
    IO (Except Failure Unit × Console) := do
  let (result, after) := invoke user arguments console
  IO.eprint (unwritten shown.complaints after.complaints)
  IO.print (unwritten shown.output after.output)
  (← IO.getStdout).flush
  match result with
  | .error (.command .awaitingInput) =>
    let line ← (← IO.getStdin).getLine
    let session := console.session
    let typed := session.typed ++ [.ofList (Text.dropEndWhile (· == '\n') line.toList)]
    converse user arguments { console with session := { session with typed } } after
  | _ => return (result, after)

/-- Says why the program does not come to a good end: the exit code. -/
def report : Failure → IO UInt32
  | .usage fault => do
    if fault.isAnswered then
      IO.println fault.message
      return 0
    else
      IO.eprintln fault.message
      return 2
  | failure => do
    IO.eprintln ("Error: " ++ failure.message?.getD "")
    match failure with
    | .command fault =>
      match fault.help with
      | some help => IO.eprintln ("help: " ++ help)
      | none => pure ()
    | _ => pure ()
    return 1

/-- Runs the program with its arguments: the exit code. -/
def run (arguments : List String) : IO UInt32 := do
  let directory := locationOf (← IO.currentDir).toString
  let user ← userSettings?
  let files ← readFiles user directory arguments
  let session : Session :=
    { files, now := ← currentTime, mayTypeMore := true, isTerminal := ← (← IO.getStdin).isTty }
  let (result, after) ← converse user arguments { session, directory } {}
  writeChanges files after.session.files
  match result with
  | .ok () => return 0
  | .error failure => report failure

end PromptPipeline.Executable

/-- Runs the program with its arguments. -/
def main (arguments : List String) : IO UInt32 :=
  PromptPipeline.Executable.run arguments
