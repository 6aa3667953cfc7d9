import PromptPipeline.Bindings
import PromptPipeline.Files.Path
import PromptPipeline.Script.Shell.Command
import PromptPipeline.Script.Shell.Utility

/-!
# Running shell scripts

A script is run in a machine of its own, which has variables, an input and what was written so far,
and no files. The number of steps is bounded, so that every run ends.
-/

namespace PromptPipeline.Shell

open Text

/-- The state of a running script. -/
structure Machine where
  family : Family
  /-- The name by which the shell complains. -/
  shell : String
  bindings : Bindings String
  status : Nat := 0
  input : List UInt8 := []
  /-- What was written, each time with the number of the stream. -/
  written : List (Nat × List UInt8) := []
  /-- Whether the script has come to its end. -/
  isExiting : Bool := false

/-- An action of a running script. -/
abbrev Action := StateM Machine

/-- Writes to a stream. -/
def write (stream : Nat) (bytes : List UInt8) : Action Unit :=
  modify fun m => if bytes = [] then m else { m with written := m.written ++ [(stream, bytes)] }

/-- Writes a line to the stream of complaints. -/
def complain (line : String) : Action Unit :=
  if line = "" then pure () else write 2 (bytesOf (line ++ "\n").toList)

/-- Sets the status of the last command. -/
def setStatus (status : Nat) : Action Unit :=
  modify fun m => { m with status }

/-- Binds a variable. -/
def assign (name value : String) : Action Unit :=
  modify fun m => { m with bindings := m.bindings.insert name value }

/-- What was written to a stream. -/
def writtenTo (stream : Nat) (written : List (Nat × List UInt8)) : List UInt8 :=
  (written.filter (·.1 == stream)).flatMap (·.2)

/-- An action whose changes to the machine are forgotten, apart from its status and what it writes. -/
def forgetting (action : Action Unit) : Action Unit := do
  let before ← get
  action
  modify fun m => { before with status := m.status, written := m.written, input := m.input }

/-- What an action writes to the output stream, instead of writing it. -/
def capturing (action : Action Unit) : Action (List UInt8) := do
  let before ← get
  set { before with written := [] }
  forgetting action
  let after ← get
  let others := after.written.filter fun (stream, _) => stream ≠ 1
  set { after with written := before.written ++ others }
  return writtenTo 1 after.written

/-- The stream that a stream leads to after redirections, or nothing if it leads nowhere. -/
def destination (redirections : List Redirection) : Nat → Option Nat :=
  redirections.foldl (fun lead r stream =>
      if stream = r.stream then
        match r.target with
        | .stream number => lead number
        | .file _ => none
      else lead stream)
    some

/-- An action whose streams are redirected. -/
def redirecting (redirections : List Redirection) (action : Action Unit) : Action Unit := do
  let before ← get
  let input := if redirections.any (·.stream == 0) then [] else before.input
  set { before with written := [], input }
  action
  let after ← get
  let written := after.written.filterMap fun (stream, bytes) =>
    (destination redirections stream).map fun number => (number, bytes)
  set { after with written := before.written ++ written, input := before.input }

/-- The value of a variable as an integer. -/
def Machine.integer (m : Machine) (name : String) : Int :=
  ((m.bindings.get? name).bind fun value => Arithmetic.integer? value.toList).getD 0

/-- The value of a parameter, if it is set. -/
def Machine.value? (m : Machine) (name : String) : Option String :=
  if name = "?" then some (toString m.status)
  else if name = "#" then some "0"
  else if name = "0" then some m.shell
  else m.bindings.get? name

/-- The fields of a word that is being split: the complete ones and the one that is still open. -/
structure Fields where
  complete : List (List Char) := []
  pending : Option (List Char) := none

/-- Adds characters to the open field. -/
def Fields.add (f : Fields) (chars : List Char) : Fields :=
  { f with pending := some (f.pending.getD [] ++ chars) }

/-- Closes the open field. -/
def Fields.close (f : Fields) : Fields :=
  { complete := f.complete ++ f.pending.toList }

/-- Adds characters, of which white space closes the open field. -/
def Fields.addSplit (f : Fields) (chars : List Char) : Fields :=
  chars.foldl (fun f c => if " \t\n".toList.contains c then f.close else f.add [c]) f

/-- The variable and the word of an assignment. -/
def assignment? (w : Word) : Option (String × Word) :=
  let rec split (name : List Char) : Word → Option (String × Word)
    | .text [c] false :: rest =>
      if c = '=' then if name = [] then none else some (.ofList name, rest)
      else if continuesName c ∧ (name ≠ [] ∨ startsName c) then split (name ++ [c]) rest
      else none
    | _ => none
  split [] w

/-- Splits off the assignments that a command starts with. -/
def splitAssignments : List Word → List (String × Word) × List Word
  | [] => ([], [])
  | w :: rest =>
    match assignment? w with
    | some a => ((a :: (splitAssignments rest).1), (splitAssignments rest).2)
    | none => ([], w :: rest)

/-- The utilities that read no input. -/
def ignoresInput (name : String) : Bool :=
  ["echo", "printf", "test", "[", "true", "false", ":", "seq", "sleep"].contains name

/-- Reads a line of the input into variables, the last of which takes the rest of the line. -/
def readLine (names : List String) : Action Unit := do
  let m ← get
  let line := m.input.takeWhile (· ≠ 10)
  set { m with input := m.input.drop (line.length + 1) }
  setStatus (if line.length < m.input.length then 0 else 1)
  let rec bind (text : List Char) : List String → Action Unit
    | [] => pure ()
    | [name] => assign name (.ofList (trim text))
    | name :: rest => do
      let text := trimStart text
      assign name (.ofList (text.takeWhile (!isBlank ·)))
      bind (text.dropWhile (!isBlank ·)) rest
  bind (ofUtf8Lossy line) (names.filter (!·.startsWith "-"))

/-- Runs a utility, or complains that there is none. -/
def callUtility (name : String) (arguments : List String) : Action Unit := do
  let m ← get
  match utility? m.family name arguments m.input with
  | some effect =>
    if !ignoresInput name then set { m with input := [] }
    write 1 effect.output
    complain effect.complaint
    setStatus effect.status
  | none =>
    complain (match m.family with
      | .plain => s!"{m.shell}: 1: {name}: not found"
      | .bash => s!"{m.shell}: line 1: {name}: command not found")
    setStatus 127

/-- Ends the script. -/
def exit (arguments : List String) : Action Unit :=
  modify fun m =>
    let status := (arguments.head?.bind fun a => Arithmetic.integer? a.toList).map
      fun n => (n.emod 256).toNat
    { m with isExiting := true, status := status.getD m.status }

mutual

/-- The text that an expansion is replaced by. -/
def expansionText : (fuel : Nat) → Expansion → Action (List Char)
  | 0, _ => pure []
  | fuel + 1, e => do
    let m ← get
    match e with
    | .parameter name none => return ((m.value? name).getD "").toList
    | .parameter name (some default) =>
      match default, m.value? name with
      | .ifEmpty _, some value | .ifUnset _, some value =>
        if value = "" then
          match default with
          | .ifEmpty word => wordText fuel word
          | _ => return []
        else return value.toList
      | .ifEmpty word, none | .ifUnset word, none => wordText fuel word
      | .ifPresent word, some value => if value = "" then return [] else wordText fuel word
      | .ifPresent _, none => return []
    | .length name =>
      return (toString (bytesOf ((m.value? name).getD "").toList).length).toList
    | .arithmetic expression =>
      match Arithmetic.eval? m.integer expression with
      | some n => return (toString n).toList
      | none =>
        complain s!"{m.shell}: arithmetic expression: expecting primary"
        exit ["2"]
        return []
    | .command script =>
      let bytes ← capturing (runScript fuel script)
      return dropEndWhile (· == '\n') (ofUtf8Lossy bytes)

/-- The text of a word inside an expansion. -/
def wordText : (fuel : Nat) → List Char → Action (List Char)
  | 0, _ => pure []
  | fuel + 1, word =>
    match readDouble (word.length + 2) (word ++ ['"']) with
    | some (parts, _) => return (← expand fuel parts {}).close.complete.flatten
    | none => return word

/-- Adds the parts of a word to fields. -/
def expand : (fuel : Nat) → Word → Fields → Action Fields
  | 0, _, f => pure f
  | _, [], f => pure f
  | fuel + 1, .text chars _ :: rest, f => expand fuel rest (f.add chars)
  | fuel + 1, .expand e isQuoted :: rest, f => do
    let text ← expansionText fuel e
    expand fuel rest (if isQuoted then f.add text else f.addSplit text)

/-- The fields of words. -/
def expandAll : (fuel : Nat) → List Word → Action (List String)
  | 0, _ => pure []
  | _, [] => pure []
  | fuel + 1, w :: rest => do
    let fields ← expand fuel w {}
    let later ← expandAll fuel rest
    return fields.close.complete.map .ofList ++ later

/-- Makes assignments. -/
def assignAll : (fuel : Nat) → List (String × Word) → Action Unit
  | 0, _ => pure ()
  | _, [] => pure ()
  | fuel + 1, (name, w) :: rest => do
    let quoted := w.map fun
      | WordPart.expand e _ => .expand e true
      | part => part
    let fields ← expand fuel quoted {}
    assign name (.ofList fields.close.complete.flatten)
    assignAll fuel rest

/-- Runs a command without a structure of its own. -/
def runSimple : (fuel : Nat) → List Word → Action Unit
  | 0, _ => pure ()
  | fuel + 1, words => do
    let (assignments, words) := splitAssignments words
    let before ← get
    let arguments ← expandAll fuel words
    match arguments with
    | [] =>
      let runsScript := assignments.any fun (_, w) => w.any fun
        | .expand (.command _) _ => true
        | _ => false
      assignAll fuel assignments
      if !runsScript then setStatus 0
    | "exit" :: arguments => exit arguments
    | "read" :: names => readLine names
    | "unset" :: names =>
      modify fun m =>
        { m with bindings := names.foldl (fun b name => b.erase name) m.bindings, status := 0 }
    | "export" :: _ | "readonly" :: _ | "local" :: _ | "declare" :: _ =>
      assignAll fuel (words.tail.filterMap assignment?)
      setStatus 0
    | "set" :: _ => setStatus 0
    | name :: arguments =>
      assignAll fuel assignments
      callUtility name arguments
      if assignments ≠ [] then modify fun m => { m with bindings := before.bindings }

/-- Runs the body for each item. -/
def runForEach : (fuel : Nat) → String → List String → Command → Action Unit
  | 0, _, _, _ => pure ()
  | _, _, [], _ => pure ()
  | fuel + 1, name, item :: rest, body => do
    if (← get).isExiting then return
    assign name item
    run fuel body
    runForEach fuel name rest body

/-- Runs a command. -/
def run : (fuel : Nat) → Command → Action Unit
  | 0, _ => pure ()
  | fuel + 1, command => do
    if (← get).isExiting then return
    match command with
    | .skip => pure ()
    | .simple words => runSimple fuel words
    | .sequence first second =>
      run fuel first
      run fuel second
    | .both first second =>
      run fuel first
      if (← get).status = 0 then run fuel second
    | .either first second =>
      run fuel first
      if (← get).status ≠ 0 then run fuel second
    | .pipe first second =>
      let before ← get
      let bytes ← capturing (run fuel first)
      modify fun m => { m with input := bytes }
      forgetting (run fuel second)
      modify fun m => { m with input := before.input }
    | .negate inner =>
      run fuel inner
      modify fun m => { m with status := if m.status = 0 then 1 else 0 }
    | .subshell inner => forgetting (run fuel inner)
    | .redirect inner redirections => redirecting redirections (run fuel inner)
    | .conditional condition yes no =>
      run fuel condition
      if (← get).status = 0 then run fuel yes
      else
        setStatus 0
        run fuel no
    | .loop whileFails condition body =>
      run fuel condition
      if ((← get).status = 0) = !whileFails ∧ !(← get).isExiting then
        run fuel body
        run fuel (.loop whileFails condition body)
      else setStatus 0
    | .forEach name items body =>
      let items ← expandAll fuel items
      setStatus 0
      runForEach fuel name items body

/-- Runs a script. -/
def runScript : (fuel : Nat) → List Char → Action Unit
  | 0, _ => pure ()
  | fuel + 1, script => do
    match Command.ofScript? script with
    | some command => run fuel command
    | none =>
      complain s!"{(← get).shell}: 1: Syntax error"
      exit ["2"]

end

/-- How a script ends. -/
structure Ending where
  status : Nat
  output : List UInt8
  complaints : List UInt8

/-- The bound on the steps of a script. -/
def maxSteps : Nat := 100000

/-- The family of an executable, if it is a shell. -/
def Family.ofExecutable? (executable : String) : Option Family :=
  match FilePath.fileName? executable with
  | some "bash" => some .bash
  | some "sh" | some "dash" => some .plain
  | _ => none

/-- Runs a script in a shell with the given variables; nothing if the executable is no shell. -/
def execute? (executable script : String) (bindings : Bindings String) : Option Ending :=
  (Family.ofExecutable? executable).map fun family =>
    let machine : Machine := { family, shell := executable, bindings }
    let (_, machine) := (runScript maxSteps script.toList).run machine
    { status := machine.status
      output := writtenTo 1 machine.written
      complaints := writtenTo 2 machine.written }

end PromptPipeline.Shell
