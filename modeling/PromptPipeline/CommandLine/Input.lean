import PromptPipeline.Bindings
import PromptPipeline.Text.Line

/-!
# Inputs on the command line

An input is written as a name, an equals sign and a value; braces may enclose the name. Main
statement: `read_eq_ok`, the first equals sign separates the two.
-/

namespace PromptPipeline.CommandLine

/-- Why a text is no input. -/
inductive InputFault where
  | noSeparator (text : String)
  | noName (text : String)
  deriving DecidableEq

/-- What is wrong with the text. -/
def InputFault.message : InputFault → String
  | noSeparator text => "Invalid input \x60" ++ text ++ "\x60, expected NAME=VALUE"
  | noName text => "Invalid input \x60" ++ text ++ "\x60, missing parameter name"

namespace Input

open Text

/-- The name in a text, without the white space around it and the braces at its ends. -/
def name (text : List Char) : List Char :=
  dropEndWhile (· == '\x7d') ((trim text).dropWhile (· == '\x7b'))

/-- The name and the value of an input. -/
def read (text : String) : Except InputFault (String × String) :=
  match splitOnce? (· == '=') text.toList with
  | none => .error (.noSeparator text)
  | some (before, value) =>
    if name before = [] then .error (.noName text)
    else .ok (.ofList (name before), .ofList value)

/-- Adds inputs one by one; of two for one name the later one counts. -/
def readInto (inputs : Bindings String) : List String → Except InputFault (Bindings String)
  | [] => .ok inputs
  | text :: rest => do
    let (name, value) ← read text
    readInto (inputs.insert name value) rest

/-- The values of the inputs by name. -/
def readAll (texts : List String) : Except InputFault (Bindings String) :=
  readInto .empty texts

/-- The first equals sign separates the name and the value. -/
theorem read_eq_ok {before value : List Char} (hb : '=' ∉ before) (hn : name before ≠ []) :
    read (.ofList (before ++ '=' :: value)) = .ok (.ofList (name before), .ofList value) := by
  have hsplit : splitOnce? (· == '=') (before ++ '=' :: value) = some (before, value) :=
    splitOnce?_append (fun d hd => by simpa using fun h : d = '=' => hb (h ▸ hd)) (by simp)
  simp [read, hsplit, hn]

end Input

end PromptPipeline.CommandLine
