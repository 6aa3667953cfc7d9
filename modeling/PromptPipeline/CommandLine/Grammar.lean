/-!
# Grammars of command lines

The arguments that a command takes: options with a name and perhaps a letter, one operand, and
commands within it, which take the arguments that follow their name. Arguments are read from left
to right, and the first one that does not fit decides (`Grammar.read`). An option and its value are
checked when the next option or operand comes, or at the end.
-/

namespace PromptPipeline.CommandLine

/-- Why arguments are not carried out. -/
inductive UsageFault where
  /-- Help is asked for. -/
  | helpAsked
  /-- The version is asked for. -/
  | versionAsked
  /-- There are no arguments where there must be some. -/
  | noArguments
  /-- There are only options where there must be a command. -/
  | missingCommand
  | unknownCommand (name : String)
  | unknownArgument (text : String)
  | missingOperand (name : String)
  | missingValue (name : String)
  | invalidValue (name value : String)
  /-- A value is given to an option that takes none. -/
  | superfluousValue (name value : String)
  | repeatedOption (name : String)
  deriving DecidableEq

/-- What values an option takes. -/
inductive OptionKind where
  /-- None. -/
  | flag
  /-- One that is not empty. -/
  | path
  /-- One of some words. -/
  | choice (words : List String)
  /-- One each time it is given, which may be often. -/
  | texts
  /-- None: it asks for help. -/
  | help
  /-- None: it asks for the version. -/
  | version
  deriving DecidableEq

/-- Whether an option takes a value. -/
def OptionKind.takesValue : OptionKind → Bool
  | path | choice _ | texts => true
  | flag | help | version => false

/-- An option, or an operand, which has no letter. -/
structure OptionSpec where
  name : String
  letter : Option Char := none
  kind : OptionKind
  deriving DecidableEq

/-- The arguments that a command takes. -/
inductive Grammar where
  | takes (options : List OptionSpec) (operand : Option String) (commands : List (String × Grammar))

/-- What has been read of the arguments of a command. -/
structure Reading where
  /-- The options with their values, in order; flags have empty ones. -/
  given : List (String × String) := []
  /-- The last option with its value, as far as it has come. -/
  pending : Option (OptionSpec × Option String) := none
  hasOperand : Bool := false

namespace Reading

/-- Whether the option was given already. -/
def has (r : Reading) (name : String) : Bool :=
  r.given.any (·.1 == name)

/-- Adds an option that is given only once. -/
def addOnce (r : Reading) (name value : String) : Except UsageFault Reading :=
  if r.has name then .error (.repeatedOption name)
  else .ok { r with given := r.given ++ [(name, value)] }

/-- Checks an option with its value. -/
def accept (r : Reading) (o : OptionSpec) (value : Option String) : Except UsageFault Reading :=
  match o.kind, value with
  | .help, _ => .error .helpAsked
  | .version, _ => .error .versionAsked
  | .flag, _ => r.addOnce o.name ""
  | _, none => .error (.missingValue o.name)
  | .texts, some v => .ok { r with given := r.given ++ [(o.name, v)] }
  | .path, some v => do
    let r ← r.addOnce o.name v
    if v = "" then .error (.missingValue o.name) else .ok r
  | .choice words, some v => do
    let r ← r.addOnce o.name v
    if words.contains v then .ok r else .error (.invalidValue o.name v)

/-- Checks the last option. -/
def settle (r : Reading) : Except UsageFault Reading :=
  match r.pending with
  | none => .ok r
  | some (o, value) => { r with pending := none }.accept o value

/-- Adds an option: its value is there, or it takes none, or the value is still to come. -/
def addOption (r : Reading) (o : OptionSpec) (value : Option String) :
    Except UsageFault Reading := do
  let r ← r.settle
  if value.isNone && o.kind.takesValue then .ok { r with pending := some (o, none) }
  else r.accept o value

end Reading

/-- What arguments come to. -/
structure Arguments where
  /-- The names of the commands, the outer one first. -/
  command : List String
  /-- The options and operands with their values, those of the inner commands first. -/
  given : List (String × String)

namespace Arguments

/-- Whether an option was given. -/
def has (a : Arguments) (name : String) : Bool :=
  a.given.any (·.1 == name)

/-- The value of an option that counts: the one next to the innermost command. -/
def value? (a : Arguments) (name : String) : Option String :=
  a.given.lookup name

/-- All values of an option. -/
def values (a : Arguments) (name : String) : List String :=
  (a.given.filter (·.1 == name)).map (·.2)

end Arguments

namespace Grammar

/-- The options of a command. -/
def options : Grammar → List OptionSpec
  | takes options _ _ => options

/-- The name of the operand of a command, if it takes one. -/
def operand? : Grammar → Option String
  | takes _ operand _ => operand

/-- The commands within a command. -/
def commands : Grammar → List (String × Grammar)
  | takes _ _ commands => commands

/-- The name of the command that gives help about the commands beside it. -/
def helpCommand : String := "help"

/-- The command of the name within a command. -/
def command? (g : Grammar) (name : String) : Option Grammar :=
  match g.commands.lookup name with
  | some inner => some inner
  | none => if g.commands.isEmpty || name ≠ helpCommand then none else some (takes [] none [])

/-- What the command for help comes to, with the names of a command. -/
def helpAbout (g : Grammar) : List String → UsageFault
  | [] => .helpAsked
  | name :: rest =>
    match g.command? name with
    | some inner => helpAbout inner rest
    | none => .unknownCommand name

/-- Reads an option with two dashes, which are gone. -/
def readLong (g : Grammar) (r : Reading) (text : List Char) : Except UsageFault Reading :=
  let name : String := .ofList (text.takeWhile (· ≠ '='))
  let value : Option String :=
    match text.dropWhile (· ≠ '=') with
    | _ :: value => some (.ofList value)
    | [] => none
  match g.options.find? (·.name == name) with
  | none => .error (.unknownArgument ("--" ++ name))
  | some o =>
    match value with
    | some v => if o.kind.takesValue then r.addOption o value else .error (.superfluousValue name v)
    | none => r.addOption o none

/-- Reads the letters of options after one dash. An option that takes a value takes what is left of
the letters. -/
def readLetters (g : Grammar) (r : Reading) : List Char → Except UsageFault Reading
  | [] => .ok r
  | c :: rest =>
    match g.options.find? (·.letter == some c) with
    | none => .error (.unknownArgument (.ofList ['-', c]))
    | some o =>
      if o.kind.takesValue then
        match rest with
        | [] => r.addOption o none
        | '=' :: value | value => r.addOption o (some (.ofList value))
      else do readLetters g (← r.addOption o none) rest

/-- Reads an argument that is neither an option nor its value. -/
def readOperand (g : Grammar) (afterDashes : Bool) (r : Reading) (text : String) :
    Except UsageFault Reading :=
  match g.operand? with
  | some name =>
    if r.hasOperand then .error (.unknownArgument text)
    else do
      let r ← r.settle
      .ok { r with pending := some (⟨name, none, .path⟩, some text), hasOperand := true }
  | none =>
    if g.commands.isEmpty || (afterDashes && (g.command? text).isSome) then
      .error (.unknownArgument text)
    else .error (.unknownCommand text)

/-- What the arguments of a command come to when there are no more. -/
def finish (g : Grammar) (r : Reading) : Except UsageFault Arguments := do
  let r ← r.settle
  if !g.commands.isEmpty then
    .error (if r.given = [] then .noArguments else .missingCommand)
  else
    match g.operand? with
    | some name => if r.hasOperand then .ok ⟨[], r.given⟩ else .error (.missingOperand name)
    | none => .ok ⟨[], r.given⟩

/-- Reads the arguments of a command. After two dashes there are only operands. -/
def readFrom (g : Grammar) (afterDashes : Bool) (r : Reading) :
    List String → Except UsageFault Arguments
  | [] => g.finish r
  | text :: rest =>
    if afterDashes then do readFrom g true (← g.readOperand true r text) rest
    else
      let awaiting : Option OptionSpec :=
        match r.pending with
        | some (o, none) => some o
        | _ => none
      match if awaiting.isSome then none else g.command? text with
      | some inner =>
        if text = helpCommand then .error (g.helpAbout rest)
        else do
          let arguments ← readFrom inner false {} rest
          let r ← r.settle
          .ok ⟨text :: arguments.command, arguments.given ++ r.given⟩
      | none =>
        match text.toList with
        | ['-', '-'] => readFrom g true r rest
        | '-' :: '-' :: long => do readFrom g false (← g.readLong r long) rest
        | '-' :: c :: letters => do readFrom g false (← g.readLetters r (c :: letters)) rest
        | _ =>
          match awaiting with
          | some o => readFrom g false { r with pending := some (o, some text) } rest
          | none => do readFrom g false (← g.readOperand false r text) rest

/-- Reads arguments. -/
def read (g : Grammar) (arguments : List String) : Except UsageFault Arguments :=
  g.readFrom false {} arguments

end Grammar

end PromptPipeline.CommandLine
