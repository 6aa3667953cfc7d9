import PromptPipeline.Error
import PromptPipeline.Name
import PromptPipeline.Text.Fold

/-!
# Commands

Every list item of a source is one command. A command has one of eleven forms (`Form`); the forms
are tried in a fixed order, and keywords match in any case.
-/

namespace PromptPipeline

open Text

/-- A requirement on the model of a task. -/
inductive ModelCommand where
  | variant (variant : ModelVariant)
  | name (name : String)
  | maxTokens (count : Amount)
  deriving DecidableEq

/-- The keyword of the requirement, which may stand once in a section. -/
def ModelCommand.keyword : ModelCommand → String
  | .variant _ => "MODEL VARIANT"
  | .name _ => "MODEL NAME"
  | .maxTokens _ => "MODEL MAX TOKENS"

/-- The declaration of a parameter. -/
structure Declaration where
  name : String
  description : Option String
  isInput : Bool
  isOutput : Bool
  deriving DecidableEq

/-- What a list item asks for. -/
inductive Command where
  | pipelineUrl (url : String)
  | dialectVersion (version : String)
  | execute (type : ExecutionType)
  | model (model : ModelCommand)
  | joker (parameter : String)
  | parameter (declaration : Declaration)
  | postprocess (function : String)
  | expect (expectation : Expectation)
  deriving DecidableEq

/-- Where a command may stand. -/
inductive CommandScope where
  | header
  | task
  | anywhere
  deriving DecidableEq

namespace Command

/-- Where the command may stand. -/
def scope : Command → CommandScope
  | pipelineUrl _ | dialectVersion _ => .header
  | execute _ | joker _ | postprocess _ | expect _ => .task
  | model _ | parameter _ => .anywhere

/-- The keyword that messages use for the command. -/
def keyword : Command → String
  | pipelineUrl _ => "PIPELINE URL"
  | dialectVersion _ => "PROMPTBOOK VERSION"
  | execute _ => "EXECUTE"
  | model m => m.keyword
  | joker _ => "JOKER"
  | parameter _ => "PARAMETER"
  | postprocess _ => "POSTPROCESSING"
  | expect _ => "EXPECT"

end Command

/-- The eleven forms of a command, in the order in which they are tried. -/
inductive Form where
  | pipelineUrl
  | dialectVersion
  | execute
  | modelVariant
  | modelName
  | modelMaxTokens
  | joker
  | parameter
  | postprocess
  | expectAmount
  | expectFormat
  deriving DecidableEq

/-- All forms, in the order in which they are tried. -/
def Form.all : List Form :=
  [.pipelineUrl, .dialectVersion, .execute, .modelVariant, .modelName, .modelMaxTokens, .joker,
    .parameter, .postprocess, .expectAmount, .expectFormat]

/-- The name of a parameter that stands between braces. -/
def parameterName (text : List Char) : Except DialectFault String :=
  let name := trim text
  if Name.isParameter name then .ok (.ofList name)
  else .error (.invalidParameterName (.ofList name))

/-- The number that digits spell, after an optional plus sign, if it fits 32 bits. -/
def amountOfText? (text : List Char) : Option Amount :=
  let ds :=
    match text with
    | '+' :: rest => rest
    | _ => text
  if ds ≠ [] ∧ ds.all Char.isDigit then
    let n := ds.foldl (fun n d => n * 10 + (d.toNat - '0'.toNat)) 0
    if n < UInt32.size then some (.ofNat n) else none
  else none

/-- The amount that a word spells. -/
def amountOfText (text : List Char) : Except DialectFault Amount :=
  match amountOfText? text with
  | some n => .ok n
  | none => .error (.invalidAmount (.ofList text))

/-- The unit that a word names, in the singular or the plural. -/
def unitOfText (text : List Char) : Except DialectFault TextUnit :=
  let small := (smallLetters text).toList
  let singular := (dropEnd? ['s'] small).getD small
  match String.ofList singular with
  | "character" | "char" => .ok .characters
  | "word" => .ok .words
  | "sentence" => .ok .sentences
  | "line" => .ok .lines
  | "paragraph" => .ok .paragraphs
  | "page" => .ok .pages
  | _ => .error (.unknownUnit (.ofList text))

/-- The digits at the start of a text, of any script, and the rest. -/
def spanDigits (s : List Char) : List Char × List Char :=
  (s.takeWhile isDecimalDigit, s.dropWhile isDecimalDigit)

/-- Whether the character may stand in the last part of a version. -/
def isLabelChar (c : Char) : Bool :=
  c.isAlphanum || c == '.' || c == '-'

/-- Whether the text is three numbers with points between them and perhaps a dash and a label. -/
def isVersion (s : List Char) : Bool :=
  match spanDigits s with
  | (_ :: _, '.' :: rest) =>
    match spanDigits rest with
    | (_ :: _, '.' :: rest) =>
      match spanDigits rest with
      | (_ :: _, []) => true
      | (_ :: _, '-' :: label) => label ≠ [] && label.all isLabelChar
      | _ => false
    | _ => false
  | _ => false

/-- The command that sets the identity of the pipeline. -/
def urlCommand (url : List Char) : Except DialectFault Command :=
  if !"https://".toList.isPrefixOf url then .error (.insecureUrl (.ofList url))
  else if url.contains '#' then .error (.urlWithFragment (.ofList url))
  else .ok (.pipelineUrl (.ofList url))

/-- The command that sets the version of the dialect. -/
def versionCommand (version : List Char) : Except DialectFault Command :=
  if isVersion version then .ok (.dialectVersion (.ofList version))
  else .error (.invalidVersion (.ofList version))

/-- Whether the words name an execution type. -/
def namesExecutionType : List (List Char) → Bool
  | [a] => spells "SCRIPT" a
  | [a, b] =>
    (spellsAny ["PROMPT", "SIMPLE"] a && spells "TEMPLATE" b) ||
      (spells "PROMPT" a && spells "DIALOG" b)
  | _ => false

/-- The execution type that words name. Templates and scripts are told by their ASCII letters, and
whatever else the words may be is a dialog. -/
def executionTypeOfWords (kind : List (List Char)) : ExecutionType :=
  match kind.map capitals with
  | ["PROMPT", "TEMPLATE"] => .promptTemplate
  | ["SIMPLE", "TEMPLATE"] => .simpleTemplate
  | ["SCRIPT"] => .script
  | _ => .promptDialog

/-- The command that limits the length of an answer. -/
def maxTokensCommand (text : List Char) : Except DialectFault Command := do
  let n ← amountOfText text
  if n = 0 then .error .zeroMaxTokens else .ok (.model (.maxTokens n))

/-- The sign that a word names. -/
def signOfWord (word : List Char) : Sign :=
  match capitals word with
  | "EXACTLY" => .exactly
  | "MIN" | "MINIMUM" => .minimum
  | _ => .maximum

/-- The command that expects an amount. -/
def amountCommand (sign text unit : List Char) : Except DialectFault Command := do
  let n ← amountOfText text
  let u ← unitOfText unit
  .ok (.expect (.amount (signOfWord sign) u n))

/-- The text in the braces at the start of a text, and the rest after them. -/
def bracedText? : List Char → Option (List Char × List Char)
  | '\x7b' :: rest => splitOnce? (· == '\x7d') rest
  | _ => none

/-- The name in a joker command. -/
def jokerText? (item : List Char) : Option (List Char) := do
  let (word, rest) ← firstWord? item
  if spells "JOKER" word then
    match ← bracedText? rest with
    | (name, []) => some name
    | _ => none
  else none

/-- The facets before the keyword of a declaration, and the text from the keyword on. -/
def facetsOfItem? (item : List Char) : Option (Bool × Bool × List Char) := do
  let (word, rest) ← firstWord? item
  if spells "INPUT" word then
    let (second, rest') ← firstWord? rest
    if spells "OUTPUT" second then some (true, true, rest') else some (true, false, rest)
  else if spells "OUTPUT" word then some (false, true, rest)
  else some (false, false, item)

/-- The parts of a declaration: whether it is an input, whether it is an output, the text in its
braces and the rest of the line. -/
def declarationParts? (item : List Char) : Option (Bool × Bool × List Char × List Char) := do
  let (isInput, isOutput, rest) ← facetsOfItem? item
  let (word, rest) ← firstWord? rest
  if spellsAny ["PARAM", "PARAMETER"] word then
    let (name, rest) ← bracedText? rest
    let rest := trimStart rest
    if rest.contains '\n' then none else some (isInput, isOutput, name, rest)
  else none

/-- The description after a declaration: without the dashes or colons that introduce it. -/
def descriptionOfText (text : List Char) : Option String :=
  let description := trim ((trim text).dropWhile fun c => c == '-' || c == ':')
  if description = [] then none else some (.ofList description)

/-- The command of a declaration. -/
def declarationCommand (parts : Bool × Bool × List Char × List Char) :
    Except DialectFault Command := do
  let (isInput, isOutput, text, rest) := parts
  let name ← parameterName text
  .ok (.parameter ⟨name, descriptionOfText rest, isInput, isOutput⟩)

/-- Reads a list item without surrounding white space in one of the forms; nothing if it does not
have the form. -/
def Form.read? (form : Form) (item : List Char) : Option (Except DialectFault Command) :=
  match form, words item with
  | .pipelineUrl, [a, b, url] =>
    if spellsAny ["PIPELINE", "PROMPTBOOK"] a && spells "URL" b then some (urlCommand url) else none
  | .dialectVersion, [a, b, version] =>
    if spellsAny ["PROMPTBOOK", "PTBK"] a && spells "VERSION" b then
      some (versionCommand version)
    else none
  | .execute, first :: rest =>
    if spells "EXECUTE" first && namesExecutionType rest then
      some (.ok (.execute (executionTypeOfWords rest)))
    else if namesExecutionType (first :: rest) then
      some (.ok (.execute (executionTypeOfWords (first :: rest))))
    else none
  | .modelVariant, [a, b, variant] =>
    if spells "MODEL" a && spells "VARIANT" b then
      if spells "CHAT" variant then some (.ok (.model (.variant .chat)))
      else if spells "COMPLETION" variant then some (.ok (.model (.variant .completion)))
      else none
    else none
  | .modelName, [a, b, name] =>
    if spells "MODEL" a && spells "NAME" b then some (.ok (.model (.name (.ofList name))))
    else none
  | .modelMaxTokens, [a, b, c, count] =>
    if spells "MODEL" a && spells "MAX" b && spells "TOKENS" c then some (maxTokensCommand count)
    else none
  | .joker, _ => (jokerText? item).map fun text => (parameterName text).map .joker
  | .parameter, _ => (declarationParts? item).map declarationCommand
  | .postprocess, [a, function] =>
    if spellsAny ["POSTPROCESS", "POSTPROCESSING"] a then
      some (.ok (.postprocess (.ofList function)))
    else none
  | .expectAmount, [a, sign, amount, unit] =>
    if spells "EXPECT" a && spellsAny ["EXACTLY", "MIN", "MINIMUM", "MAX", "MAXIMUM"] sign &&
        unit.all foldsToLetter then
      some (amountCommand sign amount unit)
    else none
  | .expectFormat, [a, b] =>
    if spells "EXPECT" a && spells "JSON" b then some (.ok (.expect (.format .json))) else none
  | .expectFormat, [a, b, c] =>
    if spells "EXPECT" a && spells "FORMAT" b && spells "JSON" c then
      some (.ok (.expect (.format .json)))
    else none
  | _, _ => none

/-- The command of a list item. -/
def Command.ofItem (item : String) : Except DialectFault Command :=
  let text := trim item.toList
  (Form.all.findSome? (·.read? text)).getD (.error (.unknownCommand (.ofList text)))

/-- The command of the list item on a line. -/
def Command.parse (item : String) (line : Nat) : Result Command :=
  (Command.ofItem item).mapError (.dialect line)

end PromptPipeline
