import PromptPipeline.NameSet
import PromptPipeline.Script.JavaScript.Token

/-!
# Names that a JavaScript script declares and reads

A script reads an identifier when it uses it as a value: not as a keyword, a well-known global, a
property, an object key or a callee only, and not if the script declares the name anywhere. The
script is not parsed; what a name is follows from the tokens beside it.
-/

namespace PromptPipeline.JavaScript

/-- The names that every script finds defined. -/
def globals : List String :=
  ["Array", "BigInt", "Boolean", "Date", "Error", "Intl", "JSON", "Map", "Math", "Number",
    "Object", "Promise", "RegExp", "Set", "String", "Symbol", "arguments", "clearTimeout",
    "console", "decodeURI", "decodeURIComponent", "document", "encodeURI",
    "encodeURIComponent", "exports", "globalThis", "isFinite", "isNaN", "module", "parseFloat",
    "parseInt", "process", "require", "setTimeout", "window"]

/-- The keywords that end a list of declarators written without a semicolon. -/
def statementKeywords : List String :=
  ["class", "const", "do", "for", "function", "if", "let", "return", "switch", "throw", "try",
    "var", "while"]

namespace Token

/-- Whether the token is the given punctuation. -/
def isPunctuation (p : Punctuation) : Token → Bool
  | .punctuation q => p == q
  | .identifier _ => false

/-- Whether the token opens a bracket. -/
def opens : Token → Bool
  | .punctuation p => p.opens
  | .identifier _ => false

/-- Whether the token closes a bracket. -/
def closes : Token → Bool
  | .punctuation p => p.closes
  | .identifier _ => false

/-- Whether a name after the token stands where a pattern binds names. -/
def introducesBinding : Token → Bool
  | .punctuation p =>
    match p with
    | .openRound | .comma | .spread | .openCurly | .openSquare | .colon => true
    | _ => false
  | .identifier _ => false

/-- Whether the token is one of the keywords that start a statement. -/
def startsStatement : Token → Bool
  | .identifier name => statementKeywords.contains name
  | .punctuation _ => false

end Token

/-- The tokens up to the bracket that closes the first one, or all of them; `depth` brackets are
open before. -/
def takeGroup (depth : Nat) : List Token → List Token
  | [] => []
  | t :: rest =>
    if t.opens then t :: takeGroup (depth + 1) rest
    else if t.closes then if depth ≤ 1 then [t] else t :: takeGroup (depth - 1) rest
    else t :: takeGroup depth rest

/-- The tokens, read backwards, up to the bracket that opens the first one, or all of them. -/
def takeGroupBack (depth : Nat) : List Token → List Token
  | [] => []
  | t :: rest =>
    if t.closes then t :: takeGroupBack (depth + 1) rest
    else if t.opens then if depth ≤ 1 then [t] else t :: takeGroupBack (depth - 1) rest
    else t :: takeGroupBack depth rest

/-- The names that a parameter list or a pattern binds, from its opening bracket on: those in
binding position that are no keys. Default values bind nothing. -/
def boundNames : List Token → List String
  | previous :: .identifier name :: rest =>
    let isKey := rest.head?.any (·.isPunctuation .colon)
    let names := boundNames (.identifier name :: rest)
    if previous.introducesBinding && !isKey then name :: names else names
  | _ :: rest => boundNames rest
  | [] => []

/-- The names that a declarator binds: a name or a pattern. -/
def declaratorNames : List Token → List String
  | .identifier name :: _ => [name]
  | .punctuation p :: rest =>
    if p = .openCurly ∨ p = .openSquare then boundNames (takeGroup 0 (.punctuation p :: rest))
    else []
  | [] => []

/-- The names that the further declarators of a list bind, after its first token. The list ends at
a semicolon, at a bracket that closes more than was opened, or at a keyword that starts a
statement. -/
def furtherNames (isFirst : Bool) (depth : Nat) : List Token → List String
  | [] => []
  | t :: rest =>
    if t.opens then furtherNames false (depth + 1) rest
    else if t.closes then if depth = 0 then [] else furtherNames false (depth - 1) rest
    else if depth = 0 then
      if t.isPunctuation .semicolon then []
      else if t.isPunctuation .comma then declaratorNames rest ++ furtherNames false depth rest
      else if !isFirst && t.startsStatement then []
      else furtherNames false depth rest
    else furtherNames false depth rest

/-- The names that a parameter list binds, if there is one here. -/
def parameterListNames : List Token → List String
  | .punctuation .openRound :: rest =>
    boundNames (takeGroup 0 (.punctuation .openRound :: rest))
  | _ => []

/-- The names that a token declares, seen with the tokens before it, latest first, and after it. -/
def namesDeclaredAt (before : List Token) (token : Token) (after : List Token) : List String :=
  match token with
  | .identifier word =>
    if word = "const" ∨ word = "let" ∨ word = "var" then
      declaratorNames after ++ furtherNames true 0 after
    else if word = "function" then
      match after with
      | .identifier name :: rest => name :: parameterListNames rest
      | rest => parameterListNames rest
    else if word = "class" then
      match after with
      | .identifier name :: _ => [name]
      | _ => []
    else if word = "catch" then parameterListNames after
    else []
  | .punctuation .arrow =>
    match before with
    | .identifier name :: _ => [name]
    | .punctuation .closeRound :: rest =>
      boundNames (takeGroupBack 0 (.punctuation .closeRound :: rest)).reverse
    | _ => []
  | .punctuation _ => []

/-- The names that the tokens declare, given the tokens before them, latest first. -/
def declaredFrom (before : List Token) : List Token → List String
  | [] => []
  | t :: rest => namesDeclaredAt before t rest ++ declaredFrom (t :: before) rest

/-- The names that a script declares. -/
def declaredNames (ts : List Token) : NameSet :=
  .ofList (declaredFrom [] ts)

/-- Whether an identifier between two tokens is used as a value. -/
def isValueUse (previous next : Option Token) : Bool :=
  let is (p : Punctuation) (t : Option Token) := t.any (·.isPunctuation p)
  let isProperty := is .dot previous
  let isKey := is .colon next && (is .openCurly previous || is .comma previous)
  let isCallee := is .openRound next
  !(isProperty || isKey || isCallee)

/-- The names that are used as values, after the given token. -/
def usedFrom (previous : Option Token) : List Token → List String
  | [] => []
  | .identifier name :: rest =>
    let later := usedFrom (some (.identifier name)) rest
    if !keywords.contains name && !globals.contains name && isValueUse previous rest.head? then
      name :: later
    else later
  | t :: rest => usedFrom (some t) rest

/-- The names that the tokens read without declaring them. -/
def freeNames (ts : List Token) : NameSet :=
  (NameSet.ofList (usedFrom none ts)).diff (declaredNames ts)

end PromptPipeline.JavaScript
