import PromptPipeline.Name
import PromptPipeline.Text.Line

/-!
# Words of the shell

The tokens of a shell script: words, each with its quoted and unquoted parts and its expansions,
redirections and operators.
-/

namespace PromptPipeline.Shell

open Text

/-- What is put in the place of a parameter that has no value, or one that has. -/
inductive Default where
  /-- `:-`, the word for a parameter that is not set or is empty. -/
  | ifEmpty (word : List Char)
  /-- `-`, the word for a parameter that is not set. -/
  | ifUnset (word : List Char)
  /-- `:+`, the word for a parameter that has a value. -/
  | ifPresent (word : List Char)
  deriving DecidableEq

/-- What is expanded in a word. -/
inductive Expansion where
  | parameter (name : String) (default : Option Default)
  /-- The length of the value of a parameter. -/
  | length (name : String)
  | arithmetic (expression : List Char)
  /-- The output of a script. -/
  | command (script : List Char)
  deriving DecidableEq

/-- A part of a word. -/
inductive WordPart where
  | text (chars : List Char) (isQuoted : Bool)
  | expand (expansion : Expansion) (isQuoted : Bool)
  deriving DecidableEq

/-- A word by its parts. -/
abbrev Word := List WordPart

/-- Where a redirection leads. -/
inductive Target where
  /-- Another stream, by its number. -/
  | stream (number : Nat)
  | file (path : Word)
  deriving DecidableEq

/-- A redirection of a stream. -/
structure Redirection where
  stream : Nat
  target : Target
  deriving DecidableEq

/-- A token of a script. -/
inductive Symbol where
  | word (w : Word)
  | redirect (stream : Nat) (isOutput : Bool)
  | redirectTo (stream target : Nat)
  | operator (name : String)
  deriving DecidableEq

/-- The text up to the bracket that closes one which is open, and what follows it. -/
def takeClosed (opening closing : Char) : (depth : Nat) → List Char →
    Option (List Char × List Char)
  | _, [] => none
  | depth, c :: rest =>
    if c = closing then
      match depth with
      | 0 => some ([], rest)
      | depth + 1 => (takeClosed opening closing depth rest).map fun (a, b) => (c :: a, b)
    else
      (takeClosed opening closing (if c = opening then depth + 1 else depth) rest).map
        fun (a, b) => (c :: a, b)

/-- The characters that can start a name. -/
def startsName (c : Char) : Bool :=
  c.isAlpha || c == '_'

/-- The characters that can stand in a name. -/
def continuesName (c : Char) : Bool :=
  c.isAlphanum || c == '_'

/-- The parameters whose name is one mark. -/
def isSpecial (c : Char) : Bool :=
  c.isDigit || "?#$!@*-".toList.contains c

/-- The expansion that is written between braces. -/
def Expansion.ofBraces (inner : List Char) : Expansion :=
  match inner with
  | '#' :: name@(_ :: _) => .length (.ofList name)
  | _ =>
    let name := inner.takeWhile continuesName
    let default :=
      match inner.dropWhile continuesName with
      | ':' :: '-' :: word => some (Default.ifEmpty word)
      | '-' :: word => some (.ifUnset word)
      | ':' :: '+' :: word => some (.ifPresent word)
      | _ => none
    .parameter (.ofList name) default

/-- The expansion after a dollar sign, if there is one, and what follows it. -/
def expansionAt? : List Char → Option (Expansion × List Char)
  | '(' :: '(' :: rest => do
    let (inner, rest) ← takeClosed '(' ')' 0 rest
    match rest with
    | ')' :: rest => some (.arithmetic inner, rest)
    | _ => none
  | '(' :: rest => (takeClosed '(' ')' 0 rest).map fun (inner, rest) => (.command inner, rest)
  | '\x7b' :: rest =>
    (takeClosed '\x7b' '\x7d' 0 rest).map fun (inner, rest) => (.ofBraces inner, rest)
  | c :: rest =>
    if startsName c then
      some (.parameter (.ofList (c :: rest.takeWhile continuesName)) none,
        rest.dropWhile continuesName)
    else if isSpecial c then some (.parameter c.toString none, rest)
    else none
  | [] => none

/-- The characters that a backslash takes their meaning from, between double quotes. -/
def isEscapable (c : Char) : Bool :=
  "$\x60\"\\".toList.contains c

/-- The parts of a word between double quotes, and what follows the closing one. -/
def readDouble : (fuel : Nat) → List Char → Option (Word × List Char)
  | 0, _ => none
  | _, [] => none
  | fuel + 1, c :: rest =>
    let more (part : WordPart) (rest : List Char) : Option (Word × List Char) :=
      (readDouble fuel rest).map fun (parts, rest) => (part :: parts, rest)
    match c, rest with
    | '"', _ => some ([.text [] true], rest)
    | '\\', d :: rest =>
      if d = '\n' then more (.text [] true) rest
      else more (.text (if isEscapable d then [d] else ['\\', d]) true) rest
    | '\x60', _ => do
      let (script, rest) ← splitOnce? (· == '\x60') rest
      more (.expand (.command script) true) rest
    | '$', _ =>
      match expansionAt? rest with
      | some (expansion, rest) => more (.expand expansion true) rest
      | none => more (.text ['$'] true) rest
    | _, _ => more (.text [c] true) rest

/-- Whether the character ends a word. -/
def endsWord (c : Char) : Bool :=
  " \t\n;&|<>()".toList.contains c

/-- The word at the start of a text, and what follows it. -/
def readWord : (fuel : Nat) → List Char → Option (Word × List Char)
  | 0, _ => none
  | _, [] => some ([], [])
  | fuel + 1, c :: rest =>
    let more (part : Word) (rest : List Char) : Option (Word × List Char) :=
      (readWord fuel rest).map fun (parts, rest) => (part ++ parts, rest)
    match c, rest with
    | '\x27', _ => do
      let (text, rest) ← splitOnce? (· == '\x27') rest
      more [.text text true] rest
    | '"', _ => do
      let (parts, rest) ← readDouble fuel rest
      more parts rest
    | '\\', '\n' :: rest => more [] rest
    | '\\', d :: rest => more [.text [d] true] rest
    | '\x60', _ => do
      let (script, rest) ← splitOnce? (· == '\x60') rest
      more [.expand (.command script) false] rest
    | '$', _ =>
      match expansionAt? rest with
      | some (expansion, rest) => more [.expand expansion false] rest
      | none => more [.text ['$'] false] rest
    | _, _ => if endsWord c then some ([], c :: rest) else more [.text [c] false] rest

/-- A redirection after the number of its stream, and what follows it. -/
def redirectionAt? (stream : Option Nat) : List Char → Option (Symbol × List Char)
  | '>' :: '&' :: d :: rest =>
    if d.isDigit then some (.redirectTo (stream.getD 1) (d.toNat - '0'.toNat), rest) else none
  | '>' :: '>' :: rest | '>' :: rest => some (.redirect (stream.getD 1) true, rest)
  | '<' :: rest => some (.redirect (stream.getD 0) false, rest)
  | _ => none

/-- The operators, longer ones first. -/
def operators : List String :=
  ["&&", "||", ";;", ";", "&", "|", "(", ")", "\n"]

/-- The operator at the start of a text, and what follows it. -/
def operatorAt? (s : List Char) : Option (Symbol × List Char) :=
  operators.findSome? fun name => (dropStart? name.toList s).map fun rest => (.operator name, rest)

/-- The tokens of a script, unless a quotation or a bracket stays open. -/
def symbols : (fuel : Nat) → List Char → Option (List Symbol)
  | 0, _ => none
  | _, [] => some []
  | fuel + 1, c :: rest =>
    if c = ' ' ∨ c = '\t' then symbols fuel rest
    else if c = '#' then symbols fuel (rest.dropWhile (· ≠ '\n'))
    else
      let numbered : Option (Symbol × List Char) :=
        if c.isDigit then redirectionAt? (some (c.toNat - '0'.toNat)) rest else none
      match numbered <|> redirectionAt? none (c :: rest) <|> operatorAt? (c :: rest) with
      | some (symbol, rest) => (symbols fuel rest).map (symbol :: ·)
      | none => do
        let (w, rest) ← readWord fuel (c :: rest)
        (symbols fuel rest).map (.word w :: ·)

/-- The characters of a word without quotes and expansions. -/
def plainText? : Word → Option (List Char)
  | [] => some []
  | .text chars false :: rest => (plainText? rest).map (chars ++ ·)
  | _ => none

/-- The word if it is written without quotes and expansions. -/
def Word.plain? (w : Word) : Option String :=
  (plainText? w).map .ofList

end PromptPipeline.Shell
