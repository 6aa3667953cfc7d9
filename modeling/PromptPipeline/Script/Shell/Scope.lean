import PromptPipeline.Name
import PromptPipeline.NameSet
import PromptPipeline.Text.Blank
import PromptPipeline.Text.Letter
import PromptPipeline.Text.Line

/-!
# Names that a shell script assigns and reads

A script reads the names that follow a dollar sign outside single quotes and comments. Names
without a small letter belong to the environment, and names that the script assigns are its own.
Assignments are found by their form alone, wherever they stand.
-/

namespace PromptPipeline.Shell

open Text

/-- The variable name at the start of a text, and the rest after it. -/
def nameAt? (s : List Char) : Option (List Char × List Char) :=
  let name := s.takeWhile Name.isParameterPart
  if Name.isParameter name then some (name, s.dropWhile Name.isParameterPart) else none

/-- The text after at least one white space character and all that follow. -/
def afterBlanks? : List Char → Option (List Char)
  | c :: rest => if isBlank c then some (trimStart rest) else none
  | [] => none

/-- The text after options such as `-r`, each followed by white space. -/
def afterOptions : (fuel : Nat) → List Char → List Char
  | fuel + 1, '-' :: rest =>
    if (rest.takeWhile isWordChar) = [] then '-' :: rest
    else
      match afterBlanks? (rest.dropWhile isWordChar) with
      | some after => afterOptions fuel after
      | none => '-' :: rest
  | _, s => s

/-- The text after a word that introduces an assignment, if one starts here. -/
def afterDeclarationWord? (s : List Char) : Option (List Char) :=
  let after (word : String) := (dropStart? word.toList s).bind afterBlanks?
  match after "export" with
  | some rest => some rest
  | none =>
    match after "local" with
    | some rest => some rest
    | none =>
      match after "readonly" with
      | some rest => some rest
      | none => (after "declare").map fun rest => afterOptions rest.length rest

/-- The name that a text assigns at its start, and the rest after the equals sign. -/
def plainAssignment? (s : List Char) : Option (List Char × List Char) :=
  match nameAt? s with
  | some (name, '=' :: rest) => some (name, rest)
  | _ => none

/-- The name that a text assigns at its start, perhaps after a word that declares it. -/
def assignmentAt? (s : List Char) : Option (List Char × List Char) :=
  match (afterDeclarationWord? s).bind plainAssignment? with
  | some found => some found
  | none => plainAssignment? s

/-- Whether the character separates an assignment from what stands before it. -/
def separatesCommands (c : Char) : Bool :=
  isBlank c || c == ';' || c == '&' || c == '|' || c == '('

/-- The assignment that starts here: at the start of a line, or after a separator. -/
def assignmentHere? (atLineStart : Bool) (s : List Char) : Option (List Char × List Char) :=
  let direct := if atLineStart then assignmentAt? s else none
  match direct, s with
  | some found, _ => some found
  | none, c :: rest => if separatesCommands c then assignmentAt? rest else none
  | none, [] => none

/-- The names assigned by the assignments of a text, which do not overlap. -/
def assignedFrom : (fuel : Nat) → (atLineStart : Bool) → List Char → List String
  | 0, _, _ => []
  | fuel + 1, atLineStart, s =>
    match assignmentHere? atLineStart s with
    | some (name, rest) => .ofList name :: assignedFrom fuel false rest
    | none =>
      match s with
      | [] => []
      | c :: rest => assignedFrom fuel (c == '\n') rest

/-- Whether a word ends before a text. -/
def wordEndsBefore (s : List Char) : Bool :=
  !s.head?.any isWordChar

/-- The name that a loop or a read command at the start of a text binds, and the rest after it. -/
def boundAt? (s : List Char) : Option (List Char × List Char) :=
  match (dropStart? "for".toList s).bind afterBlanks? with
  | some afterFor => do
    let (name, rest) ← nameAt? afterFor
    let rest ← afterBlanks? rest
    let rest ← dropStart? "in".toList rest
    if wordEndsBefore rest then some (name, rest) else none
  | none => do
    let afterRead ← (dropStart? "read".toList s).bind afterBlanks?
    nameAt? (afterOptions afterRead.length afterRead)

/-- The names bound by the loops and read commands of a text, which start at a word boundary and
do not overlap. -/
def boundFrom : (fuel : Nat) → (inWord : Bool) → List Char → List String
  | 0, _, _ => []
  | fuel + 1, inWord, s =>
    match if inWord then none else boundAt? s with
    | some (name, rest) =>
      let inWord := true
      .ofList name :: boundFrom fuel inWord rest
    | none =>
      match s with
      | [] => []
      | c :: rest => boundFrom fuel (isWordChar c) rest

/-- The names that a script assigns. -/
def assignedNames (script : List Char) : NameSet :=
  (NameSet.ofList (assignedFrom (script.length + 1) true script)).union
    (.ofList (boundFrom (script.length + 1) false script))

/-- The name referred to after a dollar sign, if there is one, and the rest after it. -/
def referenceAfterDollar (s : List Char) : Option (List Char) × List Char :=
  let body :=
    match s with
    | '\x7b' :: '#' :: rest => rest
    | '\x7b' :: '!' :: rest => rest
    | '\x7b' :: rest => rest
    | _ => s
  match nameAt? body with
  | some (name, rest) => (some name, rest)
  | none => (none, body)

/-- The last character of the part of a text before its rest. -/
def lastBefore (s rest : List Char) : Option Char :=
  (s.take (s.length - rest.length)).getLast?

/-- The names referred to in a text, after the given character. -/
def referencedFrom : (fuel : Nat) → (previous : Option Char) → (inDouble : Bool) →
    List Char → List String
  | 0, _, _, _ => []
  | _, _, _, [] => []
  | fuel + 1, previous, inDouble, c :: rest =>
    let atWordStart := previous.all fun p => isBlank p || p == ';'
    if c = '\\' then referencedFrom fuel rest.head? inDouble rest.tail
    else if c = '\x27' ∧ !inDouble then
      referencedFrom fuel (some '\x27') inDouble (rest.dropWhile (· ≠ '\x27')).tail
    else if c = '"' then referencedFrom fuel (some '"') (!inDouble) rest
    else if c = '#' ∧ !inDouble ∧ atWordStart then
      referencedFrom fuel (some '#') inDouble (rest.dropWhile (· ≠ '\n'))
    else if c = '$' then
      let (name, after) := referenceAfterDollar rest
      let later := referencedFrom fuel (lastBefore (c :: rest) after) inDouble after
      match name with
      | some name => .ofList name :: later
      | none => later
    else referencedFrom fuel (some c) inDouble rest

/-- The names that a script reads without assigning them. -/
def freeNames (script : List Char) : NameSet :=
  let referenced := NameSet.ofList (referencedFrom (script.length + 1) none false script)
  (referenced.filter fun name => name.toList.any Char.isLower).diff (assignedNames script)

end PromptPipeline.Shell
