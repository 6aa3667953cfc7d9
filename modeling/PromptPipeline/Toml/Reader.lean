import PromptPipeline.Toml.Atom
import PromptPipeline.Toml.Quoted
import PromptPipeline.Toml.Table

/-!
# Reading TOML

Reads a TOML document: its lines one by one (`readEntries`), and the table that they build up. A
document is refused when a line breaks the grammar, when a key is given a value or a header twice,
when a number is out of range, and when values are nested, or keys dotted, more than 79 deep.
-/

namespace PromptPipeline.Toml

/-- How deep values may be nested, and how many parts a key may have. -/
def maxDepth : Nat := 79

/-- The text from the next character on that is no blank of the line. -/
def skipGap (s : List Char) : List Char :=
  s.dropWhile isGap

/-- The text after a comment, if there is one. -/
def skipComment : List Char → List Char
  | '#' :: rest => rest.dropWhile isTextChar
  | s => s

/-- The text after the end of a line on which only a comment may be left. The end of the text ends a
line, too. -/
def endLine? (s : List Char) : Option (List Char) :=
  match skipComment (skipGap s) with
  | [] => some []
  | rest => afterLineEnd? rest

/-- The text without the blanks, line ends and comments at its start. -/
def skipAround : (fuel : Nat) → List Char → List Char
  | 0, s => s
  | fuel + 1, s =>
    match skipEmptyLines s with
    | '#' :: rest => skipAround fuel (skipComment ('#' :: rest))
    | rest => rest

/-! ## Keys -/

/-- Whether the character may stand in a key without quotes. -/
def isKeyChar (c : Char) : Bool :=
  c.isAlphanum || c == '_' || c == '-'

/-- Reads one part of a key. -/
def readPart (s : List Char) : Option (String × List Char) :=
  match s with
  | '"' :: _ | '\x27' :: _ => readKeyString s
  | _ =>
    let word := s.takeWhile isKeyChar
    if word = [] then none else some (.ofList word, s.dropWhile isKeyChar)

/-- Reads the parts of a key, which have points between them: the first ones and the last. The
blanks around the parts are skipped. -/
def readParts : (fuel : Nat) → List Char → Option (List String × String × List Char)
  | 0, _ => none
  | fuel + 1, s => do
    let (part, rest) ← readPart (skipGap s)
    match skipGap rest with
    | '.' :: rest =>
      let (path, last, rest) ← readParts fuel rest
      some (part :: path, last, rest)
    | rest => some ([], part, rest)

/-- Reads a key. -/
def readKey (s : List Char) : Option (List String × String × List Char) :=
  readParts maxDepth s

/-! ## Values -/

mutual

/-- Reads a value; `depth` more arrays or tables may be opened. -/
def readValue : (fuel depth : Nat) → List Char → Option (Toml × List Char)
  | 0, _, _ => none
  | fuel + 1, depth, s =>
    match s with
    | '"' :: _ | '\x27' :: _ => (readString s).map fun (text, rest) => (.string text, rest)
    | '[' :: rest =>
      match depth with
      | 0 => none
      | depth + 1 => (readItems fuel depth rest).map fun (items, rest) => (.array items, rest)
    | '\x7b' :: rest =>
      match depth with
      | 0 => none
      | depth + 1 =>
        match skipGap rest with
        | '\x7d' :: rest => some (.table [], rest)
        | rest =>
          (readMembers fuel depth [] rest).map fun (members, rest) =>
            (.table (membersToToml members), rest)
    | _ => readAtom s

/-- Reads the items of an array up to its closing bracket, which may follow a comma. -/
def readItems : (fuel depth : Nat) → List Char → Option (List Toml × List Char)
  | 0, _, _ => none
  | fuel + 1, depth, s =>
    match skipAround s.length s with
    | ']' :: rest => some ([], rest)
    | s => do
      let (item, rest) ← readValue fuel depth s
      match skipAround rest.length rest with
      | ',' :: rest => (readItems fuel depth rest).map fun (items, rest) => (item :: items, rest)
      | ']' :: rest => some ([item], rest)
      | _ => none

/-- Reads the members of a table on one line up to its closing brace, after those that have been
read. -/
def readMembers : (fuel depth : Nat) → Members → List Char → Option (Members × List Char)
  | 0, _, _, _ => none
  | fuel + 1, depth, members, s => do
    let (path, key, rest) ← readKey s
    match rest with
    | '=' :: rest =>
      let (value, rest) ← readValue fuel depth (skipGap rest)
      let members ← assign? true key value path members
      match skipGap rest with
      | ',' :: rest => readMembers fuel depth members rest
      | '\x7d' :: rest => some (members, rest)
      | _ => none
    | _ => none

end

/-! ## Documents -/

/-- What a line of a document says. -/
inductive Entry where
  /-- A key of the open table has a value. -/
  | value (path : List String) (key : String) (v : Toml)
  /-- A table is opened. -/
  | table (path : List String) (key : String)
  /-- One more table of an array is opened. -/
  | element (path : List String) (key : String)

/-- Reads a line that has an entry. -/
def readEntry (s : List Char) : Option (Entry × List Char) :=
  match s with
  | '[' :: '[' :: rest => do
    let (path, key, rest) ← readKey rest
    match rest with
    | ']' :: ']' :: rest => (endLine? rest).map (.element path key, ·)
    | _ => none
  | '[' :: rest => do
    let (path, key, rest) ← readKey rest
    match rest with
    | ']' :: rest => (endLine? rest).map (.table path key, ·)
    | _ => none
  | _ => do
    let (path, key, rest) ← readKey s
    match rest with
    | '=' :: rest =>
      let (v, rest) ← readValue (2 * rest.length + 2) maxDepth (skipGap rest)
      (endLine? rest).map (.value path key v, ·)
    | _ => none

/-- Reads the entries of a document. -/
def readEntries : (fuel : Nat) → List Char → Option (List Entry)
  | 0, _ => none
  | fuel + 1, s =>
    match skipGap s with
    | [] => some []
    | s =>
      match endLine? s with
      | some rest => readEntries fuel rest
      | none => do
        let (entry, rest) ← readEntry s
        (readEntries fuel rest).map (entry :: ·)

/-- The members of a document with one more entry; `header` leads to the open table. -/
def addEntry? (header : List String) (members : Members) :
    Entry → Option (List String × Members)
  | .value path key v => (within? (assign? true key v path) header members).map (header, ·)
  | .table path key => (within? (openTable? key) path members).map (path ++ [key], ·)
  | .element path key => (within? (openElement? key) path members).map (path ++ [key], ·)

/-- The members that entries build up. -/
def membersOf? (header : List String) (members : Members) : List Entry → Option Members
  | [] => some members
  | entry :: rest => do
    let (header, members) ← addEntry? header members entry
    membersOf? header members rest

/-- The text after a mark that tells the order of bytes. -/
def skipByteOrderMark : List Char → List Char
  | '\uFEFF' :: rest => rest
  | s => s

/-- The table that a document stands for. -/
def read? (s : List Char) : Option Toml := do
  let s := skipByteOrderMark s
  let members ← membersOf? [] [] (← readEntries (s.length + 1) s)
  some (.table (membersToToml members))

end PromptPipeline.Toml
