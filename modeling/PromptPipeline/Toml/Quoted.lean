import PromptPipeline.Decimal.Numeral

/-!
# Quoted strings of TOML

Strings between quotation marks, with escapes, and between apostrophes, without. A mark that stands
three times encloses a string of several lines, in which a line ends with a line feed alone.
-/

namespace PromptPipeline.Toml

open Decimal

/-- Whether a character may stand in a string or comment as it is: the tab is the only control
character that may. -/
def isTextChar (c : Char) : Bool :=
  c == '\t' || (0x20 ≤ c.toNat && c.toNat ≠ 0x7F)

/-- Spaces and tabs separate the parts of a line. -/
def isGap (c : Char) : Bool :=
  c == ' ' || c == '\t'

/-- The text after the end of a line, if it starts with one. -/
def afterLineEnd? : List Char → Option (List Char)
  | '\n' :: rest => some rest
  | '\r' :: '\n' :: rest => some rest
  | _ => none

/-- The text without the blanks and line ends at its start. -/
def skipEmptyLines : List Char → List Char
  | [] => []
  | '\r' :: '\n' :: rest => skipEmptyLines rest
  | c :: rest => if isGap c || c == '\n' then skipEmptyLines rest else c :: rest

/-! ## Escapes -/

/-- The character with that many hexadecimal digits as its code. -/
def readCode (width : Nat) (s : List Char) : Option (Char × List Char) := do
  let code ← digitsValue? 16 (s.take width)
  if width ≤ s.length ∧ code.isValidChar then some (Char.ofNat code, s.drop width) else none

/-- The characters that escapes of one letter stand for. -/
def escapes : List (Char × Char) :=
  [('b', '\x08'), ('t', '\t'), ('n', '\n'), ('f', '\x0c'), ('r', '\r'), ('"', '"'), ('\\', '\\')]

/-- Reads what follows the backslash of an escape. -/
def readEscape : List Char → Option (Char × List Char)
  | [] => none
  | 'u' :: rest => readCode 4 rest
  | 'U' :: rest => readCode 8 rest
  | c :: rest => (escapes.lookup c).map (·, rest)

/-! ## Strings -/

/-- Reads a string on one line up to its closing mark; the opening one is gone. -/
def readOnLine (mark : Char) : (fuel : Nat) → List Char → Option (List Char × List Char)
  | 0, _ | _, [] => none
  | fuel + 1, c :: rest =>
    if c = mark then some ([], rest)
    else if c = '\\' ∧ mark = '"' then do
      let (c, rest) ← readEscape rest
      (readOnLine mark fuel rest).map fun (text, rest) => (c :: text, rest)
    else if isTextChar c then
      (readOnLine mark fuel rest).map fun (text, rest) => (c :: text, rest)
    else none

/-- Reads a string of several lines up to its three closing marks; the opening ones are gone. Up to
two marks more belong to the text, and a backslash at the end of a line joins it to the next text. -/
def readLines (mark : Char) : (fuel : Nat) → List Char → Option (List Char × List Char)
  | 0, _ | _, [] => none
  | fuel + 1, c :: rest =>
    let marks := (c :: rest).takeWhile (· == mark)
    if 3 ≤ marks.length then
      some (marks.take (min marks.length 5 - 3), (c :: rest).drop (min marks.length 5))
    else
      let go (c : Char) (rest : List Char) : Option (List Char × List Char) :=
        (readLines mark fuel rest).map fun (text, rest) => (c :: text, rest)
      match afterLineEnd? (c :: rest) with
      | some rest => go '\n' rest
      | none =>
        if c = '\\' ∧ mark = '"' then
          match afterLineEnd? (rest.dropWhile isGap) with
          | some rest => readLines mark fuel (skipEmptyLines rest)
          | none => do
            let (c, rest) ← readEscape rest
            go c rest
        else if isTextChar c then go c rest
        else none

/-- Reads a string on one line, if there is a mark. -/
def readKeyString : List Char → Option (String × List Char)
  | c :: rest =>
    if c = '"' ∨ c = '\x27' then
      (readOnLine c (rest.length + 1) rest).map fun (text, rest) => (.ofList text, rest)
    else none
  | [] => none

/-- Reads a string, which may have several lines. A line end after the opening marks is not part
of it. -/
def readString (s : List Char) : Option (String × List Char) :=
  match s with
  | c :: d :: e :: rest =>
    if (c = '"' ∨ c = '\x27') ∧ d = c ∧ e = c then
      let rest := (afterLineEnd? rest).getD rest
      (readLines c (rest.length + 1) rest).map fun (text, rest) => (.ofList text, rest)
    else readKeyString s
  | _ => readKeyString s

end PromptPipeline.Toml
