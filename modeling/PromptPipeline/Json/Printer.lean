import PromptPipeline.Decimal.Shortest
import PromptPipeline.Json.Value

/-!
# Writing JSON

Two written forms of a JSON value: `compact`, without white space, and `pretty`, with each member
and item on a line of its own, indented by two spaces for each level.
-/

namespace PromptPipeline.Json

open Decimal

/-- The digit of a value below sixteen. -/
def hexDigit (n : Nat) : Char :=
  Nat.digitChar (n % 16)

/-- The written form of one character inside a string. -/
def escapeChar (c : Char) : List Char :=
  if c = '"' then ['\\', '"']
  else if c = '\\' then ['\\', '\\']
  else if c = '\n' then ['\\', 'n']
  else if c = '\r' then ['\\', 'r']
  else if c = '\t' then ['\\', 't']
  else if c = Char.ofNat 8 then ['\\', 'b']
  else if c = Char.ofNat 12 then ['\\', 'f']
  else if c.toNat < 0x20 then
    ['\\', 'u', '0', '0', hexDigit (c.toNat / 16), hexDigit c.toNat]
  else [c]

/-- A string in quotes. -/
def quoted (s : String) : List Char :=
  '"' :: (s.toList.flatMap escapeChar ++ ['"'])

/-- The text of a finite double precision number: positional with a point for numbers between
`10 ^ -5` and `10 ^ 16`, with an exponent for others. -/
def realText (negative : Bool) (x : Scientific) : List Char :=
  let ds := digits x.coefficient
  let leading := (ds.length : Int) + x.exponent
  let body :=
    if x.coefficient = 0 then ['0', '.', '0']
    else if 0 ≤ x.exponent ∧ leading ≤ 16 then x.positional ++ ['.', '0']
    else if -5 < leading ∧ leading ≤ 16 then x.positional
    else
      let mark := 'e' :: (toString (leading - 1)).toList
      match ds with
      | [d] => d :: mark
      | d :: rest => d :: '.' :: (rest ++ mark)
      | [] => mark
  Binary64.signText negative ++ body

/-- The text of a number. A number that is not finite has none and is written as `null`. -/
def Number.text : Number → List Char
  | .natural n => digits n
  | .minus n => '-' :: digits n
  | .real x =>
    match x.value with
    | .finite negative significand exponent => realText negative (shortest significand exponent)
    | _ => "null".toList

/-- The text of a truth value. -/
def boolText (b : Bool) : List Char :=
  if b then "true".toList else "false".toList

mutual

/-- The value without white space. -/
def compactChars : Json → List Char
  | .null => "null".toList
  | .bool b => boolText b
  | .number n => n.text
  | .string s => quoted s
  | .array items => '[' :: compactItems items
  | .object members => '\x7b' :: compactMembers members

/-- The items with commas between them, and the closing bracket. -/
def compactItems : List Json → List Char
  | [] => [']']
  | [last] => compactChars last ++ [']']
  | item :: rest => compactChars item ++ ',' :: compactItems rest

/-- The members with commas between them, and the closing brace. -/
def compactMembers : List (String × Json) → List Char
  | [] => ['\x7d']
  | [(name, last)] => quoted name ++ ':' :: (compactChars last ++ ['\x7d'])
  | (name, value) :: rest =>
    quoted name ++ ':' :: (compactChars value ++ ',' :: compactMembers rest)

end

/-- The value without white space. -/
def compact (j : Json) : String :=
  .ofList j.compactChars

/-- The start of a line at a level of indentation. -/
def newLine (level : Nat) : List Char :=
  '\n' :: List.replicate (2 * level) ' '

mutual

/-- The value as it stands at a level of indentation. -/
def prettyChars (level : Nat) : Json → List Char
  | .null => "null".toList
  | .bool b => boolText b
  | .number n => n.text
  | .string s => quoted s
  | .array [] => ['[', ']']
  | .object [] => ['\x7b', '\x7d']
  | .array (item :: rest) => '[' :: prettyItems level (item :: rest)
  | .object (member :: rest) => '\x7b' :: prettyMembers level (member :: rest)

/-- The items on lines of their own, and the closing bracket. -/
def prettyItems (level : Nat) : List Json → List Char
  | [] => newLine level ++ [']']
  | [last] => newLine (level + 1) ++ prettyChars (level + 1) last ++ newLine level ++ [']']
  | item :: rest =>
    newLine (level + 1) ++ prettyChars (level + 1) item ++ ',' :: prettyItems level rest

/-- The members on lines of their own, and the closing brace. -/
def prettyMembers (level : Nat) : List (String × Json) → List Char
  | [] => newLine level ++ ['\x7d']
  | [(name, last)] =>
    newLine (level + 1) ++ quoted name ++ ':' :: ' ' :: prettyChars (level + 1) last ++
      newLine level ++ ['\x7d']
  | (name, value) :: rest =>
    newLine (level + 1) ++ quoted name ++ ':' :: ' ' :: prettyChars (level + 1) value ++
      ',' :: prettyMembers level rest

end

/-- The value on several lines, indented by two spaces for each level. -/
def pretty (j : Json) : String :=
  .ofList (j.prettyChars 0)

end PromptPipeline.Json
