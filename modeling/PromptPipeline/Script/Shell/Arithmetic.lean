import PromptPipeline.Decimal.Rounded
import PromptPipeline.Script.Shell.Word

/-!
# Arithmetic of the shell

The value of an arithmetic expression. Operators of one strength are applied from left to right,
and a division goes toward zero.
-/

namespace PromptPipeline.Shell.Arithmetic

open Text

/-- The operators with two operands, stronger ones later, longer ones first among those of one
strength. -/
def levels : List (List String) :=
  [["||"], ["&&"], ["==", "!="], ["<=", ">=", "<", ">"], ["+", "-"], ["*", "/", "%"]]

/-- One for a true statement and zero for a false one. -/
def truth (b : Bool) : Int :=
  if b then 1 else 0

/-- What an operator makes of its operands; nothing for a division by zero. -/
def combine? (operator : String) (x y : Int) : Option Int :=
  match operator with
  | "||" => some (truth (x ≠ 0 || y ≠ 0))
  | "&&" => some (truth (x ≠ 0 && y ≠ 0))
  | "==" => some (truth (x == y))
  | "!=" => some (truth (x != y))
  | "<=" => some (truth (x ≤ y))
  | ">=" => some (truth (y ≤ x))
  | "<" => some (truth (x < y))
  | ">" => some (truth (y < x))
  | "+" => some (x + y)
  | "-" => some (x - y)
  | "*" => some (x * y)
  | "/" => if y = 0 then none else some (x.tdiv y)
  | "%" => if y = 0 then none else some (x.tmod y)
  | _ => none

/-- The number that digits stand for. -/
def ofDigits (digits : List Char) : Nat :=
  digits.foldl (fun n c => 10 * n + (c.toNat - '0'.toNat)) 0

/-- The integer that a text stands for: digits, which a sign may precede, between white space. -/
def integer? (text : List Char) : Option Int :=
  let number (digits : List Char) : Option Int :=
    if digits ≠ [] ∧ digits.all Char.isDigit then some (ofDigits digits) else none
  match trim text with
  | '-' :: rest => (number rest).map (- ·)
  | '+' :: rest => number rest
  | rest => number rest

mutual

/-- An expression made with the operators of the given levels, and what follows it. -/
def readLevel (value : String → Int) : (fuel : Nat) → List (List String) → List Char →
    Option (Int × List Char)
  | 0, _, _ => none
  | fuel + 1, [], s => readOperand value fuel (trimStart s)
  | fuel + 1, level :: stronger, s => do
    let (x, rest) ← readLevel value fuel stronger s
    readMore value fuel level stronger x (trimStart rest)

/-- The further operands of a level. -/
def readMore (value : String → Int) : (fuel : Nat) → List String → List (List String) → Int →
    List Char → Option (Int × List Char)
  | 0, _, _, _, _ => none
  | fuel + 1, level, stronger, x, s =>
    match level.findSome? fun name => (dropStart? name.toList s).map fun rest => (name, rest) with
    | some (name, rest) => do
      let (y, rest) ← readLevel value fuel stronger rest
      readMore value fuel level stronger (← combine? name x y) (trimStart rest)
    | none => some (x, s)

/-- A number, a name, an expression between brackets, or one of these with a sign. -/
def readOperand (value : String → Int) : (fuel : Nat) → List Char → Option (Int × List Char)
  | 0, _ => none
  | fuel + 1, s =>
    match s with
    | '(' :: rest => do
      let (x, rest) ← readLevel value fuel levels rest
      match trimStart rest with
      | ')' :: rest => some (x, rest)
      | _ => none
    | '-' :: rest => (readOperand value fuel (trimStart rest)).map fun (x, rest) => (-x, rest)
    | '+' :: rest => readOperand value fuel (trimStart rest)
    | '!' :: rest =>
      (readOperand value fuel (trimStart rest)).map fun (x, rest) => (truth (x == 0), rest)
    | '$' :: rest => readOperand value fuel rest
    | c :: _ =>
      if c.isDigit then some (ofDigits (s.takeWhile Char.isDigit), s.dropWhile Char.isDigit)
      else if startsName c then
        some (value (.ofList (s.takeWhile continuesName)), s.dropWhile continuesName)
      else none
    | [] => none

end

/-- The value of an expression, in which names have the given values. -/
def eval? (value : String → Int) (expression : List Char) : Option Int :=
  if trim expression = [] then some 0
  else
    match readLevel value (16 * expression.length + 16) levels expression with
    | some (x, rest) => if trim rest = [] then some x else none
    | none => none

end PromptPipeline.Shell.Arithmetic
