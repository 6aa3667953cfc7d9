import PromptPipeline.Decimal.Numeral
import PromptPipeline.Text.Line
import PromptPipeline.Toml.Table

/-!
# Numbers, dates and words of TOML

The values that are written without brackets and quotes. Such a value ends where no character of one
follows, with one exception: a date and a time of day may have a space between them.
-/

namespace PromptPipeline.Toml

open Decimal

/-- Whether the character may stand in a value without brackets and quotes. -/
def isAtomChar (c : Char) : Bool :=
  c.isAlphanum || "+-._:".toList.contains c

/-! ## Numbers -/

/-- The digits without the low lines that separate some of them. A low line stands between two
digits. -/
def ungrouped? (isDigit : Char → Bool) : List Char → Option (List Char)
  | [] => none
  | [c] => if isDigit c then some [c] else none
  | c :: '_' :: rest => if isDigit c then (ungrouped? isDigit rest).map (c :: ·) else none
  | c :: d :: rest => if isDigit c then (ungrouped? isDigit (d :: rest)).map (c :: ·) else none

/-- Whether a number is negative, and the text after its sign. -/
def splitSign : List Char → Bool × List Char
  | '-' :: rest => (true, rest)
  | '+' :: rest | rest => (false, rest)

/-- The digits of a whole number in base ten, which has no zero in front. -/
def wholeDigits? (s : List Char) : Option (List Char) :=
  match ungrouped? Char.isDigit s with
  | some ('0' :: _ :: _) => none
  | digits => digits

/-- The integer that a text stands for in a base that its first two characters tell. -/
def markedInteger? (base : Nat) (s : List Char) : Option Toml :=
  match (ungrouped? (digitValue? base · |>.isSome) s).bind (digitsValue? base) with
  | some n => if n < Nat.pow 2 63 then some (.integer n) else none
  | none => none

/-- The integer that a text stands for. It fits 64 bits. -/
def integer? (s : List Char) : Option Toml :=
  match s with
  | '0' :: 'x' :: rest => markedInteger? 16 rest
  | '0' :: 'o' :: rest => markedInteger? 8 rest
  | '0' :: 'b' :: rest => markedInteger? 2 rest
  | _ =>
    let (isNegative, digits) := splitSign s
    match (wholeDigits? digits).bind (digitsValue? 10) with
    | some n =>
      if isNegative then if n ≤ Nat.pow 2 63 then some (.integer (-n)) else none
      else if n < Nat.pow 2 63 then some (.integer n)
      else none
    | none => none

/-- The digits after a point, and none where there is no point. -/
def fractionDigits? : List Char → Option (List Char)
  | [] => some []
  | _ :: digits => ungrouped? Char.isDigit digits

/-- The value of an exponent with its mark, and zero where there is none. -/
def exponent? : List Char → Option Int
  | [] => some 0
  | _ :: rest =>
    let (isNegative, digits) := splitSign rest
    ((ungrouped? Char.isDigit digits).bind (digitsValue? 10)).map fun n =>
      if isNegative then -(n : Int) else n

/-- Whether a text is a number with a fraction or an exponent. It is not above the range of double
precision; one that is below the range stands for minus infinity. -/
def isNumeral (s : List Char) : Bool :=
  let (isNegative, body) := splitSign s
  let isMark (c : Char) : Bool := c == 'e' || c == 'E'
  let mantissa := body.takeWhile (!isMark ·)
  let whole := mantissa.takeWhile (· != '.')
  let fraction := mantissa.dropWhile (· != '.')
  let scale := body.dropWhile (!isMark ·)
  fraction ++ scale ≠ [] &&
    match wholeDigits? whole, fractionDigits? fraction, exponent? scale with
    | some whole, some fraction, some exponent => isNegative || isFinite whole fraction exponent
    | _, _, _ => false

/-- Whether a text is a floating-point number. -/
def isFloat (s : List Char) : Bool :=
  let (_, word) := splitSign s
  word = "inf".toList || word = "nan".toList || isNumeral s

/-! ## Dates and times -/

/-- A number of that many digits at the start of a text. -/
def readFixed (width : Nat) (s : List Char) : Option (Nat × List Char) :=
  let digits := s.take width
  if digits.length = width ∧ digits.all Char.isDigit then
    (digitsValue? 10 digits).map fun n => (n, s.drop width)
  else none

/-- The text after the given character, if it starts with that. -/
def afterChar? (c : Char) : List Char → Option (List Char)
  | [] => none
  | d :: rest => if c = d then some rest else none

/-- The number of days of a month. -/
def daysOfMonth (year month : Nat) : Nat :=
  if month = 2 then
    if year % 4 = 0 ∧ (year % 100 ≠ 0 ∨ year % 400 = 0) then 29 else 28
  else if [4, 6, 9, 11].contains month then 30
  else 31

/-- The text after a date. -/
def afterDate? (s : List Char) : Option (List Char) := do
  let (year, s) ← readFixed 4 s
  let s ← afterChar? '-' s
  let (month, s) ← readFixed 2 s
  let s ← afterChar? '-' s
  let (day, s) ← readFixed 2 s
  if 1 ≤ month ∧ month ≤ 12 ∧ 1 ≤ day ∧ day ≤ daysOfMonth year month then some s else none

/-- The text after an hour and a minute. -/
def afterMinute? (s : List Char) : Option (List Char) := do
  let (hour, s) ← readFixed 2 s
  let s ← afterChar? ':' s
  let (minute, s) ← readFixed 2 s
  if hour ≤ 23 ∧ minute ≤ 59 then some s else none

/-- The text after a time of day. A minute may have a leap second. -/
def afterTime? (s : List Char) : Option (List Char) := do
  let s ← afterChar? ':' (← afterMinute? s)
  let (second, s) ← readFixed 2 s
  if second ≤ 60 then
    match s with
    | '.' :: d :: rest => if d.isDigit then some (rest.dropWhile Char.isDigit) else none
    | _ => some s
  else none

/-- Whether a text is empty or the distance of a local time from universal time. -/
def isOffset : List Char → Bool
  | [] | ['Z'] | ['z'] => true
  | '+' :: rest | '-' :: rest => afterMinute? rest == some []
  | _ => false

/-- Whether a text is a date. -/
def isDate (s : List Char) : Bool :=
  afterDate? s == some []

/-- Whether a text is a time of day. -/
def isTime (s : List Char) : Bool :=
  afterTime? s == some []

/-- Whether a text is a time of day, which may say where. -/
def isPlacedTime (s : List Char) : Bool :=
  (afterTime? s).any isOffset

/-- Whether a text is a date, a time of day, or a date, a letter `T` and a time. -/
def isDateTime (s : List Char) : Bool :=
  isTime s ||
    match afterDate? s with
    | some [] => true
    | some (c :: rest) => (c == 'T' || c == 't') && isPlacedTime rest
    | none => false

/-! ## Values -/

/-- The value that a text without blanks stands for. -/
def atom? (s : List Char) : Option Toml :=
  if s = "true".toList then some (.boolean true)
  else if s = "false".toList then some (.boolean false)
  else if isDateTime s then some (.dateTime (.ofList s))
  else if isFloat s then some (.float (.ofList s))
  else integer? s

/-- Reads a value without brackets and quotes. -/
def readAtom (s : List Char) : Option (Toml × List Char) :=
  let word := s.takeWhile isAtomChar
  let rest := s.dropWhile isAtomChar
  let apart : Option (Toml × List Char) := (atom? word).map (·, rest)
  match rest with
  | ' ' :: more =>
    let time := more.takeWhile isAtomChar
    if isDate word && isPlacedTime time then
      some (.dateTime (.ofList (word ++ ' ' :: time)), more.dropWhile isAtomChar)
    else apart
  | _ => apart

end PromptPipeline.Toml
