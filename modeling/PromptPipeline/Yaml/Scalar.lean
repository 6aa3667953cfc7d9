import PromptPipeline.Decimal.Numeral
import PromptPipeline.Text.Line

/-!
# Strings in YAML

How a string is written so that it reads back as the same string: plain where nothing speaks against
it, between quotes, or as a block of lines. A plain string must not look like a value of another
type (`looksTyped`) and must not be taken for structure (`Traits`).
-/

namespace PromptPipeline.Yaml

open Text

/-! ## Strings that look like other values -/

/-- The marks of the bases that integers may have besides ten. -/
def baseMarks : List (String × Nat) :=
  [("0x", 16), ("0o", 8), ("0b", 2)]

/-- Whether a text reads as an integer of at most 128 bits with a marked base. -/
def isMarkedInteger (s : List Char) : Bool :=
  baseMarks.any fun (mark, base) =>
    let value? (start : String) : Option Nat :=
      (dropStart? (start ++ mark).toList s).bind (Decimal.digitsValue? base)
    (value? "").any (· < Nat.pow 2 128) || (value? "+").any (· < Nat.pow 2 128) ||
      (value? "-").any (· ≤ Nat.pow 2 127)

/-- Whether a text is zeros and other digits with a zero in front, which is no number. -/
def hasLeadingZero (s : List Char) : Bool :=
  let digits :=
    match s with
    | '-' :: rest | '+' :: rest => rest
    | _ => s
  match digits with
  | '0' :: rest@(_ :: _) => rest.all Char.isDigit
  | _ => false

/-- The value of an exponent with its mark, or zero where there is none. -/
def markedExponent? : List Char → Option Int
  | [] => some 0
  | c :: rest => if c = 'e' ∨ c = 'E' then Decimal.exponentValue? rest else none

/-- Whether a text without a sign reads as a finite decimal number. -/
def isUnsignedDecimal (s : List Char) : Bool :=
  let whole := s.takeWhile Char.isDigit
  let rest := s.dropWhile Char.isDigit
  let (fraction, rest) :=
    match rest with
    | '.' :: rest => (rest.takeWhile Char.isDigit, rest.dropWhile Char.isDigit)
    | _ => ([], rest)
  match markedExponent? rest with
  | some exponent => whole ++ fraction ≠ [] && Decimal.isFinite whole fraction exponent
  | none => false

/-- Whether a text reads as a finite decimal number. -/
def isDecimal : List Char → Bool
  | '-' :: rest | '+' :: rest => isUnsignedDecimal rest
  | s => isUnsignedDecimal s

/-- The words that read as other values. -/
def typedWords : List String :=
  ["", "~", "null", "Null", "NULL", "true", "True", "TRUE", "false", "False", "FALSE",
    ".inf", ".Inf", ".INF", "+.inf", "+.Inf", "+.INF", "-.inf", "-.Inf", "-.INF",
    ".nan", ".NaN", ".NAN"]

/-- Whether a plain text would be read as another value than a string, or might be. -/
def looksTyped (s : String) : Bool :=
  typedWords.contains s || isMarkedInteger s.toList || isDecimal s.toList ||
    hasLeadingZero s.toList

/-! ## Strings that look like structure -/

/-- Whether the character ends a line. -/
def isBreak (c : Char) : Bool :=
  c == '\n' || c == '\r' || [0x85, 0x2028, 0x2029].contains c.toNat

/-- Whether the character may be written as it is. -/
def isPrintable (c : Char) : Bool :=
  let n := c.toNat
  n == 0xA || (0x20 ≤ n && n ≤ 0x7E) ||
    (0xA0 ≤ n && n ≠ 0xFEFF && n ≠ 0xFFFE && n ≠ 0xFFFF)

/-- Whether the character, or the end of the text, separates words of the structure. -/
def isGap : Option Char → Bool
  | none => true
  | some c => c == ' ' || c == '\t' || c == '\x00' || isBreak c

/-- The characters that mean something at the start of a plain text. -/
def indicators : List Char :=
  "#,[]\x7b\x7d&*!|>\x27\"%@\x60".toList

/-- Whether a character would be taken for structure, between the one before it and the one after
it. -/
def isIndicator (before : Option Char) (c : Char) (after : Option Char) : Bool :=
  match before with
  | none => indicators.contains c || (isGap after && "?:-".toList.contains c)
  | some b => (c == ':' && isGap after) || (c == '#' && isGap (some b))

/-- Whether a character of a text would be taken for structure. -/
def hasIndicator (before : Option Char) : List Char → Bool
  | [] => false
  | c :: rest => isIndicator before c rest.head? || hasIndicator (some c) rest

/-- Whether two characters stand next to each other that satisfy `p` and `q`. -/
def hasPair (p q : Char → Bool) : List Char → Bool
  | a :: b :: rest => (p a && q b) || hasPair p q (b :: rest)
  | _ => false

/-- Whether a text starts like a mark between documents. -/
def startsLikeMark (s : List Char) : Bool :=
  "---".toList.isPrefixOf s || "...".toList.isPrefixOf s

/-- What there is in a text that speaks against some way to write it. -/
structure Traits where
  hasIndicator : Bool
  hasBreak : Bool
  /-- A space or break at the start or the end. -/
  hasLooseEnd : Bool
  endsWithSpace : Bool
  /-- A break before a space. -/
  hasBreakSpace : Bool
  /-- A space before a break. -/
  hasSpaceBreak : Bool
  /-- A character that may not be written as it is. -/
  hasSpecial : Bool
  deriving DecidableEq

/-- The traits of a text. -/
def Traits.of (s : List Char) : Traits :=
  let isSpace (c : Char) : Bool := c == ' '
  { hasIndicator := startsLikeMark s || Yaml.hasIndicator none s
    hasBreak := s.any isBreak
    hasLooseEnd := (s.head?.any fun c => isSpace c || isBreak c) ||
      s.getLast?.any fun c => isSpace c || isBreak c
    endsWithSpace := s.getLast?.any isSpace
    hasBreakSpace := hasPair isBreak isSpace s
    hasSpaceBreak := hasPair isSpace isBreak s
    hasSpecial := s.any (!isPrintable ·) }

/-- How a string is written. -/
inductive Style where
  | plain
  | singleQuoted
  | doubleQuoted
  | literal
  deriving DecidableEq

/-- How the string is written. -/
def Style.of (s : String) : Style :=
  let t := Traits.of s.toList
  let fallsToDouble := t.hasSpaceBreak || t.hasSpecial
  if s.toList.contains '\n' then
    if t.endsWithSpace || fallsToDouble then .doubleQuoted else .literal
  else if t.hasBreakSpace || fallsToDouble then .doubleQuoted
  else if looksTyped s || t.hasLooseEnd || t.hasBreak || t.hasIndicator then .singleQuoted
  else .plain

/-! ## Writing -/

/-- Spaces. -/
def spaces (n : Nat) : List Char :=
  List.replicate n ' '

/-- The letter of an escape for a character that has one of its own. -/
def escapeLetters : List (Nat × Char) :=
  [(0, '0'), (7, 'a'), (8, 'b'), (9, 't'), (10, 'n'), (11, 'v'), (12, 'f'), (13, 'r'), (27, 'e'),
    (34, '"'), (92, '\\'), (0x85, 'N'), (0x2028, 'L'), (0x2029, 'P')]

/-- A number in hexadecimal digits, of at least the given length. -/
def hexText (width n : Nat) : List Char :=
  let digits := (Nat.toDigits 16 n).map Char.toUpper
  List.replicate (width - digits.length) '0' ++ digits

/-- A character between double quotes. -/
def doubleQuotedChar (c : Char) : List Char :=
  if isPrintable c && !isBreak c && c ≠ '"' && c ≠ '\\' then [c]
  else
    match escapeLetters.lookup c.toNat with
    | some letter => ['\\', letter]
    | none =>
      if c.toNat ≤ 0xFF then '\\' :: 'x' :: hexText 2 c.toNat
      else if c.toNat ≤ 0xFFFF then '\\' :: 'u' :: hexText 4 c.toNat
      else '\\' :: 'U' :: hexText 8 c.toNat

/-- A text of which every line after a break is indented, unless it is empty. -/
def indentLines (indent : Nat) (atStart : Bool) : List Char → List Char
  | [] => []
  | c :: rest =>
    if isBreak c then c :: indentLines indent true rest
    else (if atStart then spaces indent else []) ++ c :: indentLines indent false rest

/-- A text between single quotes. -/
def singleQuotedText (indent : Nat) (s : List Char) : List Char :=
  let body := indentLines indent false (s.flatMap fun c => if c = '\x27' then [c, c] else [c])
  let final := if s.getLast?.any isBreak then spaces indent else []
  '\x27' :: body ++ final ++ ['\x27']

/-- What follows the bar of a block: whether it says how far it is indented, and whether the breaks
at its end belong to the text. -/
def blockHints (indentStep : Nat) (s : List Char) : List Char :=
  let indentation :=
    if s.head?.any fun c => c == ' ' || isBreak c then Nat.toDigits 10 indentStep else []
  let ending :=
    match s.reverse with
    | [] => ['-']
    | [last] => if isBreak last then ['+'] else ['-']
    | last :: previous :: _ =>
      if isBreak last then if isBreak previous then ['+'] else [] else ['-']
  indentation ++ ending

/-- The number of spaces by which each level is indented. -/
def indentStep : Nat := 2

/-- A string with the end of its line, at a place where further lines have the given indentation. -/
def stringLine (indent : Nat) (s : String) : List Char :=
  let chars := s.toList
  match Style.of s with
  | .plain => chars ++ ['\n']
  | .singleQuoted => singleQuotedText indent chars ++ ['\n']
  | .doubleQuoted => '"' :: chars.flatMap doubleQuotedChar ++ ['"', '\n']
  | .literal =>
    '|' :: blockHints indentStep chars ++ '\n' :: indentLines indent true chars ++
      if chars.getLast?.any isBreak then [] else ['\n']

end PromptPipeline.Yaml
