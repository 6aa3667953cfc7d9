import PromptPipeline.Decimal.Numeral
import PromptPipeline.Json.Value

/-!
# Reading JSON

Reads a JSON text. A text is refused when it is not JSON, when arrays and objects are nested more
than 127 deep, when a string escape leaves half of a surrogate pair, or when a number exceeds the
double precision range.

A number that is no 64-bit integer is read from the leading digits that fit 64 bits, scaled by a
power of ten in double precision.
-/

namespace PromptPipeline.Json

/-- White space between the tokens of a JSON text. -/
def isSpace (c : Char) : Bool :=
  c == ' ' || c == '\n' || c == '\t' || c == '\r'

/-- The text from its first token on. -/
def skipSpace (s : List Char) : List Char :=
  s.dropWhile isSpace

/-- The value of a decimal digit. -/
def digitValue (c : Char) : Nat :=
  c.toNat - '0'.toNat

/-- The lexical parts of a number. -/
structure NumberText where
  negative : Bool
  whole : List Char
  fraction : List Char
  /-- Whether the exponent is positive, and its digits. -/
  exponent : Option (Bool × List Char)
  deriving DecidableEq

/-- The greatest number that the leading digits may reach. -/
def maxSignificand : Nat := Nat.pow 2 64 - 1

/-- The greatest exponent that is computed with. -/
def maxExponent : Nat := Nat.pow 2 31 - 1

/-- Reads the leading digits up to the greatest significand; also gives the digits left over. -/
def readSignificand (significand : Nat) : List Char → Nat × List Char
  | [] => (significand, [])
  | d :: rest =>
    let next := significand * 10 + digitValue d
    if maxSignificand < next then (significand, d :: rest) else readSignificand next rest

/-- Divides by the greatest power of ten until the rest of a negative exponent is a power of ten. -/
def scaleDown : (fuel : Nat) → Binary64 → Nat → Binary64
  | 0, x, _ => x
  | fuel + 1, x, k =>
    if k ≤ 308 then x.div (.ofNat (Nat.pow 10 k))
    else if x.isZero then x
    else scaleDown fuel (x.div (.ofNat (Nat.pow 10 308))) (k - 308)

/-- The significand scaled by a power of ten; nothing if that is beyond the range. -/
def scaled? (significand : Nat) (exponent : Int) : Option Binary64 :=
  let x := Binary64.ofNat significand
  if exponent < 0 then some (scaleDown (exponent.natAbs / 308 + 1) x exponent.natAbs)
  else if exponent ≤ 308 then
    let y := x.mul (.ofNat (Nat.pow 10 exponent.toNat))
    if y.isInfinite then none else some y
  else if x.isZero then some x
  else none

/-- The double precision number that a number text stands for. -/
def NumberText.real? (t : NumberText) : Option Binary64 :=
  let (whole, dropped) := readSignificand 0 t.whole
  let (significand, ignored) := readSignificand whole t.fraction
  let shift : Int := dropped.length - (t.fraction.length - ignored.length : Nat)
  let magnitude : Option Binary64 :=
    match t.exponent with
    | none => scaled? significand shift
    | some (positive, ds) =>
      let e := ds.foldl (fun n d => n * 10 + digitValue d) 0
      if maxExponent < e then
        if significand ≠ 0 ∧ positive then none else some 0
      else scaled? significand (if positive then shift + e else shift - e)
  magnitude.map fun x => if t.negative then x.neg else x

/-- The number that a number text stands for. -/
def NumberText.number? (t : NumberText) : Option Number :=
  match t.fraction, t.exponent, readSignificand 0 t.whole with
  | [], none, (n, []) =>
    if !t.negative then some (.natural n)
    else if n = 0 ∨ Nat.pow 2 63 < n then some (.real (Binary64.ofNat n).neg)
    else some (.minus n)
  | _, _, _ => t.real?.map .real

/-- Splits off the digits at the start of a text. -/
def takeDigits (s : List Char) : List Char × List Char :=
  (s.takeWhile Char.isDigit, s.dropWhile Char.isDigit)

/-- Reads the exponent part of a number, if there is one; fails on a mark without digits. -/
def readExponent : List Char → Option (Option (Bool × List Char) × List Char)
  | c :: rest =>
    if c = 'e' ∨ c = 'E' then
      let (positive, body) :=
        match rest with
        | '+' :: r => (true, r)
        | '-' :: r => (false, r)
        | r => (true, r)
      match takeDigits body with
      | ([], _) => none
      | (ds, r) => some (some (positive, ds), r)
    else some (none, c :: rest)
  | [] => some (none, [])

/-- Reads the digits after a point, if there is one; fails on a point without digits. -/
def readFraction : List Char → Option (List Char × List Char)
  | '.' :: rest =>
    match takeDigits rest with
    | ([], _) => none
    | (ds, r) => some (ds, r)
  | s => some ([], s)

/-- Reads a number that starts here. A leading zero stands alone. -/
def readNumber (s : List Char) : Option (Number × List Char) := do
  let (negative, body) :=
    match s with
    | '-' :: r => (true, r)
    | r => (false, r)
  let (whole, rest) := takeDigits body
  if whole = [] ∨ (whole.head? = some '0' ∧ 1 < whole.length) then none
  else
    let (fraction, rest) ← readFraction rest
    let (exponent, rest) ← readExponent rest
    let n ← NumberText.number? ⟨negative, whole, fraction, exponent⟩
    some (n, rest)

/-- The value of four hexadecimal digits at the start of a text. -/
def readHex4 : List Char → Option (Nat × List Char)
  | a :: b :: c :: d :: rest => do
    let a ← Decimal.hexValue? a
    let b ← Decimal.hexValue? b
    let c ← Decimal.hexValue? c
    let d ← Decimal.hexValue? d
    some (((a * 16 + b) * 16 + c) * 16 + d, rest)
  | _ => none

/-- Reads the code of an escaped character, which two escapes spell if it is beyond 16 bits. -/
def readCodePoint (s : List Char) : Option (Char × List Char) := do
  let (high, rest) ← readHex4 s
  if 0xD800 ≤ high ∧ high < 0xDC00 then
    match rest with
    | '\\' :: 'u' :: rest =>
      let (low, rest) ← readHex4 rest
      if 0xDC00 ≤ low ∧ low < 0xE000 then
        some (Char.ofNat (0x10000 + (high - 0xD800) * 0x400 + (low - 0xDC00)), rest)
      else none
    | _ => none
  else if 0xDC00 ≤ high ∧ high < 0xE000 then none
  else some (Char.ofNat high, rest)

/-- The character that a one-letter escape stands for. -/
def simpleEscape? (c : Char) : Option Char :=
  match c with
  | '"' => some '"'
  | '\\' => some '\\'
  | '/' => some '/'
  | 'b' => some (Char.ofNat 8)
  | 'f' => some (Char.ofNat 12)
  | 'n' => some '\n'
  | 'r' => some '\r'
  | 't' => some '\t'
  | _ => none

/-- Reads a string up to its closing quote; the opening one is gone. -/
def readString : (fuel : Nat) → List Char → Option (List Char × List Char)
  | 0, _ => none
  | _, [] => none
  | _ + 1, '"' :: rest => some ([], rest)
  | fuel + 1, '\\' :: 'u' :: rest => do
    let (c, rest) ← readCodePoint rest
    let (cs, rest) ← readString fuel rest
    some (c :: cs, rest)
  | fuel + 1, '\\' :: e :: rest => do
    let c ← simpleEscape? e
    let (cs, rest) ← readString fuel rest
    some (c :: cs, rest)
  | fuel + 1, c :: rest =>
    if c.toNat < 0x20 ∨ c = '\\' then none
    else do
      let (cs, rest) ← readString fuel rest
      some (c :: cs, rest)

/-- Reads a name of a member and its colon, from the opening quote on. -/
def readName (s : List Char) : Option (String × List Char) :=
  match skipSpace s with
  | '"' :: rest => do
    let (name, rest) ← readString (rest.length + 1) rest
    match skipSpace rest with
    | ':' :: rest => some (.ofList name, rest)
    | _ => none
  | _ => none

mutual

/-- Reads a value; `depth` more arrays or objects may be opened. -/
def readValue : (fuel depth : Nat) → List Char → Option (Json × List Char)
  | 0, _, _ => none
  | fuel + 1, depth, s =>
    match skipSpace s with
    | 'n' :: 'u' :: 'l' :: 'l' :: rest => some (.null, rest)
    | 't' :: 'r' :: 'u' :: 'e' :: rest => some (.bool true, rest)
    | 'f' :: 'a' :: 'l' :: 's' :: 'e' :: rest => some (.bool false, rest)
    | '"' :: rest => (readString (rest.length + 1) rest).map fun (cs, r) => (.string (.ofList cs), r)
    | '[' :: rest =>
      match depth with
      | 0 => none
      | depth + 1 =>
        match skipSpace rest with
        | ']' :: rest => some (.array [], rest)
        | rest => (readItems fuel depth rest).map fun (items, r) => (.array items, r)
    | '\x7b' :: rest =>
      match depth with
      | 0 => none
      | depth + 1 =>
        match skipSpace rest with
        | '\x7d' :: rest => some (.object [], rest)
        | rest => (readMembers fuel depth rest).map fun (members, r) => (.object members, r)
    | rest => (readNumber rest).map fun (n, r) => (.number n, r)

/-- Reads items up to the closing bracket, of which there is at least one. -/
def readItems : (fuel depth : Nat) → List Char → Option (List Json × List Char)
  | 0, _, _ => none
  | fuel + 1, depth, s => do
    let (item, rest) ← readValue fuel depth s
    match skipSpace rest with
    | ',' :: rest =>
      let (items, rest) ← readItems fuel depth rest
      some (item :: items, rest)
    | ']' :: rest => some ([item], rest)
    | _ => none

/-- Reads members up to the closing brace, of which there is at least one. -/
def readMembers : (fuel depth : Nat) → List Char → Option (List (String × Json) × List Char)
  | 0, _, _ => none
  | fuel + 1, depth, s => do
    let (name, rest) ← readName s
    let (value, rest) ← readValue fuel depth rest
    match skipSpace rest with
    | ',' :: rest =>
      let (members, rest) ← readMembers fuel depth rest
      some ((name, value) :: members, rest)
    | '\x7d' :: rest => some ([(name, value)], rest)
    | _ => none

end

/-- How many arrays and objects may be nested in one another. -/
def maxDepth : Nat := 127

/-- The value of a JSON text. -/
def read? (s : List Char) : Option Json :=
  match readValue (2 * s.length + 2) maxDepth s with
  | some (j, rest) => if skipSpace rest = [] then some j else none
  | none => none

end PromptPipeline.Json
