import PromptPipeline.Script.Shell.Arithmetic
import PromptPipeline.Text.Utf8

/-!
# Utilities of the shell

The utilities that print, test, and pass their input through. They work on bytes.
-/

namespace PromptPipeline.Shell

open Text

/-- The two families of shells, which differ in how they print and complain. -/
inductive Family where
  | plain
  | bash
  deriving DecidableEq

/-- What a utility does: what it prints, what it complains of, and whether it succeeds. -/
structure Effect where
  output : List UInt8 := []
  complaint : String := ""
  status : Nat := 0

/-- The bytes of a line feed. -/
def lineFeed : List UInt8 := [10]

/-- The bytes of characters. -/
def bytesOf (s : List Char) : List UInt8 :=
  utf8Bytes (.ofList s)

/-- The value of an octal digit. -/
def octalValue? (c : Char) : Option Nat :=
  if '0' ≤ c ∧ c ≤ '7' then some (c.toNat - '0'.toNat) else none

/-- The byte that at most the given number of octal digits stand for, and what follows them. -/
def readOctal (most : Nat) (s : List Char) : UInt8 × List Char :=
  let digits := (s.take most).takeWhile fun c => (octalValue? c).isSome
  ((digits.foldl (fun n c => 8 * n + (octalValue? c).getD 0) 0).toUInt8, s.drop digits.length)

/-- The byte that a letter after a backslash stands for. -/
def escapeByte? : Char → Option UInt8
  | 'a' => some 7
  | 'b' => some 8
  | 'f' => some 12
  | 'n' => some 10
  | 'r' => some 13
  | 't' => some 9
  | 'v' => some 11
  | '\\' => some 92
  | _ => none

/-- The bytes of a text in which escapes are resolved, and whether the output ends there. -/
def unescape : (fuel : Nat) → List Char → List UInt8 × Bool
  | 0, _ => ([], false)
  | _, [] => ([], false)
  | fuel + 1, c :: rest =>
    let more (bytes : List UInt8) (rest : List Char) : List UInt8 × Bool :=
      let (later, ends) := unescape fuel rest
      (bytes ++ later, ends)
    match c, rest with
    | '\\', 'c' :: _ => ([], true)
    | '\\', '0' :: rest => more [(readOctal 3 rest).1] (readOctal 3 rest).2
    | '\\', d :: rest =>
      match escapeByte? d with
      | some b => more [b] rest
      | none => more (bytesOf ['\\', d]) rest
    | _, _ => more (bytesOf [c]) rest

/-- Takes the options off the arguments of `echo`: whether the line stays open, whether escapes are
resolved, and the other arguments. -/
def echoOptions (family : Family) (isOpen resolves : Bool) :
    List String → Bool × Bool × List String
  | [] => (isOpen, resolves, [])
  | argument :: rest =>
    match family, argument.toList with
    | .plain, ['-', 'n'] => (true, resolves, rest)
    | .bash, '-' :: letters@(_ :: _) =>
      if letters.all "neE".toList.contains then
        echoOptions family (isOpen || letters.contains 'n')
          (letters.foldl (fun b c => if c = 'e' then true else if c = 'E' then false else b) resolves)
          rest
      else (isOpen, resolves, argument :: rest)
    | _, _ => (isOpen, resolves, argument :: rest)

/-- Prints its arguments on one line. -/
def echo (family : Family) (arguments : List String) : Effect :=
  let (isOpen, resolves, arguments) := echoOptions family false (family = .plain) arguments
  let line := (" ".intercalate arguments).toList
  let (bytes, ends) := if resolves then unescape (line.length + 1) line else (bytesOf line, false)
  { output := bytes ++ if isOpen || ends then [] else lineFeed }

/-- A text that is widened with a character on one side. -/
def widen (width : Nat) (atEnd : Bool) (filler : Char) (text : List Char) : List Char :=
  let missing := List.replicate (width - (bytesOf text).length) filler
  if atEnd then text ++ missing else missing ++ text

/-- The text of a natural number in a base. -/
def inBase (base n : Nat) (isUpper : Bool) : List Char :=
  (Nat.toDigits base n).map fun c => if isUpper then c.toUpper else c

/-- What a conversion makes of an argument. -/
def convert (letter : Char) (precision : Option Nat) (argument : String) : List UInt8 × List Char :=
  let number := (Arithmetic.integer? argument.toList).getD 0
  match letter with
  | 's' =>
    let text := argument.toList
    ([], match precision with
      | some n => text.take n
      | none => text)
  | 'b' => ((unescape (argument.length + 1) argument.toList).1, [])
  | 'c' => ([], argument.toList.take 1)
  | 'x' => ([], inBase 16 number.toNat false)
  | 'X' => ([], inBase 16 number.toNat true)
  | 'o' => ([], inBase 8 number.toNat false)
  | _ => ([], (toString number).toList)

/-- Prints a format once, with the arguments that it takes, and gives those that it does not. -/
def format : (fuel : Nat) → List Char → List String → List UInt8 × List String
  | 0, _, arguments => ([], arguments)
  | _, [], arguments => ([], arguments)
  | fuel + 1, c :: rest, arguments =>
    let more (bytes : List UInt8) (rest : List Char) (arguments : List String) :
        List UInt8 × List String :=
      let (later, arguments) := format fuel rest arguments
      (bytes ++ later, arguments)
    match c, rest with
    | '%', '%' :: rest => more [37] rest arguments
    | '%', _ =>
      let flags := rest.takeWhile "-+ 0#".toList.contains
      let rest := rest.dropWhile "-+ 0#".toList.contains
      let width := Arithmetic.ofDigits (rest.takeWhile Char.isDigit)
      let rest := rest.dropWhile Char.isDigit
      let (precision, rest) :=
        match rest with
        | '.' :: rest =>
          (some (Arithmetic.ofDigits (rest.takeWhile Char.isDigit)), rest.dropWhile Char.isDigit)
        | _ => (none, rest)
      match rest with
      | letter :: rest =>
        let (bytes, text) := convert letter precision (arguments.headD "")
        let filler := if flags.contains '0' && !flags.contains '-' && letter ≠ 's' then '0' else ' '
        more (bytes ++ bytesOf (widen (width - bytes.length) (flags.contains '-') filler text)) rest
          arguments.tail
      | [] => ([37], arguments)
    | '\\', d :: rest' =>
      match octalValue? d, escapeByte? d with
      | some _, _ => more [(readOctal 3 rest).1] (readOctal 3 rest).2 arguments
      | none, some b => more [b] rest' arguments
      | none, none =>
        more (bytesOf (if d = '"' ∨ d = '\x27' then [d] else ['\\', d])) rest' arguments
    | _, _ => more (bytesOf [c]) rest arguments

/-- Prints a format as often as it takes to use up the arguments. -/
def formatAll : (fuel : Nat) → List Char → List String → List UInt8
  | 0, _, _ => []
  | fuel + 1, template, arguments =>
    let (bytes, left) := format (template.length + 1) template arguments
    if left = [] ∨ left.length = arguments.length then bytes
    else bytes ++ formatAll fuel template left

/-- The pieces of the input that end with a line feed, and the last piece if it is not empty. -/
def inputLines (input : List UInt8) : List (List UInt8) :=
  (input.splitBy fun b _ => b ≠ 10)

/-- The bytes that a set of `tr` names. -/
def byteSet : (fuel : Nat) → List UInt8 → List UInt8
  | 0, s => s
  | fuel + 1, first :: 45 :: last :: rest =>
    (List.range (last.toNat + 1 - first.toNat)).map (fun i => (first.toNat + i).toUInt8) ++
      byteSet fuel rest
  | fuel + 1, b :: rest => b :: byteSet fuel rest
  | _, [] => []

/-- The names of classes of characters in a set. -/
def classRanges : List (String × String) :=
  [("[:lower:]", "a-z"), ("[:upper:]", "A-Z"), ("[:digit:]", "0-9"), ("[:alpha:]", "A-Za-z"),
    ("[:alnum:]", "0-9A-Za-z"), ("[:space:]", "\\t-\\r "), ("[:blank:]", "\\t ")]

/-- The bytes that the text of a set names. -/
def readSet (text : String) : List UInt8 :=
  let text := (classRanges.lookup text).getD text
  let bytes := (unescape (text.length + 1) text.toList).1
  byteSet bytes.length bytes

/-- The byte in the second set at the place where a byte is in the first one. -/
def translate (source target : List UInt8) (b : UInt8) : UInt8 :=
  match source.findIdx? (· == b) with
  | some i => (target[i]?.orElse fun _ => target.getLast?).getD b
  | none => b

/-- Leaves one of each run of equal bytes that are in the set. -/
def squeeze (set : List UInt8) (previous : Option UInt8) : List UInt8 → List UInt8
  | [] => []
  | b :: rest =>
    if previous = some b ∧ set.contains b then squeeze set previous rest
    else b :: squeeze set (some b) rest

/-- Translates, deletes or squeezes bytes. -/
def tr (arguments : List String) (input : List UInt8) : Effect :=
  match arguments with
  | ["-d", set] => { output := input.filter (!(readSet set).contains ·) }
  | ["-s", set] => { output := squeeze (readSet set) none input }
  | [source, target] => { output := input.map (translate (readSet source) (readSet target)) }
  | _ => { complaint := "tr: missing operand", status := 1 }

/-- Whether a byte is white space. -/
def isBlankByte (b : UInt8) : Bool :=
  b == 32 || (9 ≤ b && b ≤ 13)

/-- The number of words. -/
def wordCount (input : List UInt8) : Nat :=
  ((input.splitBy fun a b => isBlankByte a == isBlankByte b).filter fun run =>
    !run.head?.any isBlankByte).length

/-- Counts lines, words and bytes. -/
def wc (arguments : List String) (input : List UInt8) : Effect :=
  let counts := [("-l", input.countP (· == 10)), ("-w", wordCount input), ("-c", input.length)]
  match arguments with
  | [option] =>
    match counts.lookup option with
    | some n => { output := bytesOf (toString n ++ "\n").toList }
    | none => { complaint := s!"wc: invalid option {option}", status := 1 }
  | _ =>
    let columns := counts.map fun (_, n) => widen 7 false ' ' (toString n).toList
    { output := bytesOf (joinWith [' '] columns) ++ lineFeed }

/-- The number that the options of `head` or `tail` give, ten by default. -/
def lineLimit : List String → Nat
  | ["-n", n] => ((Arithmetic.integer? n.toList).getD 10).natAbs
  | [option] => ((Arithmetic.integer? (option.toList.filter Char.isDigit)).getD 10).natAbs
  | _ => 10

/-- The lines in the order of their bytes. -/
def sortLines (arguments : List String) (input : List UInt8) : List (List UInt8) :=
  let lines := (inputLines input).map fun line => line.filter (· ≠ 10)
  let le (a b : List UInt8) : Bool := decide (a ≤ b)
  let number (line : List UInt8) : Int :=
    (Arithmetic.integer? ((ofUtf8Lossy line).takeWhile fun c => c.isDigit || c == '-')).getD 0
  let lines :=
    if arguments.contains "-n" then lines.mergeSort fun a b => decide (number a ≤ number b)
    else lines.mergeSort le
  let lines := if arguments.contains "-u" then lines.eraseReps else lines
  if arguments.contains "-r" then lines.reverse else lines

/-- The integers from one to another one. -/
def integersBetween (first last : Int) : List Int :=
  (List.range (last + 1 - first).toNat).map fun i => first + Int.ofNat i

/-- Whether the statement that the arguments of `test` make is true. -/
def holds? : List String → Option Bool
  | "!" :: rest => (holds? rest).map (!·)
  | [] => some false
  | [a] => some (a ≠ "")
  | ["-n", a] => some (a ≠ "")
  | ["-z", a] => some (a == "")
  | [a, "=", b] | [a, "==", b] => some (a == b)
  | [a, "!=", b] => some (a ≠ b)
  | [a, operator, b] => do
    let x ← Arithmetic.integer? a.toList
    let y ← Arithmetic.integer? b.toList
    match operator with
    | "-eq" => some (x == y)
    | "-ne" => some (x ≠ y)
    | "-lt" => some (decide (x < y))
    | "-le" => some (decide (x ≤ y))
    | "-gt" => some (decide (y < x))
    | "-ge" => some (decide (y ≤ x))
    | _ => none
  | _ => none

/-- The effect of a test. -/
def test (arguments : List String) : Effect :=
  match holds? arguments with
  | some true => {}
  | some false => { status := 1 }
  | none => { status := 2 }

/-- The effect of the utility of a name, if there is one. -/
def utility? (family : Family) (name : String) (arguments : List String) (input : List UInt8) :
    Option Effect :=
  match name with
  | ":" | "true" | "sleep" => some {}
  | "false" => some { status := 1 }
  | "echo" => some (echo family arguments)
  | "printf" =>
    match arguments with
    | template :: rest => some { output := formatAll (rest.length + 1) template.toList rest }
    | [] => some { complaint := "printf: usage: printf format [arg ...]", status := 2 }
  | "test" => some (test arguments)
  | "[" =>
    if arguments.getLast? = some "]" then some (test arguments.dropLast)
    else some { complaint := "[: missing ]", status := 2 }
  | "cat" => some { output := input }
  | "tr" => some (tr arguments input)
  | "wc" => some (wc arguments input)
  | "head" => some { output := ((inputLines input).take (lineLimit arguments)).flatten }
  | "tail" =>
    let lines := inputLines input
    some { output := (lines.drop (lines.length - lineLimit arguments)).flatten }
  | "sort" => some { output := (sortLines arguments input).flatMap (· ++ lineFeed) }
  | "uniq" => some { output := (inputLines input).eraseReps.flatten }
  | "rev" =>
    some { output := (inputLines input).flatMap fun line =>
      let ends := if line.getLast? = some 10 then lineFeed else []
      (line.filter (· ≠ 10)).reverse ++ ends }
  | "seq" =>
    let numbers := arguments.filterMap fun a => Arithmetic.integer? a.toList
    let (first, last) :=
      match numbers with
      | [last] => (1, last)
      | [first, last] => (first, last)
      | _ => (1, 0)
    some { output := (integersBetween first last).flatMap fun i =>
      bytesOf (toString i).toList ++ lineFeed }
  | _ => none

end PromptPipeline.Shell
