import PromptPipeline.Adapter.Session
import PromptPipeline.Dialect.Block
import PromptPipeline.Execution.Json
import PromptPipeline.Expectation.Count

/-!
# Text functions

The functions that runners offer for postprocessing. Most of them clean the answers of models: they
trim, take off quotes and fences, or pick the one fenced block out of a text.
-/

namespace PromptPipeline

namespace Answer

open Text

/-- Whether the line starts with the mark of a fence. -/
def isFence (line : List Char) : Bool :=
  (FenceMark.ofLine? line).isSome

/-- The lines of a text before its first fence, between the first two, and after the second. -/
structure Fenced where
  before : List (List Char)
  inside : List (List Char)
  after : List (List Char)
  deriving DecidableEq

/-- The parts of a text that has exactly two fences, else the number of its fences. -/
def fenced (text : List Char) : Except Nat Fenced :=
  let lines := splitWhere (· == '\n') text
  let count := lines.countP isFence
  if count = 2 then
    let rest := (lines.dropWhile (!isFence ·)).tail
    .ok { before := lines.takeWhile (!isFence ·)
          inside := rest.takeWhile (!isFence ·)
          after := (rest.dropWhile (!isFence ·)).tail }
  else .error count

/-- The lines inside the fences without the line feeds around them. -/
def Fenced.content (f : Fenced) : List Char :=
  trimWhile (· == '\n') (joinLines f.inside)

/-- The text without the fences around the whole of it. -/
def trimCodeBlock (text : List Char) : List Char :=
  let text := trim text
  match fenced text with
  | .ok f => if f.before = [] ∧ f.after = [] then f.content else text
  | .error _ => text

/-- The text without a fence at its end. -/
def trimEndOfCodeBlock (text : List Char) : List Char :=
  let text := trimEnd text
  match dropEnd? FenceMark.backquotes.chars text with
  | some rest => trimEnd rest
  | none => text

/-- The marks before and after a quotation. -/
def quotationMarks : List (Char × Char) :=
  [('"', '"'), ('\x27', '\x27'), ('“', '”'), ('„', '“'), ('«', '»')]

/-- What stands between two marks that open and close a text. -/
def unquote? (text : List Char) (marks : Char × Char) : Option (List Char) :=
  (dropStart? [marks.1] text).bind (dropEnd? [marks.2])

/-- The text without the quotation marks around it. -/
def removeQuotes (text : List Char) : List Char :=
  let text := trim text
  (quotationMarks.findSome? (unquote? text)).getD text

/-- The marks of the quotations that can have a label. -/
def labelledMarks : List (Char × Char) :=
  [('"', '"'), ('\x27', '\x27'), ('“', '”')]

/-- The most characters that a label has. -/
def maxLabel : Nat := 40

/-- Whether a text can be the label of a quotation. -/
def isLabel (text : List Char) : Bool :=
  1 ≤ text.length && text.length ≤ maxLabel && text.all fun c => c ≠ '"' && c ≠ '\n'

/-- The quotation in a text that consists of a label, a colon and a quotation. -/
def labelledQuotation? (text : List Char) : Option (List Char) := do
  let (label, rest) ← splitOnce? (· == ':') text
  guard (isLabel label)
  let rest := trimStart rest
  labelledMarks.findSome? fun marks => do
    let inner ← unquote? rest marks
    guard (!inner.contains marks.2)
    some inner

/-- The quotation in a text, with or without a label. -/
def unwrapResult (text : List Char) : List Char :=
  let text := trim text
  (labelledQuotation? text).getD (removeQuotes text)

/-- The text with each run of white space replaced by one space. -/
def collapseBlanks (afterBlank : Bool) : List Char → List Char
  | [] => []
  | c :: rest =>
    if isBlank c then
      if afterBlank then collapseBlanks true rest else ' ' :: collapseBlanks true rest
    else c :: collapseBlanks false rest

/-- The words of a text with one space between each two. -/
def normalizeWhitespaces (text : List Char) : List Char :=
  collapseBlanks false (trim text)

/-- The content of the only fenced block, or what is wrong. -/
def extractBlock (text : List Char) : Except String (List Char) :=
  match fenced text with
  | .ok f => .ok f.content
  | .error 0 => .error "No code block found"
  | .error n => .error s!"Expected exactly one code block, found {n / 2}"

end Answer

/-- The functions that are always on offer. -/
inductive BuiltIn where
  | trim
  | trimCodeBlock
  | trimEndOfCodeBlock
  | removeQuotes
  | unwrapResult
  | normalizeWhitespaces
  | extractBlock
  deriving DecidableEq

namespace BuiltIn

/-- The functions by their names. -/
def names : List (String × BuiltIn) :=
  [("trim", trim), ("trimCodeBlock", trimCodeBlock), ("trimEndOfCodeBlock", trimEndOfCodeBlock),
    ("removeQuotes", removeQuotes), ("unwrapResult", unwrapResult),
    ("normalizeWhitespaces", normalizeWhitespaces), ("extractBlock", extractBlock)]

/-- What the function makes of a text, or why it fails. -/
def apply (f : BuiltIn) (value : String) : Except String String :=
  let text (g : List Char → List Char) : Except String String := .ok (.ofList (g value.toList))
  match f with
  | trim => text Text.trim
  | trimCodeBlock => text Answer.trimCodeBlock
  | trimEndOfCodeBlock => text Answer.trimEndOfCodeBlock
  | removeQuotes => text Answer.removeQuotes
  | unwrapResult => text Answer.unwrapResult
  | normalizeWhitespaces => text Answer.normalizeWhitespaces
  | extractBlock => (Answer.extractBlock value.toList).map .ofList

end BuiltIn

/-- A function on texts that sees the parameters of the task. -/
inductive TextFunction where
  | builtIn (f : BuiltIn)
  /-- Puts a text before the value. -/
  | addBefore (text : String)
  /-- Puts counts after the value. -/
  | addCounts
  /-- Puts the parameters after the value. -/
  | addParameters
  /-- Fails, as often as given or always, and gives the value after that. -/
  | fail (reason : String) (times : Option Nat)
  /-- Sets the cancellation signal and gives the value. -/
  | cancel
  deriving DecidableEq

namespace TextFunction

/-- Applies the function; it may change. -/
def apply (value : String) (parameters : Bindings String) :
    TextFunction → StateM Session (Except String String × TextFunction)
  | builtIn f => return (f.apply value, builtIn f)
  | addBefore text => return (.ok (text ++ value), addBefore text)
  | addCounts =>
    let characters := TextUnit.characters.count value
    let words := TextUnit.words.count value
    return (.ok s!"{value} ({characters} characters, {words} words)", addCounts)
  | addParameters => return (.ok (value ++ (textsJson parameters).compact), addParameters)
  | fail reason none => return (.error reason, fail reason none)
  | fail reason (some 0) => return (.ok value, fail reason (some 0))
  | fail reason (some (n + 1)) => return (.error reason, fail reason (some n))
  | cancel => do
    Session.cancel
    return (.ok value, cancel)

end TextFunction

end PromptPipeline
