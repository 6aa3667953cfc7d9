import PromptPipeline.Text.Blank
import PromptPipeline.Text.Letter

/-!
# Tokens of a JavaScript script

The tokens that matter for telling which names a script reads: identifiers and the punctuation
around them. Strings, comments, numbers, regular expressions and the text of template literals
leave no token; the code inside the interpolations of a template literal does.
-/

namespace PromptPipeline.JavaScript

open Text

/-- Punctuation. Everything that is not told apart is an operator. -/
inductive Punctuation where
  | openRound
  | closeRound
  | openSquare
  | closeSquare
  | openCurly
  | closeCurly
  | comma
  | semicolon
  | colon
  | dot
  | arrow
  | spread
  | operator
  deriving DecidableEq, Repr

/-- A token. -/
inductive Token where
  | identifier (name : String)
  | punctuation (p : Punctuation)
  deriving DecidableEq, Repr

/-- The words of the language, which are never names of variables. -/
def keywords : List String :=
  ["async", "await", "break", "case", "catch", "class", "const", "continue", "debugger",
    "default", "delete", "do", "else", "export", "extends", "false", "finally", "for",
    "function", "get", "if", "import", "in", "instanceof", "let", "new", "null", "of", "return",
    "set", "static", "super", "switch", "this", "throw", "true", "try", "typeof", "undefined",
    "var", "void", "while", "with", "yield", "NaN", "Infinity"]

/-- Whether a character may start an identifier. -/
def isIdentifierStart (c : Char) : Bool :=
  isAlphabetic c || c == '_' || c == '$'

/-- Whether a character may continue an identifier. -/
def isIdentifierPart (c : Char) : Bool :=
  isAlphanumeric c || c == '_' || c == '$'

/-- The punctuation that one character is. -/
def Punctuation.ofChar (c : Char) : Punctuation :=
  match c with
  | '(' => .openRound
  | ')' => .closeRound
  | '[' => .openSquare
  | ']' => .closeSquare
  | '\x7b' => .openCurly
  | '\x7d' => .closeCurly
  | ',' => .comma
  | ';' => .semicolon
  | ':' => .colon
  | '.' => .dot
  | _ => .operator

/-- Whether the punctuation opens a bracket. -/
def Punctuation.opens : Punctuation → Bool
  | .openRound | .openSquare | .openCurly => true
  | _ => false

/-- Whether the punctuation closes a bracket. -/
def Punctuation.closes : Punctuation → Bool
  | .closeRound | .closeSquare | .closeCurly => true
  | _ => false

/-- The text after a block comment whose opening is gone. -/
def afterBlockComment : List Char → List Char
  | '*' :: '/' :: rest => rest
  | _ :: rest => afterBlockComment rest
  | [] => []

/-- The text after a string whose opening quote is gone. A line feed ends it too. -/
def afterString (quote : Char) : List Char → List Char
  | '\\' :: _ :: rest => afterString quote rest
  | c :: rest => if c = quote ∨ c = '\n' then rest else afterString quote rest
  | [] => []

/-- The text after a stretch of template text: after the closing quote (`false`), or after the
opening of an interpolation (`true`). -/
def afterTemplateText : List Char → List Char × Bool
  | '\\' :: _ :: rest => afterTemplateText rest
  | '\x60' :: rest => (rest, false)
  | '$' :: '\x7b' :: rest => (rest, true)
  | _ :: rest => afterTemplateText rest
  | [] => ([], false)

/-- The text after a regular expression whose opening slash is gone. A slash in a class of
characters does not end it; a line feed does, and stays. -/
def afterRegex (inClass : Bool) : List Char → List Char
  | '\\' :: _ :: rest => afterRegex inClass rest
  | '[' :: rest => afterRegex true rest
  | ']' :: rest => afterRegex false rest
  | '\n' :: rest => '\n' :: rest
  | c :: rest =>
    if c = '/' ∧ !inClass then rest.dropWhile Char.isAlpha else afterRegex inClass rest
  | [] => []

/-- Whether a slash after the given token starts a regular expression. -/
def startsRegex : Option Token → Bool
  | none => true
  | some (.identifier name) => keywords.contains name && name != "this"
  | some (.punctuation p) => !p.closes

/-- What the reader of tokens remembers: the latest token, how many curly brackets are open, and
at which number of open brackets each open interpolation started, the innermost first. -/
structure LexerState where
  latest : Option Token
  braces : Nat
  interpolations : List Nat

/-- The state after a token. -/
def LexerState.push (st : LexerState) (token : Token) : LexerState :=
  { st with latest := some token }

/-- The state after a stretch of template text, which may have opened an interpolation. -/
def LexerState.enter (st : LexerState) (opened : Bool) : LexerState :=
  if opened then { st with interpolations := st.braces :: st.interpolations } else st

/-- The state after the closing bracket of an interpolation. -/
def LexerState.leave (st : LexerState) : LexerState :=
  { st with interpolations := st.interpolations.tail }

/-- The state after a bracket that is no part of a template. -/
def LexerState.count (st : LexerState) (c : Char) : LexerState :=
  if c = '\x7b' then { st with braces := st.braces + 1 }
  else if c = '\x7d' then { st with braces := st.braces - 1 }
  else st

/-- The text after something that starts with the character `c` before `rest` and leaves no token,
and the state after it. -/
def skipped? (st : LexerState) (c : Char) (rest : List Char) : Option (List Char × LexerState) :=
  if isBlank c then some (rest, st)
  else if c = '/' ∧ rest.head? = some '/' then some (rest.dropWhile (· ≠ '\n'), st)
  else if c = '/' ∧ rest.head? = some '*' then some (afterBlockComment rest.tail, st)
  else if c = '\x27' ∨ c = '"' then some (afterString c rest, st)
  else if c = '\x60' then
    some ((afterTemplateText rest).1, st.enter (afterTemplateText rest).2)
  else if c = '\x7d' ∧ st.interpolations.head? = some st.braces then
    some ((afterTemplateText rest).1, st.leave.enter (afterTemplateText rest).2)
  else if c = '/' ∧ startsRegex st.latest then some (afterRegex false rest, st)
  else if c.isDigit then some (rest.dropWhile fun d => isIdentifierPart d || d == '.', st)
  else none

/-- The punctuation that starts with the character `c` before `rest`, and the text after it. -/
def punctuationAt (c : Char) (rest : List Char) : Punctuation × List Char :=
  match c, rest with
  | '=', '>' :: after => (.arrow, after)
  | '.', '.' :: '.' :: after => (.spread, after)
  | '?', '.' :: after => (.dot, after)
  | _, '=' :: after =>
    if c = '=' ∨ c = '!' ∨ c = '<' ∨ c = '>' then (.operator, after) else (.ofChar c, rest)
  | _, _ => (.ofChar c, rest)

/-- The token that starts with the character `c` before `rest`, and the text after it. -/
def tokenAt (c : Char) (rest : List Char) : Token × List Char :=
  if isIdentifierStart c then
    (.identifier (.ofList (c :: rest.takeWhile isIdentifierPart)), rest.dropWhile isIdentifierPart)
  else
    (.punctuation (punctuationAt c rest).1, (punctuationAt c rest).2)

theorem length_afterBlockComment_le : ∀ s : List Char,
    (afterBlockComment s).length ≤ s.length := by
  intro s
  fun_induction afterBlockComment s with
  | case1 rest => simp; omega
  | case2 c rest h ih => simp; omega
  | case3 => simp

theorem length_afterString_le (quote : Char) : ∀ s : List Char,
    (afterString quote s).length ≤ s.length := by
  intro s
  fun_induction afterString quote s with
  | case1 c rest ih => simp; omega
  | case2 c rest h hq => simp
  | case3 c rest h hq ih => simp; omega
  | case4 => simp

theorem length_afterTemplateText_le : ∀ s : List Char,
    (afterTemplateText s).1.length ≤ s.length := by
  intro s
  fun_induction afterTemplateText s with
  | case1 c rest ih => simp; omega
  | case2 rest => simp
  | case3 rest => simp; omega
  | case4 c rest h1 h2 h3 ih => simp; omega
  | case5 => simp

theorem length_dropWhile_le {p : Char → Bool} (s : List Char) :
    (s.dropWhile p).length ≤ s.length :=
  (List.dropWhile_sublist p).length_le

theorem length_afterRegex_le (inClass : Bool) : ∀ s : List Char,
    (afterRegex inClass s).length ≤ s.length := by
  intro s
  fun_induction afterRegex inClass s with
  | case1 inClass c rest ih => simp; omega
  | case2 inClass rest ih => simp; omega
  | case3 inClass rest ih => simp; omega
  | case4 inClass rest => simp
  | case5 inClass c rest h1 h2 h3 h4 hc =>
    have := length_dropWhile_le (p := Char.isAlpha) rest
    simp; omega
  | case6 inClass c rest h1 h2 h3 h4 hc ih => simp; omega
  | case7 => simp

theorem length_skipped?_le {st next : LexerState} {c : Char} {rest after : List Char}
    (h : skipped? st c rest = some (after, next)) : after.length ≤ rest.length := by
  have tail_le : rest.tail.length ≤ rest.length := by cases rest <;> simp
  unfold skipped? at h
  repeat' split at h
  all_goals
    simp only [Option.some.injEq, Prod.mk.injEq, reduceCtorEq] at h
    try obtain ⟨rfl, -⟩ := h
  · exact Nat.le_refl _
  · exact length_dropWhile_le _
  · exact Nat.le_trans (length_afterBlockComment_le _) tail_le
  · exact length_afterString_le _ _
  · exact length_afterTemplateText_le _
  · exact length_afterTemplateText_le _
  · exact length_afterRegex_le _ _
  · exact length_dropWhile_le _

theorem length_punctuationAt_le (c : Char) (rest : List Char) :
    (punctuationAt c rest).2.length ≤ rest.length := by
  unfold punctuationAt
  split
  · simp
  · simp; omega
  · simp
  · split <;> simp
  · exact Nat.le_refl _

theorem length_tokenAt_le (c : Char) (rest : List Char) :
    (tokenAt c rest).2.length ≤ rest.length := by
  unfold tokenAt
  split
  · exact length_dropWhile_le _
  · exact length_punctuationAt_le _ _

/-- The tokens of the text, read from the given state. -/
def tokensFrom (st : LexerState) (s : List Char) : List Token :=
  match s with
  | [] => []
  | c :: rest =>
    match _h : skipped? st c rest with
    | some (after, next) => tokensFrom next after
    | none =>
      (tokenAt c rest).1 ::
        tokensFrom ((st.push (tokenAt c rest).1).count c) (tokenAt c rest).2
termination_by s.length
decreasing_by
  · have := length_skipped?_le _h
    simp; omega
  · have := length_tokenAt_le c rest
    simp; omega

/-- The tokens of a script. -/
def tokens (script : List Char) : List Token :=
  tokensFrom ⟨none, 0, []⟩ script

end PromptPipeline.JavaScript
