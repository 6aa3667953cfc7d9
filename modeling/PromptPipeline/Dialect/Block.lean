import PromptPipeline.Error
import PromptPipeline.Text.Line

/-!
# Blocks of a source

A source is read line by line into blocks: headings, list items, fenced code, arrows and
paragraphs. Outside a fence a line is known by its beginning (`LineKind.ofLine`); inside a fence
every line is code up to the first one that is the closing mark. Each block knows the line on which
it starts.
-/

namespace PromptPipeline

open Text

/-- One block of a source, with the line on which it starts. -/
inductive Block where
  | heading (level : Nat) (text : String) (line : Nat)
  | item (text : String) (line : Nat)
  | code (language : Option String) (content : String) (line : Nat)
  | arrow (text : String) (line : Nat)
  | paragraph (text : String) (line : Nat)
  deriving DecidableEq

/-- The line on which the block starts. -/
def Block.line : Block → Nat
  | .heading _ _ line | .item _ line | .code _ _ line | .arrow _ line | .paragraph _ line => line

/-- The two marks that fence code. -/
inductive FenceMark where
  | backquotes
  | tildes
  deriving DecidableEq

/-- The characters of the mark. -/
def FenceMark.chars : FenceMark → List Char
  | .backquotes => "```".toList
  | .tildes => "~~~".toList

/-- The mark at the start of a line and the text after it. -/
def FenceMark.ofLine? (line : List Char) : Option (FenceMark × List Char) :=
  match dropStart? FenceMark.backquotes.chars line with
  | some rest => some (.backquotes, rest)
  | none => (dropStart? FenceMark.tildes.chars line).map (.tildes, ·)

/-- What a line outside a fence is. -/
inductive LineKind where
  | blank
  | fence (mark : FenceMark) (info : List Char)
  | heading (level : Nat) (text : List Char)
  | arrow
  | item (text : List Char)
  | prose
  deriving DecidableEq

/-- The level and text of a heading: one to six number signs and a space. -/
def headingOfLine? (line : List Char) : Option (Nat × List Char) :=
  let level := (line.takeWhile (· == '#')).length
  let rest := line.dropWhile (· == '#')
  match rest with
  | ' ' :: _ => if 1 ≤ level ∧ level ≤ 6 then some (level, trim rest) else none
  | _ => none

/-- The text of a list item: a dash, asterisk or plus sign and a space. -/
def itemOfLine? (line : List Char) : Option (List Char) :=
  match line with
  | c :: ' ' :: rest => if c = '-' ∨ c = '*' ∨ c = '+' then some (trim rest) else none
  | _ => none

/-- What a line without surrounding white space is. -/
def LineKind.ofLine (line : List Char) : LineKind :=
  match line with
  | [] => .blank
  | '-' :: '>' :: _ => .arrow
  | _ =>
    match FenceMark.ofLine? line with
    | some (mark, info) => .fence mark (trim info)
    | none =>
      match headingOfLine? line with
      | some (level, text) => .heading level text
      | none =>
        match itemOfLine? line with
        | some text => .item text
        | none => .prose

/-- Where the reader of blocks stands: in a paragraph of some lines (none between blocks), latest
line first, or inside a fence, latest line of code first. -/
inductive BlockState where
  | prose (lines : List (List Char)) (start : Nat)
  | fenced (mark : FenceMark) (language : Option String) (code : List (List Char)) (start : Nat)

/-- The paragraph that ends here, if there is one. -/
def closeParagraph (lines : List (List Char)) (start : Nat) : List Block :=
  if lines = [] then [] else [.paragraph (.ofList (joinLines lines.reverse)) start]

/-- The language that the text after an opening mark names. -/
def languageOfInfo (info : List Char) : Option String :=
  if info = [] then none else some (.ofList info)

namespace BlockState

/-- Reads line number `n`; gives the blocks that are complete now. -/
def step (n : Nat) (line : List Char) : BlockState → List Block × BlockState
  | .fenced mark language code start =>
    if trim line = mark.chars then
      ([.code language (.ofList (joinLines code.reverse)) start], .prose [] 0)
    else ([], .fenced mark language (line :: code) start)
  | .prose lines start =>
    let text := trim line
    let done := closeParagraph lines start
    match LineKind.ofLine text with
    | .blank => (done, .prose [] 0)
    | .fence mark info => (done, .fenced mark (languageOfInfo info) [] n)
    | .heading level title => (done ++ [.heading level (.ofList title) n], .prose [] 0)
    | .arrow => (done ++ [.arrow (.ofList text) n], .prose [] 0)
    | .item item => (done ++ [.item (.ofList item) n], .prose [] 0)
    | .prose => ([], .prose (text :: lines) (if lines = [] then n else start))

/-- The blocks of the lines from number `n` on. -/
def blocks (n : Nat) : List (List Char) → BlockState → Result (List Block)
  | [], .prose lines start => .ok (closeParagraph lines start)
  | [], .fenced _ _ _ start => .error (.dialect start .unclosedFence)
  | line :: rest, state =>
    let (done, next) := state.step n line
    (blocks (n + 1) rest next).map (done ++ ·)

end BlockState

/-- The blocks of a source. -/
def Block.ofSource (source : String) : Result (List Block) :=
  BlockState.blocks 1 (lines source.toList) (.prose [] 0)

end PromptPipeline
