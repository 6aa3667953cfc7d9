import PromptPipeline.Dialect.Block

/-!
# The outline of a source

The blocks of a source under its title: the preamble, and a section for each heading of the second
level. A deeper heading is a paragraph of its section, so the content of a section has no headings.
-/

namespace PromptPipeline

/-- A block below a title or a section heading. -/
inductive Content where
  | item (text : String) (line : Nat)
  | code (language : Option String) (content : String) (line : Nat)
  | arrow (text : String) (line : Nat)
  | paragraph (text : String) (line : Nat)
  deriving DecidableEq

/-- A heading of the second level and what stands below it. -/
structure Section where
  title : String
  line : Nat
  contents : List Content
  deriving DecidableEq

/-- A source under its title. -/
structure Outline where
  title : String
  preamble : List Content
  sections : List Section
  deriving DecidableEq

namespace Outline

/-- Groups blocks into what stands before the first heading of the second level and the sections
from there on. -/
def group : List Block → Result (List Content × List Section)
  | [] => .ok ([], [])
  | .heading 1 _ line :: _ => .error (.dialect line .secondTitle)
  | .heading 2 text line :: rest => do
    let (contents, sections) ← group rest
    .ok ([], ⟨text, line, contents⟩ :: sections)
  | .heading _ text line :: rest => do
    let (contents, sections) ← group rest
    .ok (.paragraph text line :: contents, sections)
  | .item text line :: rest => do
    let (contents, sections) ← group rest
    .ok (.item text line :: contents, sections)
  | .code language content line :: rest => do
    let (contents, sections) ← group rest
    .ok (.code language content line :: contents, sections)
  | .arrow text line :: rest => do
    let (contents, sections) ← group rest
    .ok (.arrow text line :: contents, sections)
  | .paragraph text line :: rest => do
    let (contents, sections) ← group rest
    .ok (.paragraph text line :: contents, sections)

/-- The outline of blocks, the first of which must be the title. -/
def ofBlocks : List Block → Result Outline
  | .heading 1 title _ :: rest => do
    let (preamble, sections) ← group rest
    .ok ⟨title, preamble, sections⟩
  | first :: _ => .error (.dialect first.line .missingTitle)
  | [] => .error (.dialect 1 .emptySource)

/-- The outline of a source. -/
def ofSource (source : String) : Result Outline := do
  ofBlocks (← Block.ofSource source)

end Outline

end PromptPipeline
