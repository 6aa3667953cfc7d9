import PromptPipeline.Document.Kind
import PromptPipeline.Text.Line

/-!
# Counting text

How many characters, words, sentences, lines, paragraphs and pages a text has. Words are separated
by white space, sentences by the marks that end one, paragraphs by blank lines, and a page holds a
fixed number of words. Blank lines and blank sentences do not count.
-/

namespace PromptPipeline

namespace Text

/-- Whether a text has no character but white space. -/
def isBlankText (s : List Char) : Bool :=
  s.all isBlank

/-- Whether the character ends a sentence. -/
def endsSentence (c : Char) : Bool :=
  c == '.' || c == '!' || c == '?'

/-- The number of words that fill a page. -/
def wordsPerPage : Nat := 250

/-- The number of words. -/
def countWords (s : List Char) : Nat :=
  (words s).length

/-- The number of sentences. -/
def countSentences (s : List Char) : Nat :=
  ((splitWhere endsSentence s).filter (!isBlankText ·)).length

/-- The number of lines. -/
def countLines (s : List Char) : Nat :=
  ((lines s).filter (!isBlankText ·)).length

/-- The number of paragraphs that start in the lines; `inside` says whether the line before them
belongs to a paragraph. -/
def paragraphStarts (inside : Bool) : List (List Char) → Nat
  | [] => 0
  | line :: rest =>
    if isBlankText line then paragraphStarts false rest
    else (if inside then 0 else 1) + paragraphStarts true rest

/-- The number of paragraphs. -/
def countParagraphs (s : List Char) : Nat :=
  paragraphStarts false (lines s)

/-- The number of pages, of which the last one may be filled in part. -/
def countPages (s : List Char) : Nat :=
  (countWords s + (wordsPerPage - 1)) / wordsPerPage

end Text

/-- How much of the unit a text has. -/
def TextUnit.count (unit : TextUnit) (text : String) : Nat :=
  match unit with
  | .characters => text.toList.length
  | .words => Text.countWords text.toList
  | .sentences => Text.countSentences text.toList
  | .lines => Text.countLines text.toList
  | .paragraphs => Text.countParagraphs text.toList
  | .pages => Text.countPages text.toList

end PromptPipeline
