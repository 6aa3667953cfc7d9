import PromptPipeline.Text.Letter
import PromptPipeline.Text.Lowercase

/-!
# Names of tasks and parameters

A task is named by its title in lowercase, with a dash for everything between two words. A
parameter has an identifier of ASCII letters, digits and underscores for its name.
-/

namespace PromptPipeline

open Text

namespace Name

/-- Spells a title from left to right. `started` says whether the name has a character yet and
`pending` whether something other than letters and digits came since the last one. -/
def ofTitleFrom (started pending : Bool) : List Char → List Char
  | [] => []
  | c :: rest =>
    if isAlphanumeric c then
      (if pending && started then ['-'] else []) ++ lowercaseChar c ++ ofTitleFrom true false rest
    else ofTitleFrom started true rest

/-- The name of the task with this title: its letters and digits in lowercase, with one dash for
each run of other characters between them. -/
def ofTitle (title : String) : String :=
  .ofList (ofTitleFrom false false title.toList)

/-- Whether the character may start the name of a parameter: an ASCII letter or an underscore. -/
def isParameterStart (c : Char) : Bool :=
  c.isAlpha || c == '_'

/-- Whether the character may continue the name of a parameter. -/
def isParameterPart (c : Char) : Bool :=
  c.isAlphanum || c == '_'

/-- Whether the text is the name of a parameter. -/
def isParameter : List Char → Bool
  | [] => false
  | c :: rest => isParameterStart c && rest.all isParameterPart

end Name

end PromptPipeline
