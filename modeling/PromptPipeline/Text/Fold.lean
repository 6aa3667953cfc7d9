import PromptPipeline.Text.Line

/-!
# Case-insensitive keywords

Keywords are ASCII words that match under simple case folding, in which the long s and the Kelvin
sign are the only characters beyond ASCII that are equal to ASCII letters.
-/

namespace PromptPipeline.Text

/-- The case folding of a character, as far as ASCII letters are its result. -/
def foldChar (c : Char) : Char :=
  if c.toNat = 0x17F then 's'
  else if c.toNat = 0x212A then 'k'
  else c.toLower

/-- Whether a word spells the keyword in any case. -/
def spells (keyword : String) (word : List Char) : Bool :=
  word.map foldChar == keyword.toList.map foldChar

/-- Whether a word spells one of the keywords. -/
def spellsAny (keywords : List String) (word : List Char) : Bool :=
  keywords.any (spells · word)

/-- Whether the character folds to an ASCII letter. -/
def foldsToLetter (c : Char) : Bool :=
  (foldChar c).isAlpha

/-- The word in ASCII capitals. -/
def capitals (word : List Char) : String :=
  .ofList (word.map Char.toUpper)

/-- The word in ASCII small letters. -/
def smallLetters (word : List Char) : String :=
  .ofList (word.map Char.toLower)

/-- The first word of a text and the text after the white space that follows it, if the text goes
on after its first word. -/
def firstWord? (s : List Char) : Option (List Char × List Char) :=
  let word := s.takeWhile (!isBlank ·)
  let rest := s.dropWhile (!isBlank ·)
  match rest with
  | [] => none
  | _ => some (word, trimStart rest)

end PromptPipeline.Text
