import PromptPipeline.Files.Tree
import PromptPipeline.Text.Line

/-!
# Paths

A path is a text that leads from a working directory, or from the root, to a location. The same
location has many paths; messages show the path as it was given.
-/

namespace PromptPipeline.FilePath

open Text

/-- The parts of a path between its slashes. -/
def parts (path : String) : List String :=
  (splitWhere (· == '/') path.toList).map .ofList

/-- Follows one part of a path. -/
def follow (l : Location) (part : String) : Location :=
  if part = "" ∨ part = "." then l
  else if part = ".." then l.dropLast
  else l ++ [part]

/-- Whether the path starts at the root. -/
def isAbsolute (path : String) : Bool :=
  path.toList.head? == some '/'

/-- Where a path leads from a working directory. -/
def resolve (base : Location) (path : String) : Location :=
  (parts path).foldl follow (if isAbsolute path then [] else base)

/-- The path with more parts after it. -/
def join (path rest : String) : String :=
  if isAbsolute rest ∨ path = "" then rest
  else if path.toList.getLast? = some '/' then path ++ rest
  else path ++ "/" ++ rest

/-- The parts of a path that say something. -/
def names (path : String) : List String :=
  (parts path).filter fun part => part ≠ "" ∧ part ≠ "."

/-- The last name of a path, if it ends with one. -/
def fileName? (path : String) : Option String :=
  match (names path).getLast? with
  | some ".." => none
  | name => name

/-- Whether a list of names comes before another one, or is the same. -/
def namesLe : List String → List String → Bool
  | [], _ => true
  | _ :: _, [] => false
  | a :: rest, b :: others => a < b || (a == b && namesLe rest others)

/-- Whether a path comes before another one, or is the same, name by name. -/
def le (path other : String) : Bool :=
  namesLe (names path) (names other)

end PromptPipeline.FilePath
