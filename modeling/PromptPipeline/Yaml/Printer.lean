import PromptPipeline.Json.Printer
import PromptPipeline.Yaml.Scalar

/-!
# Writing YAML

A JSON value as a YAML document in block style: the members of an object on lines of their own, the
items of an array after dashes at the indentation of their name.
-/

namespace PromptPipeline.Yaml

/-- A value that is written on one line or as a string, with the end of its line; nothing for a
collection that has items. -/
def leafLine? (indent : Nat) : Json → Option (List Char)
  | .null => some "null\n".toList
  | .bool b => some (Json.boolText b ++ ['\n'])
  | .number n => some (n.text ++ ['\n'])
  | .string s => some (stringLine indent s)
  | .array [] => some "[]\n".toList
  | .object [] => some "\x7b\x7d\n".toList
  | .array _ | .object _ => none

mutual

/-- A value after a dash, with the ends of its lines. -/
def afterDash (indent : Nat) : Json → List Char
  | .array (item :: rest) => ' ' :: itemLines (indent + indentStep) (item :: rest)
  | .object (m :: rest) => ' ' :: memberLines (indent + indentStep) (m :: rest)
  | j => ' ' :: (leafLine? (indent + indentStep) j).getD []

/-- A value after the name of a member, with the ends of its lines. -/
def afterName (indent : Nat) : Json → List Char
  | .array (item :: rest) => '\n' :: spaces indent ++ itemLines indent (item :: rest)
  | .object (m :: rest) =>
    '\n' :: spaces (indent + indentStep) ++ memberLines (indent + indentStep) (m :: rest)
  | j => ' ' :: (leafLine? (indent + indentStep) j).getD []

/-- The items of an array, of which the first one is indented already. -/
def itemLines (indent : Nat) : List Json → List Char
  | [] => []
  | [item] => '-' :: afterDash indent item
  | item :: rest => '-' :: afterDash indent item ++ spaces indent ++ itemLines indent rest

/-- The members of an object, of which the first one is indented already. -/
def memberLines (indent : Nat) : List (String × Json) → List Char
  | [] => []
  | [(name, value)] => name.toList ++ ':' :: afterName indent value
  | (name, value) :: rest =>
    name.toList ++ ':' :: afterName indent value ++ spaces indent ++ memberLines indent rest

end

/-- A value as a document. -/
def document (j : Json) : String :=
  .ofList <|
    match j with
    | .array (item :: rest) => itemLines 0 (item :: rest)
    | .object (m :: rest) => memberLines 0 (m :: rest)
    | j => (leafLine? indentStep j).getD []

end PromptPipeline.Yaml
