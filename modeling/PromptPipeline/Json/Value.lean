import PromptPipeline.Decimal.Binary64
import PromptPipeline.Bindings

/-!
# JSON values

A JSON value keeps the members of an object in the order in which they stand, repeated names
included. `Json.normal` is the value that remains when members are looked up by name only.
-/

namespace PromptPipeline

/-- A JSON number: an integer that fits 64 bits, or a double precision number. -/
inductive Json.Number where
  | natural (n : Nat)
  | minus (n : Nat)
  | real (x : Binary64)
  deriving DecidableEq

/-- A JSON value. -/
inductive Json where
  | null
  | bool (b : Bool)
  | number (n : Json.Number)
  | string (s : String)
  | array (items : List Json)
  | object (members : List (String × Json))
  deriving Inhabited

namespace Json

/-- The JSON number of a natural number. -/
def ofNat (n : Nat) : Json := .number (.natural n)

/-- An array of strings. -/
def ofStrings (names : List String) : Json := .array (names.map .string)

mutual

/-- The members by name in increasing order, at every depth; of members with one name the last one
counts. -/
def normal : Json → Json
  | .array items => .array (normalItems items)
  | .object members => .object (normalMembers members).toList
  | .null => .null
  | .bool b => .bool b
  | .number n => .number n
  | .string s => .string s

/-- The normal forms of the items. -/
def normalItems : List Json → List Json
  | [] => []
  | item :: rest => normal item :: normalItems rest

/-- The normal forms of the members, by name. -/
def normalMembers : List (String × Json) → Bindings Json
  | [] => .empty
  | (name, value) :: rest =>
    let later := normalMembers rest
    if later.contains name then later else later.insert name (normal value)

end

/-- The values of the members with the given name. -/
def membersNamed (members : List (String × Json)) (name : String) : List Json :=
  (members.filter (·.1 == name)).map (·.2)

/-- The first member with the given name, of an object. -/
def member? (j : Json) (name : String) : Option Json :=
  match j with
  | .object members => members.lookup name
  | _ => none

end Json

end PromptPipeline
