import PromptPipeline.Json.Value

/-!
# Typed JSON

Decoders for the values that records of the program are made of. A record may be written as an
object, with members in any order and members of other names beside them, or as an array of its
members in their fixed order; a member may not be repeated. A choice is written as its name, or as
an object with that one name and no content.
-/

namespace PromptPipeline.Json

/-- A string. -/
def string? : Json → Option String
  | .string s => some s
  | _ => none

/-- A truth value. -/
def bool? : Json → Option Bool
  | .bool b => some b
  | _ => none

/-- An integer from zero up to the limit. -/
def natBelow? (limit : Nat) : Json → Option Nat
  | .number (.natural n) => if n < limit then some n else none
  | _ => none

/-- A 32-bit number. -/
def word? (j : Json) : Option UInt32 :=
  (natBelow? UInt32.size j).map .ofNat

/-- A double precision number. -/
def real? : Json → Option Binary64
  | .number (.natural n) => some (.ofNat n)
  | .number (.minus n) => some (Binary64.ofNat n).neg
  | .number (.real x) => some x
  | _ => none

/-- A list. -/
def list? {α : Type} (decode : Json → Option α) : Json → Option (List α)
  | .array items => items.mapM decode
  | _ => none

/-- A value, or nothing for `null`. -/
def nullable? {α : Type} (decode : Json → Option α) : Json → Option (Option α)
  | .null => some none
  | j => (decode j).map some

/-- The choice whose name is given in the table. -/
def choice? {α : Type} (table : List (String × α)) : Json → Option α
  | .string s => table.lookup s
  | .object [(name, .null)] => table.lookup name
  | _ => none

/-- The members of a record with the given member names. -/
def record? (names : List String) : Json → Option (List (String × Json))
  | .object members =>
    if names.all fun name => (membersNamed members name).length ≤ 1 then some members else none
  | .array items => if items.length ≤ names.length then some (names.zip items) else none
  | _ => none

/-- Whether a record has no members but those with the given names. -/
def hasOnly (names : List String) : Json → Bool
  | .object members => members.all fun m => names.contains m.1
  | _ => true

/-- A member that must be there. -/
def required? {α : Type} (members : List (String × Json)) (name : String)
    (decode : Json → Option α) : Option α :=
  (members.lookup name).bind decode

/-- A member that has a value even if it is not there. -/
def withDefault? {α : Type} (members : List (String × Json)) (name : String) (default : α)
    (decode : Json → Option α) : Option α :=
  match members.lookup name with
  | some j => decode j
  | none => some default

/-- A member that may be missing or `null`. -/
def optional? {α : Type} (members : List (String × Json)) (name : String)
    (decode : Json → Option α) : Option (Option α) :=
  withDefault? members name none (nullable? decode)

/-- The member for a value that is there, or no member. -/
def present {α : Type} (name : String) (encode : α → Json) : Option α → List (String × Json)
  | some a => [(name, encode a)]
  | none => []

/-- The member for a list with items, or no member. -/
def nonempty {α : Type} (name : String) (encode : α → Json) : List α → List (String × Json)
  | [] => []
  | items => [(name, .array (items.map encode))]

end PromptPipeline.Json
