/-!
# Values and tables of TOML

What a key of a TOML document stands for, and the tables that the lines of a document build up.
Floating-point numbers, dates and times are kept as they are written. A table may be built by its
own header, implied by the header of a table below it, or built by dotted keys, and that decides
what may still be added to it. Main statements: `assign?_nil`, a key is given a value only once, and
`openTable?_openTable?`, a table has at most one header.
-/

namespace PromptPipeline

/-- A TOML value. The keys of a table are different from one another. -/
inductive Toml where
  | string (s : String)
  | integer (n : Int)
  | float (text : String)
  | boolean (b : Bool)
  | dateTime (text : String)
  | array (items : List Toml)
  | table (members : List (String × Toml))
  deriving Inhabited

namespace Toml

/-- The value of a key, of a table. -/
def member? (t : Toml) (key : String) : Option Toml :=
  match t with
  | .table members => members.lookup key
  | _ => none

/-! ## Tables in the making -/

/-- How a table came to be. -/
inductive TableOrigin where
  /-- By a header of its own. -/
  | header
  /-- On the way to a table that has a header. -/
  | implied
  /-- On the way to the end of a dotted key. -/
  | dotted
  deriving DecidableEq

/-- What a key stands for while the document is read. -/
inductive Node where
  | value (v : Toml)
  | table (origin : TableOrigin) (members : List (String × Node))
  /-- The tables of an array in which each has a header of its own. -/
  | tables (elements : List (List (String × Node)))

/-- The keys of a table with what they stand for. -/
abbrev Members := List (String × Node)

/-- The members with another node for a key. -/
def Members.put (key : String) (node : Node) : Members → Members
  | [] => [(key, node)]
  | (k, n) :: rest => if k = key then (key, node) :: rest else (k, n) :: put key node rest

/-- Changes the last table of an array, if there is one. -/
def changeLast? (change : Members → Option Members) : List Members → Option (List Members)
  | [] => none
  | [last] => (change last).map fun last => [last]
  | first :: rest => (changeLast? change rest).map (first :: ·)

/-- The members with a value at the end of a dotted key. `mayEnd` says whether the last part of the
key may be added right here: it may in the table whose line this is and in tables that dotted keys
have built. -/
def assign? (mayEnd : Bool) (key : String) (v : Toml) : List String → Members → Option Members
  | [], members =>
    if mayEnd && (members.lookup key).isNone then some (members.put key (.value v)) else none
  | part :: path, members =>
    let next? : Option Node :=
      match members.lookup part with
      | none => (assign? true key v path []).map (.table .dotted)
      | some (.table .header _) | some (.value _) => none
      | some (.table origin below) =>
        (assign? (origin == .dotted) key v path below).map (.table origin)
      | some (.tables elements) => (changeLast? (assign? false key v path) elements).map .tables
    next?.map (members.put part)

/-- Changes the members of the table to which the parts of a header lead. The tables on the way are
implied by it, and an array leads to its last table. -/
def within? (change : Members → Option Members) : List String → Members → Option Members
  | [], members => change members
  | part :: path, members =>
    let next? : Option Node :=
      match members.lookup part with
      | none => (within? change path []).map (.table .implied)
      | some (.value _) => none
      | some (.table origin below) => (within? change path below).map (.table origin)
      | some (.tables elements) => (changeLast? (within? change path) elements).map .tables
    next?.map (members.put part)

/-- The members with a table that has a header. A table that was only implied may get one. -/
def openTable? (key : String) (members : Members) : Option Members :=
  match members.lookup key with
  | none => some (members.put key (.table .header []))
  | some (.table .implied below) => some (members.put key (.table .header below))
  | some _ => none

/-- The members with one more table in an array of tables. -/
def openElement? (key : String) (members : Members) : Option Members :=
  match members.lookup key with
  | none => some (members.put key (.tables [[]]))
  | some (.tables elements) => some (members.put key (.tables (elements ++ [[]])))
  | some _ => none

mutual

/-- The value that a node stands for in the end. -/
def Node.toToml : Node → Toml
  | .value v => v
  | .table _ members => .table (membersToToml members)
  | .tables elements => .array (elementsToToml elements)

/-- The values of the members. -/
def membersToToml : List (String × Node) → List (String × Toml)
  | [] => []
  | (key, node) :: rest => (key, node.toToml) :: membersToToml rest

/-- The tables of an array. -/
def elementsToToml : List (List (String × Node)) → List Toml
  | [] => []
  | members :: rest => .table (membersToToml members) :: elementsToToml rest

end

/-! ## Laws -/

theorem lookup_put_self (key : String) (node : Node) (members : Members) :
    (members.put key node).lookup key = some node := by
  induction members with
  | nil => simp [Members.put]
  | cons m rest ih =>
    obtain ⟨k, n⟩ := m
    by_cases h : k = key
    · simp [Members.put, h]
    · have hk : (key == k) = false := by simpa using fun e : key = k => h e.symm
      simp [Members.put, h, List.lookup_cons, hk, ih]

/-- A key is given a value only once. -/
theorem assign?_nil {key : String} {v w : Toml} {members new : Members}
    (h : assign? true key v [] members = some new) : assign? true key w [] new = none := by
  simp only [assign?, Bool.true_and] at h
  split at h
  · obtain rfl := Option.some.inj h
    simp [assign?, lookup_put_self]
  · simp at h

/-- A table has at most one header. -/
theorem openTable?_openTable? {key : String} {members new : Members}
    (h : openTable? key members = some new) : openTable? key new = none := by
  simp only [openTable?] at h
  split at h
  · obtain rfl := Option.some.inj h
    simp [openTable?, lookup_put_self]
  · obtain rfl := Option.some.inj h
    simp [openTable?, lookup_put_self]
  · simp at h

end Toml

end PromptPipeline
