import PromptPipeline.Text.Utf8

/-!
# A tree of files

Directories and files by their location, with the operations of a file system and its refusals. The
root is a directory. Main statement: `at?_put`, a change at one location leaves all others alone.
-/

namespace PromptPipeline

/-- The names that lead from the root to a file or directory. -/
abbrev Location := List String

/-- What can be at a location. -/
inductive FileNode where
  | directory
  | file (bytes : List UInt8)
  deriving DecidableEq

/-- Why the file system refuses. -/
inductive FileFault where
  | notFound
  | alreadyExists
  | notDirectory
  | isDirectory
  /-- The bytes of the file are no text. -/
  | notText
  deriving DecidableEq

/-- The refusal in the words of a message. -/
def FileFault.message : FileFault → String
  | notFound => "No such file or directory (os error 2)"
  | alreadyExists => "File exists (os error 17)"
  | notDirectory => "Not a directory (os error 20)"
  | isDirectory => "Is a directory (os error 21)"
  | notText => "stream did not contain valid UTF-8"

/-- The files and directories below the root, each location once. -/
structure FileTree where
  entries : List (Location × FileNode) := []
  deriving DecidableEq

namespace FileTree

instance : Inhabited FileTree := ⟨{}⟩

/-- What is at a location. -/
def at? (t : FileTree) (l : Location) : Option FileNode :=
  if l = [] then some .directory else t.entries.lookup l

/-- Whether there is a directory at the location. -/
def isDirectory (t : FileTree) (l : Location) : Bool :=
  t.at? l == some .directory

/-- Whether there is anything at the location. -/
def contains (t : FileTree) (l : Location) : Bool :=
  (t.at? l).isSome

/-- The tree with something else at one location. -/
def put (t : FileTree) (l : Location) (node : FileNode) : FileTree :=
  ⟨(l, node) :: t.entries.filter (·.1 ≠ l)⟩

/-- The tree without a location and all that is below it. -/
def removeTree (t : FileTree) (l : Location) : FileTree :=
  ⟨t.entries.filter fun e => !l.isPrefixOf e.1⟩

/-- Walks down from a directory: what is at the end of the way, or why the way is blocked. -/
def walk (t : FileTree) (base : Location) : Location → Except FileFault FileNode
  | [] => .ok .directory
  | name :: rest =>
    match t.at? (base ++ [name]) with
    | none => .error .notFound
    | some .directory => walk t (base ++ [name]) rest
    | some (.file bytes) => if rest = [] then .ok (.file bytes) else .error .notDirectory

/-- What is at a location, or why there is nothing. -/
def find (t : FileTree) (l : Location) : Except FileFault FileNode :=
  t.walk [] l

/-- The bytes of a file. -/
def read (t : FileTree) (l : Location) : Except FileFault (List UInt8) := do
  match ← t.find l with
  | .file bytes => .ok bytes
  | .directory => .error .isDirectory

/-- The text of a file. -/
def readText (t : FileTree) (l : Location) : Except FileFault String := do
  match Text.ofUtf8? (← t.read l) with
  | some text => .ok text
  | none => .error .notText

/-- Writes a file into a directory that exists, in place of a file that may be there. -/
def write (t : FileTree) (l : Location) (bytes : List UInt8) : Except FileFault FileTree := do
  match ← t.find l.dropLast with
  | .file _ => .error .notDirectory
  | .directory =>
    if t.isDirectory l then .error .isDirectory else .ok (t.put l (.file bytes))

/-- Makes the directories on the way down from a directory. -/
def makeWay (t : FileTree) (base : Location) : Location → Except FileFault FileTree
  | [] => .ok t
  | name :: rest =>
    match t.at? (base ++ [name]) with
    | none => makeWay (t.put (base ++ [name]) .directory) (base ++ [name]) rest
    | some .directory => makeWay t (base ++ [name]) rest
    | some (.file _) => .error (if rest = [] then .alreadyExists else .notDirectory)

/-- Makes a directory and those above it, unless they exist. -/
def makeDirectories (t : FileTree) (l : Location) : Except FileFault FileTree :=
  t.makeWay [] l

/-- Removes a file. -/
def removeFile (t : FileTree) (l : Location) : Except FileFault FileTree := do
  match ← t.find l with
  | .directory => .error .isDirectory
  | .file _ => .ok (t.removeTree l)

/-- The rest of the way from one location to another one below it. -/
def below? (l inner : Location) : Option Location :=
  if l.isPrefixOf inner ∧ l ≠ inner then some (inner.drop l.length) else none

/-- What is below a location, each with the way to it. -/
def descendants (t : FileTree) (l : Location) : List (Location × FileNode) :=
  t.entries.filterMap fun (inner, node) => (below? l inner).map fun way => (way, node)

/-- What is directly in a directory, by name. -/
def children (t : FileTree) (l : Location) : List (String × FileNode) :=
  (t.descendants l).filterMap fun
    | ([name], node) => some (name, node)
    | _ => none

/-- The ways to the files below a location. -/
def filesBelow (t : FileTree) (l : Location) : List Location :=
  (t.descendants l).filterMap fun
    | (way, .file _) => some way
    | (_, .directory) => none

/-- The number of bytes in all files below a location. -/
def sizeBelow (t : FileTree) (l : Location) : Nat :=
  (t.descendants l).foldl (fun size (_, node) =>
    match node with
    | .file bytes => size + bytes.length
    | .directory => size) 0

theorem lookup_cons_eq {x k : Location} {v : FileNode} {l : List (Location × FileNode)} :
    ((k, v) :: l).lookup x = if x = k then some v else l.lookup x := by
  by_cases h : x = k
  · simp [h]
  · have hb : (x == k) = false := by simpa using h
    simp only [List.lookup_cons, hb, if_neg h]

theorem lookup_filter {p : Location → Bool} {x : Location} {l : List (Location × FileNode)} :
    (l.filter (p ·.1)).lookup x = if p x then l.lookup x else none := by
  induction l with
  | nil => simp
  | cons e rest ih =>
    obtain ⟨k, v⟩ := e
    by_cases hk : p k = true
    · simp only [List.filter_cons, hk, if_true, lookup_cons_eq, ih]
      by_cases hx : x = k
      · simp [hx, hk]
      · simp [hx]
    · rw [List.filter_cons_of_neg (by simpa using hk), ih, lookup_cons_eq]
      by_cases hx : x = k
      · simp [hx, hk]
      · simp [hx]

/-- A change at one location leaves all others alone. -/
theorem at?_put {t : FileTree} {l x : Location} {node : FileNode} (hl : l ≠ []) :
    (t.put l node).at? x = if x = l then some node else t.at? x := by
  have hfilter := lookup_filter (p := fun y => decide (y ≠ l)) (x := x) (l := t.entries)
  by_cases hx : x = l
  · simp [at?, put, hx, hl]
  · simp only [at?, put, lookup_cons_eq, if_neg hx]
    rw [hfilter]
    simp [hx]

/-- After a removal there is nothing at the location and below it, and all else is as before. -/
theorem at?_removeTree {t : FileTree} {l x : Location} :
    (t.removeTree l).at? x =
      if x = [] then some .directory else if l.isPrefixOf x then none else t.at? x := by
  have hfilter := lookup_filter (p := fun y => !l.isPrefixOf y) (x := x) (l := t.entries)
  by_cases hx : x = []
  · simp [at?, hx]
  · simp only [at?, removeTree, if_neg hx]
    rw [hfilter]
    by_cases hp : l.isPrefixOf x = true <;> simp [hp]

end FileTree

end PromptPipeline
