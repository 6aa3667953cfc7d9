import PromptPipeline.Files.Path

/-!
# Wildcards

Patterns for paths: in a name, a question mark stands for one character, an asterisk for any number
of them, and brackets for one of a set; two asterisks stand for any number of directories. A
pattern without wildcards is a path, whose names are taken as they are.
-/

namespace PromptPipeline.Glob

/-- A range of characters. -/
structure CharRange where
  first : Char
  last : Char
  deriving DecidableEq

/-- Whether the character is in the range. -/
def CharRange.holds (r : CharRange) (c : Char) : Bool :=
  r.first ≤ c && c ≤ r.last

/-- A part of a pattern for names. -/
inductive Token where
  | exact (c : Char)
  | anyChar
  | anyText
  | oneOf (ranges : List CharRange)
  | noneOf (ranges : List CharRange)
  deriving DecidableEq

/-- The ranges between brackets. -/
def ranges : List Char → List CharRange
  | a :: '-' :: b :: rest => ⟨a, b⟩ :: ranges rest
  | a :: rest => ⟨a, a⟩ :: ranges rest
  | [] => []

/-- The characters up to the bracket that closes a set, and those after it. The first one may be a
bracket of its own right. -/
def splitSet? : List Char → Option (List Char × List Char)
  | [] => none
  | c :: rest =>
    (Text.splitOnce? (· == ']') rest).map fun (inside, after) => (c :: inside, after)

theorem length_splitOnce? {p : Char → Bool} {s a b : List Char}
    (h : Text.splitOnce? p s = some (a, b)) : b.length < s.length := by
  induction s generalizing a with
  | nil => simp [Text.splitOnce?] at h
  | cons c rest ih =>
    simp only [Text.splitOnce?] at h
    split at h
    · simp only [Option.some.injEq, Prod.mk.injEq] at h
      simp [← h.2]
    · simp only [Option.map_eq_some_iff] at h
      obtain ⟨⟨a', b'⟩, h, heq⟩ := h
      obtain ⟨_, rfl⟩ := Prod.mk.inj heq
      have : b'.length < rest.length := ih h
      simp only [List.length_cons]
      omega

theorem length_splitSet? {s a b : List Char} (h : splitSet? s = some (a, b)) :
    b.length < s.length := by
  cases s with
  | nil => simp [splitSet?] at h
  | cons c rest =>
    simp only [splitSet?, Option.map_eq_some_iff] at h
    obtain ⟨⟨a', b'⟩, h, heq⟩ := h
    obtain ⟨_, rfl⟩ := Prod.mk.inj heq
    have : b'.length < rest.length := length_splitOnce? h
    simp only [List.length_cons]
    omega

/-- The pattern for a name; nothing if a set is not closed, or asterisks stand together. -/
def tokens? (s : List Char) : Option (List Token) :=
  match s with
  | [] => some []
  | '?' :: rest => (tokens? rest).map (.anyChar :: ·)
  | '*' :: rest =>
    if rest.head? = some '*' then none else (tokens? rest).map (.anyText :: ·)
  | '[' :: '!' :: rest =>
    match hset : splitSet? rest with
    | some (inside, after) =>
      have := length_splitSet? hset
      (tokens? after).map (.noneOf (ranges inside) :: ·)
    | none => none
  | '[' :: rest =>
    match hset : splitSet? rest with
    | some (inside, after) =>
      have := length_splitSet? hset
      (tokens? after).map (.oneOf (ranges inside) :: ·)
    | none => none
  | c :: rest => (tokens? rest).map (.exact c :: ·)
termination_by s.length
decreasing_by all_goals simp only [List.length_cons]; omega

/-- Whether a token that stands for one character stands for this one. -/
def Token.holds (t : Token) (c : Char) : Bool :=
  match t with
  | exact d => c == d
  | anyChar => true
  | anyText => false
  | oneOf rs => rs.any (·.holds c)
  | noneOf rs => !rs.any (·.holds c)

/-- Whether the pattern stands for the name. -/
def matchesName : List Token → List Char → Bool
  | [], s => s.isEmpty
  | .anyText :: ts, [] => matchesName ts []
  | .anyText :: ts, c :: s => matchesName ts (c :: s) || matchesName (.anyText :: ts) s
  | _ :: _, [] => false
  | t :: ts, c :: s => t.holds c && matchesName ts s
termination_by ts s => ts.length + s.length

/-- A pattern for one part of a path. -/
inductive Part where
  /-- A name without wildcards. -/
  | name (name : String)
  | pattern (tokens : List Token)
  /-- Any number of directories. -/
  | anyDepth
  deriving DecidableEq

/-- The character that a token stands for, if there is no other. -/
def Token.char? : Token → Option Char
  | exact c => some c
  | _ => none

/-- The pattern for one part of a path. -/
def Part.ofText? (s : List Char) : Option Part :=
  if s = ['*', '*'] then some .anyDepth
  else (tokens? s).map fun ts =>
    match ts.mapM Token.char? with
    | some chars => .name (.ofList chars)
    | none => .pattern ts

/-- The pattern for a path, part by part. A slash at the end says nothing. -/
def ofText? (text : String) : Option (List Part) :=
  let pieces := Text.splitWhere (· == '/') text.toList
  let pieces := if pieces.getLast? = some [] then pieces.dropLast else pieces
  (if FilePath.isAbsolute text then pieces.drop 1 else pieces).mapM Part.ofText?

/-- The path of something in a directory; the working directory has no path of its own. -/
def within (path name : String) : String :=
  if path = "." then name else FilePath.join path name

/-- The paths of all that is below a directory, with the last names. -/
def allBelow (t : FileTree) (l : Location) (path : String) :
    List (String × Location × String) :=
  (t.descendants l).map fun (way, _) =>
    (way.foldl within path, l ++ way, way.getLastD "")

/-- The paths to which the parts lead from a directory. -/
def expand (t : FileTree) (l : Location) (path : String) : List Part → List String
  | [] => [path]
  | .name name :: rest =>
    let next := FilePath.follow l name
    let isThere := if name = "." ∨ name = ".." then t.isDirectory l else t.contains next
    if isThere then expand t next (within path name) rest else []
  | .anyDepth :: .pattern ts :: rest =>
    ((allBelow t l path).filter fun (_, _, name) => matchesName ts name.toList).flatMap
      fun (path, l, _) => expand t l path rest
  | .anyDepth :: rest => expand t l path rest
  | .pattern ts :: rest =>
    ((t.children l).filter fun (name, _) => matchesName ts name.toList).flatMap
      fun (name, _) => expand t (l ++ [name]) (within path name) rest

/-- The paths that the pattern stands for, in their order; nothing if it is no pattern. -/
def paths? (t : FileTree) (base : Location) (pattern : String) : Option (List String) :=
  (ofText? pattern).map fun parts =>
    let found :=
      if FilePath.isAbsolute pattern then expand t [] "/" parts else expand t base "." parts
    found.mergeSort FilePath.le

end PromptPipeline.Glob
