import PromptPipeline.Graph.Digraph

/-!
# Cycles

A depth-first search that keeps the path to the current vertex. The first arc that leads back to a
vertex of the path closes a cycle, which is the part of the path from there on.
-/

namespace PromptPipeline.Digraph

variable {n : Nat}

/-- The path of a search, innermost vertex first: each vertex with its successors yet to visit. -/
abbrev Path (n : Nat) := List (Fin n × List (Fin n))

/-- The vertices of the path, innermost first. -/
def Path.vertices (path : Path n) : List (Fin n) :=
  path.map (·.1)

/-- The number of steps that the path owes. -/
def Path.pending : Path n → Nat
  | [] => 0
  | (_, next) :: rest => next.length + 1 + pending rest

/-- The part of the path from `v` on, outermost vertex first. -/
def Path.cycleAt (path : Path n) (v : Fin n) : List (Fin n) :=
  (path.vertices.takeWhile (· ≠ v) ++ [v]).reverse

/-- Searches until the path is empty: a cycle, or the discovered vertices if there is none. -/
def searchPath (g : Digraph n) (discovered : List (Fin n)) (path : Path n) :
    Except (List (Fin n)) (List (Fin n)) :=
  match path with
  | [] => .ok discovered
  | (_, []) :: rest => searchPath g discovered rest
  | (u, v :: vs) :: rest =>
    if v ∉ discovered then
      searchPath g (v :: discovered) ((v, g.successors v) :: (u, vs) :: rest)
    else if v ∈ Path.vertices ((u, vs) :: rest) then .error (Path.cycleAt ((u, vs) :: rest) v)
    else searchPath g discovered ((u, vs) :: rest)
termination_by (remaining discovered, path.pending)
decreasing_by
  · exact Prod.Lex.right _ (by simp [Path.pending])
  · exact Prod.Lex.left _ _ (remaining_cons_lt (by assumption))
  · exact Prod.Lex.right _ (by simp [Path.pending])

/-- Searches from each of the starts in turn. -/
def searchAll (g : Digraph n) (discovered : List (Fin n)) :
    List (Fin n) → Except (List (Fin n)) (List (Fin n))
  | [] => .ok discovered
  | u :: rest =>
    if u ∈ discovered then searchAll g discovered rest
    else do
      let discovered ← searchPath g (u :: discovered) [(u, g.successors u)]
      searchAll g discovered rest

/-- The first cycle that the search closes: each vertex has an arc to the next one, and the last
one to the first. -/
def cycle? (g : Digraph n) : Option (List (Fin n)) :=
  match searchAll g [] (List.finRange n) with
  | .error cycle => some cycle
  | .ok _ => none

end PromptPipeline.Digraph
