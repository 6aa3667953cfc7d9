import PromptPipeline.Graph.Digraph

/-!
# Topological order

A depth-first sweep lists the vertices in the order in which they are finished; that list, latest
first, is a topological order if there is one at all. The sweep keeps one stack: a vertex met for
the first time stays on it below its undiscovered successors, and is finished when it is met again.
-/

namespace PromptPipeline.Digraph

variable {n : Nat}

/-- What a sweep knows: the discovered vertices, and the finished ones, latest first. -/
structure Sweep (n : Nat) where
  discovered : List (Fin n)
  finished : List (Fin n)

/-- Sweeps until the stack is empty; nothing if a vertex is its own successor. -/
def sweepStack (g : Digraph n) (st : Sweep n) (stack : List (Fin n)) : Option (Sweep n) :=
  match stack with
  | [] => some st
  | u :: rest =>
    if u ∈ st.discovered then
      if u ∈ st.finished then sweepStack g st rest
      else sweepStack g { st with finished := u :: st.finished } rest
    else if u ∈ g.successors u then none
    else
      let fresh := (g.successors u).filter (· ∉ u :: st.discovered)
      sweepStack g { st with discovered := u :: st.discovered } (fresh.reverse ++ u :: rest)
termination_by (remaining st.discovered, stack.length)
decreasing_by
  · exact Prod.Lex.right _ (by simp)
  · exact Prod.Lex.right _ (by simp)
  · exact Prod.Lex.left _ _ (remaining_cons_lt (by assumption))

/-- Sweeps from each of the starts in turn. -/
def sweepAll (g : Digraph n) (st : Sweep n) : List (Fin n) → Option (Sweep n)
  | [] => some st
  | u :: rest =>
    if u ∈ st.discovered then sweepAll g st rest
    else (sweepStack g st [u]).bind fun st => sweepAll g st rest

/-- Whether every predecessor of a listed vertex stands before it, or in `seen`. -/
def inOrder (g : Digraph n) (seen : List (Fin n)) : List (Fin n) → Bool
  | [] => true
  | u :: rest => (g.predecessors u).all (· ∈ u :: seen) && inOrder g (u :: seen) rest

/-- The vertices in topological order, if the graph has one. -/
def topologicalOrder? (g : Digraph n) : Option (List (Fin n)) :=
  match sweepAll g ⟨[], []⟩ (List.finRange n) with
  | some st => if inOrder g [] st.finished then some st.finished else none
  | none => none

end PromptPipeline.Digraph
