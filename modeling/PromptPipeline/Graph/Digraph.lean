/-!
# Directed graphs

A directed graph on the vertices `0, …, n - 1` with labelled arcs, kept in the order in which they
were added. Neighbours are listed with the latest arc first.
-/

namespace PromptPipeline

/-- A labelled arc between two of `n` vertices. -/
structure Arc (n : Nat) where
  source : Fin n
  target : Fin n
  label : String
  deriving DecidableEq

/-- A directed graph on `n` vertices. -/
structure Digraph (n : Nat) where
  arcs : List (Arc n)

namespace Digraph

variable {n : Nat}

/-- Whether an arc leads from `u` to `v`. -/
def Adj (g : Digraph n) (u v : Fin n) : Prop :=
  ∃ a ∈ g.arcs, a.source = u ∧ a.target = v

instance (g : Digraph n) (u v : Fin n) : Decidable (g.Adj u v) :=
  inferInstanceAs (Decidable (∃ a ∈ g.arcs, a.source = u ∧ a.target = v))

/-- The vertices to which arcs lead from `u`, latest arc first. -/
def successors (g : Digraph n) (u : Fin n) : List (Fin n) :=
  (g.arcs.reverse.filter (·.source = u)).map (·.target)

/-- The vertices from which arcs lead to `u`, latest arc first. -/
def predecessors (g : Digraph n) (u : Fin n) : List (Fin n) :=
  (g.arcs.reverse.filter (·.target = u)).map (·.source)

/-- The graph with one more arc, unless its ends are connected already. -/
def connect (g : Digraph n) (a : Arc n) : Digraph n :=
  if g.Adj a.source a.target then g else ⟨g.arcs ++ [a]⟩

theorem mem_successors {g : Digraph n} {u v : Fin n} : v ∈ g.successors u ↔ g.Adj u v := by
  simp [successors, Adj, and_assoc]

theorem mem_predecessors {g : Digraph n} {u v : Fin n} : u ∈ g.predecessors v ↔ g.Adj u v := by
  simp [predecessors, Adj, and_comm, and_assoc]

/-- The number of vertices that are not in the list. -/
def remaining (seen : List (Fin n)) : Nat :=
  ((List.finRange n).filter (· ∉ seen)).length

theorem length_filter_lt {α : Type} {p q : α → Bool} {l : List α}
    (himp : ∀ x ∈ l, p x = true → q x = true) {a : α} (ha : a ∈ l) (hq : q a = true)
    (hp : p a = false) : (l.filter p).length < (l.filter q).length := by
  induction l with
  | nil => simp at ha
  | cons x rest ih =>
    have hle : (rest.filter p).length ≤ (rest.filter q).length := by
      rw [← List.countP_eq_length_filter, ← List.countP_eq_length_filter]
      exact List.countP_mono_left fun y hy => himp y (List.mem_cons_of_mem _ hy)
    rcases List.mem_cons.1 ha with rfl | ha
    · simp [hp, hq]; omega
    · have hrest := ih (fun y hy => himp y (List.mem_cons_of_mem _ hy)) ha
      by_cases hpx : p x = true
      · simp [hpx, himp x (List.mem_cons_self ..) hpx, hrest]
      · by_cases hqx : q x = true
        · simp [hpx, hqx]; omega
        · simp [hpx, hqx, hrest]

/-- A new vertex leaves fewer remaining ones. -/
theorem remaining_cons_lt {seen : List (Fin n)} {u : Fin n} (h : u ∉ seen) :
    remaining (u :: seen) < remaining seen := by
  refine length_filter_lt (a := u) ?_ (List.mem_finRange u) ?_ ?_
  · intro x _ hx
    simp only [List.mem_cons, not_or, decide_eq_true_eq] at hx ⊢
    exact hx.2
  · simpa using h
  · simp

end Digraph

end PromptPipeline
