import Mathlib.Data.Fintype.EquivFin
import Mathlib.Data.List.Chain
import PromptPipeline.Graph.Digraph

/-!
# Acyclic graphs

What it means for a graph to have no cycle, for a list of vertices to be a cycle, and for a list to
be a topological order. The two lists exclude each other, and each is a certificate:

> `IsCycle.not_acyclic`: a graph with a cycle is not acyclic.
> `IsTopological.acyclic`: a graph with a topological order is acyclic.

The search for cycles (`Proofs/Graph/Cycle.lean`) and the sweep that finds an order
(`Proofs/Graph/Order.lean`) are measured against these notions.
-/

namespace PromptPipeline.Digraph

open Relation (TransGen)

variable {n : Nat} {g : Digraph n}

/-- No walk of one or more arcs leads from a vertex back to itself. -/
def Acyclic (g : Digraph n) : Prop :=
  ∀ v, ¬TransGen g.Adj v v

/-- A list of different vertices, each with an arc to the next one and the last with an arc to the
first. -/
structure IsCycle (g : Digraph n) (cycle : List (Fin n)) : Prop where
  nodup : cycle.Nodup
  closed : ∃ v rest, cycle = v :: rest ∧ (cycle ++ [v]).IsChain g.Adj

/-- Every vertex stands in the list once, and the source of each arc stands before its target. -/
structure IsTopological (g : Digraph n) (order : List (Fin n)) : Prop where
  perm : order.Perm (List.finRange n)
  precedes : ∀ ⦃u v⦄, g.Adj u v → order.idxOf u < order.idxOf v

theorem Acyclic.not_adj_self (h : g.Acyclic) (v : Fin n) : ¬g.Adj v v :=
  fun hv => h v (.single hv)

/-- The ends of a chain of two or more vertices are joined by a walk. -/
theorem transGen_of_isChain {r : Fin n → Fin n → Prop} {v w : Fin n} {mid : List (Fin n)}
    (h : (v :: mid ++ [w]).IsChain r) : TransGen r v w := by
  induction mid generalizing v with
  | nil => exact .single (by simpa using h)
  | cons u mid ih =>
    obtain ⟨hvu, hrest⟩ := List.isChain_cons_cons.mp h
    exact .head hvu (ih hrest)

theorem IsCycle.not_acyclic {cycle : List (Fin n)} (h : g.IsCycle cycle) : ¬g.Acyclic := by
  obtain ⟨v, rest, rfl, hchain⟩ := h.closed
  intro hacyclic
  exact hacyclic v (transGen_of_isChain hchain)

theorem IsTopological.mem {order : List (Fin n)} (h : g.IsTopological order) (v : Fin n) :
    v ∈ order :=
  h.perm.mem_iff.mpr (List.mem_finRange v)

theorem IsTopological.nodup {order : List (Fin n)} (h : g.IsTopological order) : order.Nodup :=
  h.perm.nodup_iff.mpr (List.nodup_finRange n)

/-- Along a walk the positions in a topological order increase. -/
theorem IsTopological.idxOf_lt {order : List (Fin n)} (h : g.IsTopological order) {u v : Fin n}
    (hwalk : TransGen g.Adj u v) : order.idxOf u < order.idxOf v := by
  induction hwalk with
  | single huv => exact h.precedes huv
  | tail _ hvw ih => exact Nat.lt_trans ih (h.precedes hvw)

theorem IsTopological.acyclic {order : List (Fin n)} (h : g.IsTopological order) : g.Acyclic :=
  fun _ hv => Nat.lt_irrefl _ (h.idxOf_lt hv)

/-- In an acyclic graph, what holds of a vertex once it holds of its predecessors holds of all. -/
theorem Acyclic.induction (h : g.Acyclic) {P : Fin n → Prop}
    (step : ∀ v, (∀ u, g.Adj u v → P u) → P v) (v : Fin n) : P v := by
  have : Std.Irrefl (TransGen g.Adj) := ⟨h⟩
  have hwf : WellFounded (TransGen g.Adj) := Finite.wellFounded_of_trans_of_irrefl _
  induction v using hwf.induction with
  | _ v ih => exact step v fun u huv => ih u (.single huv)

end PromptPipeline.Digraph
