import Mathlib.Algebra.BigOperators.Group.List.Basic
import PromptPipeline.Usage

/-!
# Totals of usage

A total is a sum in each of its numbers, and a number of it is exact if and only if all the numbers
that are added up in it are (`Usage.total_isSum`). So a total of totals is the total of all their
parts (`Usage.IsSum.flatMap`).

That values add up takes an addition that does not round (`ExactAddition`), and that of double
precision numbers rounds. Which numbers are exact does not depend on it.
-/

namespace PromptPipeline

variable {N : Type} [Zero N] [Add N]

/-- Addition does not round, so a sum does not depend on the order and the grouping of its parts. -/
structure ExactAddition (N : Type) [Zero N] [Add N] : Prop where
  zero_add : ∀ a : N, 0 + a = a
  add_comm : ∀ a b : N, a + b = b + a
  add_assoc : ∀ a b c : N, a + b + c = a + (b + c)

/-- The numbers then are a commutative monoid. -/
abbrev ExactAddition.toAddCommMonoid (h : ExactAddition N) : AddCommMonoid N where
  add_assoc := h.add_assoc
  zero_add := h.zero_add
  add_zero a := (h.add_comm a 0).trans (h.zero_add a)
  add_comm := h.add_comm
  nsmul := nsmulRec

/-! ## One number -/

namespace UncertainNumber

/-- The number is the sum of the parts, and is exact if and only if all of them are. -/
structure IsSum (x : UncertainNumber N) (parts : List (UncertainNumber N)) : Prop where
  value : ExactAddition N → x.value = (parts.map (·.value)).sum
  isExact_iff : x.isExact = true ↔ ∀ part ∈ parts, part.isExact = true

theorem zero_isSum_nil : IsSum (0 : UncertainNumber N) [] :=
  ⟨fun _ => rfl, by simp [show (0 : UncertainNumber N).isExact = true from rfl]⟩

theorem isSum_singleton (x : UncertainNumber N) : x.IsSum [x] := by
  refine ⟨fun h => ?_, by simp⟩
  let _ := h.toAddCommMonoid
  exact (List.sum_singleton).symm

/-- To add parts to a sum, from left to right, makes it the sum of more parts. -/
theorem IsSum.foldl_add {x : UncertainNumber N} {earlier : List (UncertainNumber N)}
    (h : x.IsSum earlier) (parts : List (UncertainNumber N)) :
    (parts.foldl (· + ·) x).IsSum (earlier ++ parts) := by
  induction parts generalizing x earlier with
  | nil => rwa [List.append_nil]
  | cons part rest ih =>
    have hpart : (x + part).IsSum (earlier ++ [part]) := by
      refine ⟨fun hexact => ?_, ?_⟩
      · let _ := hexact.toAddCommMonoid
        show x.value + part.value = _
        rw [List.map_append, List.sum_append, h.value hexact, List.map_singleton,
          List.sum_singleton]
      · show (x.isExact && part.isExact) = true ↔ _
        rw [Bool.and_eq_true, h.isExact_iff, List.forall_mem_append, List.forall_mem_singleton]
    have hrest := ih hpart
    rwa [List.append_assoc] at hrest

variable {x : UncertainNumber N} {α : Type} {l : List α}

/-- Where addition does not round, there is one sum. -/
theorem IsSum.unique {y : UncertainNumber N} {parts : List (UncertainNumber N)}
    (hx : x.IsSum parts) (hy : y.IsSum parts) (hexact : ExactAddition N) : x = y := by
  have hvalue : x.value = y.value := (hx.value hexact).trans (hy.value hexact).symm
  have hmark : x.isExact = y.isExact :=
    Bool.eq_iff_iff.mpr (hx.isExact_iff.trans hy.isExact_iff.symm)
  cases x
  cases y
  cases hvalue
  cases hmark
  rfl

/-- The order of the parts does not matter. -/
theorem IsSum.perm {parts parts' : List (UncertainNumber N)} (h : x.IsSum parts)
    (hperm : parts.Perm parts') : x.IsSum parts' := by
  refine ⟨fun hexact => ?_, ?_⟩
  · let _ := hexact.toAddCommMonoid
    rw [h.value hexact]
    exact (hperm.map _).sum_eq
  · rw [h.isExact_iff]
    exact forall_congr' fun part => imp_congr_left hperm.mem_iff

/-- A sum of sums is the sum of all their parts. -/
theorem IsSum.flatMap {f : α → UncertainNumber N} {g : α → List (UncertainNumber N)}
    (h : x.IsSum (l.map f)) (hparts : ∀ a ∈ l, (f a).IsSum (g a)) : x.IsSum (l.flatMap g) := by
  refine ⟨fun hexact => ?_, ?_⟩
  · let _ := hexact.toAddCommMonoid
    have hsums : (l.map f).map (·.value) = l.map fun a => ((g a).map (·.value)).sum := by
      rw [List.map_map]
      exact List.map_congr_left fun a ha => (hparts a ha).value hexact
    rw [h.value hexact, hsums, List.map_flatMap, List.flatMap, List.sum_flatten, List.map_map]
    rfl
  · rw [h.isExact_iff, List.forall_mem_map, List.forall_mem_flatMap]
    exact forall₂_congr fun a ha => (hparts a ha).isExact_iff

end UncertainNumber

/-! ## All numbers of a usage -/

namespace Usage

/-- The numbers of a usage. -/
def numbers : List (Usage N → UncertainNumber N) :=
  [price, inputTokens, outputTokens]

/-- Each number of the usage is the sum of those of the parts. -/
def IsSum (u : Usage N) (parts : List (Usage N)) : Prop :=
  ∀ number ∈ numbers, (number u).IsSum (parts.map number)

variable {u : Usage N} {parts parts' : List (Usage N)} {α : Type} {l : List α}
  {number : Usage N → UncertainNumber N}

omit [Zero N] in
theorem number_add (h : number ∈ numbers) (u v : Usage N) :
    number (u + v) = number u + number v := by
  simp only [numbers, List.mem_cons, List.not_mem_nil, or_false] at h
  rcases h with rfl | rfl | rfl <;> rfl

omit [Add N] in
theorem number_zero (h : number ∈ numbers) : number (0 : Usage N) = 0 := by
  simp only [numbers, List.mem_cons, List.not_mem_nil, or_false] at h
  rcases h with rfl | rfl | rfl <;> rfl

/-- **A total is the sum of its parts.** -/
theorem total_isSum (parts : List (Usage N)) : (total parts).IsSum parts := by
  intro number hnumber
  have htotal : number (total parts) = (parts.map number).foldl (· + ·) 0 := by
    rw [List.foldl_map, ← number_zero hnumber]
    exact (List.foldl_hom number fun u v => (number_add hnumber u v).symm).symm
  rw [htotal]
  exact UncertainNumber.zero_isSum_nil.foldl_add _

theorem zero_isSum_nil : IsSum (0 : Usage N) [] := by
  intro number hnumber
  rw [number_zero hnumber]
  exact UncertainNumber.zero_isSum_nil

theorem isSum_singleton (u : Usage N) : u.IsSum [u] :=
  fun number _ => UncertainNumber.isSum_singleton (number u)

theorem IsSum.perm (h : u.IsSum parts) (hperm : parts.Perm parts') : u.IsSum parts' :=
  fun number hnumber => (h number hnumber).perm (hperm.map number)

theorem IsSum.flatMap {f : α → Usage N} {g : α → List (Usage N)} (h : u.IsSum (l.map f))
    (hparts : ∀ a ∈ l, (f a).IsSum (g a)) : u.IsSum (l.flatMap g) := by
  intro number hnumber
  have hsum := h number hnumber
  rw [List.map_map] at hsum
  rw [List.map_flatMap]
  exact hsum.flatMap fun a ha => hparts a ha number hnumber

end Usage

end PromptPipeline
