import PromptPipeline.Graph.Cycle
import PromptPipeline.Proofs.Graph.Acyclic

/-!
# The search returns cycles, and misses none

The path of a depth-first search is a walk of different vertices (`Path.Live`), and every vertex
that it has yet to visit is a successor of the one it is listed with. So an arc back to a vertex of
the path closes a cycle.

A vertex that has left the path is grounded: no walk from it goes on forever. A vertex of the path
waits for those of its successors that are not grounded yet (`Path.Waits`), so that it is grounded
when it leaves the path in its turn. A search that closes no cycle therefore grounds every vertex.

Main statements: `cycle?_isCycle`, what the search returns is a cycle of the graph;
`acyclic_of_cycle?_eq_none`, a graph in which the search finds nothing has no cycle.
-/

namespace PromptPipeline.Digraph

variable {n : Nat} {g : Digraph n}

/-- The path is a walk of different discovered vertices, each listed with successors of its own. -/
structure Path.Live (g : Digraph n) (discovered : List (Fin n)) (path : Path n) : Prop where
  nodup : path.vertices.Nodup
  chain : path.vertices.IsChain fun u v => g.Adj v u
  discovered : path.vertices ⊆ discovered
  adj : ∀ u next, (u, next) ∈ path → ∀ v ∈ next, g.Adj u v

namespace Path

variable {discovered : List (Fin n)} {u v : Fin n} {vs : List (Fin n)} {rest : Path n}

theorem Live.pop {next : List (Fin n)} (h : Live g discovered ((u, next) :: rest)) :
    Live g discovered rest := by
  refine ⟨(List.nodup_cons.mp h.nodup).2, h.chain.tail, (List.cons_subset.mp h.discovered).2, ?_⟩
  intro w next hw
  exact h.adj w next (List.mem_cons_of_mem _ hw)

/-- The next vertex may be passed over. -/
theorem Live.skip (h : Live g discovered ((u, v :: vs) :: rest)) :
    Live g discovered ((u, vs) :: rest) := by
  refine ⟨h.nodup, h.chain, h.discovered, fun w next hmem x hx => ?_⟩
  rcases List.mem_cons.mp hmem with heq | hrest
  · obtain ⟨rfl, rfl⟩ := Prod.mk.injEq .. ▸ heq
    exact h.adj w _ (List.mem_cons_self ..) x (List.mem_cons_of_mem _ hx)
  · exact h.adj w next (List.mem_cons_of_mem _ hrest) x hx

theorem Live.adj_next (h : Live g discovered ((u, v :: vs) :: rest)) : g.Adj u v :=
  h.adj u _ (List.mem_cons_self ..) v (List.mem_cons_self ..)

theorem Live.push (h : Live g discovered ((u, v :: vs) :: rest)) (hv : v ∉ discovered) :
    Live g (v :: discovered) ((v, g.successors v) :: (u, vs) :: rest) := by
  refine ⟨?_, ?_, ?_, fun w next hmem x hx => ?_⟩
  · exact List.nodup_cons.mpr ⟨fun hmem => hv (h.discovered hmem), h.nodup⟩
  · exact List.isChain_cons_cons.mpr ⟨h.adj_next, h.chain⟩
  · refine List.cons_subset.mpr ⟨List.mem_cons_self .., ?_⟩
    exact List.Subset.trans h.discovered (List.subset_cons_self ..)
  · rcases List.mem_cons.mp hmem with heq | hrest
    · obtain ⟨rfl, rfl⟩ := Prod.mk.injEq .. ▸ heq
      exact mem_successors.mp hx
    · exact h.skip.adj w next hrest x hx

/-- An arc from the innermost vertex back to the path closes a cycle. -/
theorem Live.isCycle_cycleAt (h : Live g discovered ((u, v :: vs) :: rest))
    (hv : v ∈ Path.vertices ((u, vs) :: rest)) :
    g.IsCycle (Path.cycleAt ((u, vs) :: rest) v) := by
  -- The path lists the innermost vertex first, so that the cycle runs against it.
  obtain ⟨pre, post, hsplit, hpre⟩ := List.eq_append_cons_of_mem hv
  have htake : (Path.vertices ((u, vs) :: rest)).takeWhile (· ≠ v) = pre := by
    have hne : ∀ w ∈ pre, decide (w ≠ v) = true :=
      fun w hw => decide_eq_true fun heq : w = v => hpre (heq ▸ hw)
    rw [hsplit, List.takeWhile_append_of_pos hne]
    simp
  have hnodup : (pre ++ [v]).Nodup := by
    have hsub : (pre ++ [v]).Sublist (pre ++ v :: post) :=
      List.Sublist.append_left (List.singleton_sublist.mpr (List.mem_cons_self ..)) pre
    have hpath : (pre ++ v :: post).Nodup := hsplit ▸ h.nodup
    exact hpath.sublist hsub
  have hchain : (v :: (pre ++ [v])).IsChain fun u v => g.Adj v u := by
    have hpath : (v :: (pre ++ v :: post)).IsChain fun u v => g.Adj v u := by
      rw [← hsplit]
      exact List.isChain_cons_cons.mpr ⟨h.adj_next, h.chain⟩
    refine hpath.prefix ?_
    exact ⟨post, by simp⟩
  unfold Path.cycleAt
  rw [htake]
  refine ⟨List.nodup_reverse.mpr hnodup, v, pre.reverse, by simp, ?_⟩
  rw [← List.isChain_reverse] at hchain
  simpa using hchain

end Path

theorem isCycle_of_searchPath {discovered cycle : List (Fin n)} {path : Path n}
    (h : Path.Live g discovered path) (hs : searchPath g discovered path = .error cycle) :
    g.IsCycle cycle := by
  fun_induction searchPath g discovered path with
  | case1 => simp at hs
  | case2 discovered u rest ih => exact ih h.pop hs
  | case3 discovered u v vs rest hv ih => exact ih (h.push hv) hs
  | case4 discovered u v vs rest hv hpath =>
    cases hs
    exact h.isCycle_cycleAt hpath
  | case5 discovered u v vs rest hv hpath ih => exact ih h.skip hs

theorem isCycle_of_searchAll {starts discovered cycle : List (Fin n)}
    (hs : searchAll g discovered starts = .error cycle) : g.IsCycle cycle := by
  induction starts generalizing discovered with
  | nil => simp [searchAll] at hs
  | cons u rest ih =>
    rw [searchAll] at hs
    split at hs
    next => exact ih hs
    next hu =>
      have hstart : Path.Live g (u :: discovered) [(u, g.successors u)] := by
        refine ⟨List.nodup_singleton u, .singleton u, ?_, fun w next hmem v hv => ?_⟩
        · exact List.cons_subset.mpr ⟨List.mem_cons_self .., List.nil_subset _⟩
        · obtain ⟨rfl, rfl⟩ := Prod.mk.injEq .. ▸ List.mem_singleton.mp hmem
          exact mem_successors.mp hv
      cases hp : searchPath g (u :: discovered) [(u, g.successors u)] with
      | error c =>
        rw [hp] at hs
        cases hs
        exact isCycle_of_searchPath hstart hp
      | ok discovered' =>
        rw [hp] at hs
        exact ih hs

/-- **What the search returns is a cycle.** -/
theorem cycle?_isCycle {cycle : List (Fin n)} (h : g.cycle? = some cycle) : g.IsCycle cycle := by
  unfold cycle? at h
  split at h
  next c hs =>
    cases h
    exact isCycle_of_searchAll hs
  next => simp at h

theorem Acyclic.cycle?_eq_none (h : g.Acyclic) : g.cycle? = none := by
  cases hc : g.cycle? with
  | none => rfl
  | some cycle => exact absurd h (cycle?_isCycle hc).not_acyclic

/-! ## No cycle is missed -/

/-- Every walk from the vertex comes to an end. -/
def Grounded (g : Digraph n) (u : Fin n) : Prop :=
  Acc (fun v w => g.Adj w v) u

theorem grounded_of_adj {u : Fin n} (h : ∀ v, g.Adj u v → g.Grounded v) : g.Grounded u :=
  ⟨u, h⟩

/-- A graph without infinite walks has no cycle. -/
theorem acyclic_of_grounded (h : ∀ u, g.Grounded u) : g.Acyclic := by
  have hwf : WellFounded fun v w => g.Adj w v := ⟨h⟩
  intro v hv
  have hback := Relation.transGen_swap.mpr hv
  exact hwf.transGen.asymmetric v v hback hback

/-- Each vertex of the path has its successors yet to visit, above it on the path, or grounded. -/
def Path.Waits (g : Digraph n) (above : List (Fin n)) : Path n → Prop
  | [] => True
  | (u, next) :: rest =>
    (∀ v, g.Adj u v → v ∈ next ∨ v ∈ above ∨ g.Grounded v) ∧ Path.Waits g (u :: above) rest

/-- The vertices above the path may be exchanged for others, but for grounded ones. -/
theorem Path.Waits.mono {above above' : List (Fin n)} {path : Path n}
    (hle : ∀ v ∈ above, v ∈ above' ∨ g.Grounded v) (h : Path.Waits g above path) :
    Path.Waits g above' path := by
  induction path generalizing above above' with
  | nil => trivial
  | cons entry rest ih =>
    obtain ⟨u, next⟩ := entry
    obtain ⟨hu, hrest⟩ := h
    refine ⟨fun v hv => ?_, ih (fun v hv => ?_) hrest⟩
    · rcases hu v hv with hnext | habove | hgrounded
      · exact .inl hnext
      · exact .inr (hle v habove)
      · exact .inr (.inr hgrounded)
    · rcases List.mem_cons.mp hv with rfl | hv
      · exact .inl (List.mem_cons_self ..)
      · exact (hle v hv).imp_left (List.mem_cons_of_mem _)

/-- What a search knows that has closed no cycle: discovered vertices are on the path or grounded,
and the vertices of the path wait. -/
structure Path.Clear (g : Digraph n) (discovered : List (Fin n)) (path : Path n) : Prop where
  grounded : ∀ u ∈ discovered, u ∈ path.vertices ∨ g.Grounded u
  waits : Path.Waits g [] path

namespace Path

variable {discovered : List (Fin n)} {u v : Fin n} {vs : List (Fin n)} {rest : Path n}

/-- The innermost vertex is grounded once it has no successor left to visit. -/
theorem Clear.pop (h : Clear g discovered ((u, []) :: rest)) : Clear g discovered rest := by
  obtain ⟨hu, hrest⟩ := h.waits
  have hgrounded : g.Grounded u := by
    refine grounded_of_adj fun v hv => ?_
    exact ((hu v hv).resolve_left List.not_mem_nil).resolve_left List.not_mem_nil
  refine ⟨fun w hw => ?_, hrest.mono fun w hw => ?_⟩
  · rcases h.grounded w hw with hpath | hw
    · rcases List.mem_cons.mp hpath with rfl | hpath
      · exact .inr hgrounded
      · exact .inl hpath
    · exact .inr hw
  · obtain rfl := List.mem_singleton.mp hw
    exact .inr hgrounded

/-- A discovered vertex that is not on the path is grounded, and may be passed over. -/
theorem Clear.skip (h : Clear g discovered ((u, v :: vs) :: rest)) (hv : v ∈ discovered)
    (hpath : v ∉ Path.vertices ((u, vs) :: rest)) : Clear g discovered ((u, vs) :: rest) := by
  obtain ⟨hu, hrest⟩ := h.waits
  refine ⟨h.grounded, fun w hw => ?_, hrest⟩
  rcases hu w hw with hnext | hw
  · rcases List.mem_cons.mp hnext with rfl | hnext
    · exact .inr (.inr ((h.grounded w hv).resolve_left hpath))
    · exact .inl hnext
  · exact .inr hw

/-- A new vertex goes on top of the path. -/
theorem Clear.push (h : Clear g discovered ((u, v :: vs) :: rest)) :
    Clear g (v :: discovered) ((v, g.successors v) :: (u, vs) :: rest) := by
  obtain ⟨hu, hrest⟩ := h.waits
  refine ⟨fun w hw => ?_, fun w hw => .inl (mem_successors.mpr hw), fun w hw => ?_,
    hrest.mono fun w hw => ?_⟩
  · rcases List.mem_cons.mp hw with rfl | hw
    · exact .inl (List.mem_cons_self ..)
    · exact (h.grounded w hw).imp_left (List.mem_cons_of_mem _)
  · rcases hu w hw with hnext | habove | hgrounded
    · rcases List.mem_cons.mp hnext with rfl | hnext
      · exact .inr (.inl (List.mem_cons_self ..))
      · exact .inl hnext
    · exact absurd habove List.not_mem_nil
    · exact .inr (.inr hgrounded)
  · exact .inl (List.mem_cons.mpr (.inl (List.mem_singleton.mp hw)))

/-- A search begins with one vertex. -/
theorem Clear.start (h : ∀ w ∈ discovered, g.Grounded w) :
    Clear g (u :: discovered) [(u, g.successors u)] := by
  refine ⟨fun w hw => ?_, fun w hw => .inl (mem_successors.mpr hw), trivial⟩
  rcases List.mem_cons.mp hw with rfl | hw
  · exact .inl (List.mem_cons_self ..)
  · exact .inr (h w hw)

end Path

/-- A search that closes no cycle grounds what it has discovered, and loses nothing. -/
theorem grounded_of_searchPath {discovered discovered' : List (Fin n)} {path : Path n}
    (h : Path.Clear g discovered path) (hs : searchPath g discovered path = .ok discovered') :
    (∀ u ∈ discovered', g.Grounded u) ∧ discovered ⊆ discovered' := by
  fun_induction searchPath g discovered path with
  | case1 discovered =>
    cases hs
    exact ⟨fun u hu => (h.grounded u hu).resolve_left List.not_mem_nil, List.Subset.refl _⟩
  | case2 discovered u rest ih => exact ih h.pop hs
  | case3 discovered u v vs rest hv ih =>
    obtain ⟨hgrounded, hsub⟩ := ih h.push hs
    exact ⟨hgrounded, (List.cons_subset.mp hsub).2⟩
  | case4 => simp at hs
  | case5 discovered u v vs rest hv hpath ih => exact ih (h.skip (not_not.mp hv) hpath) hs

theorem grounded_of_searchAll {starts discovered discovered' : List (Fin n)}
    (h : ∀ u ∈ discovered, g.Grounded u) (hs : searchAll g discovered starts = .ok discovered') :
    (∀ u ∈ discovered', g.Grounded u) ∧ discovered ⊆ discovered' ∧ starts ⊆ discovered' := by
  induction starts generalizing discovered with
  | nil =>
    cases hs
    exact ⟨h, List.Subset.refl _, List.nil_subset _⟩
  | cons u rest ih =>
    rw [searchAll] at hs
    split at hs
    next hu =>
      obtain ⟨hgrounded, hsub, hrest⟩ := ih h hs
      exact ⟨hgrounded, hsub, List.cons_subset.mpr ⟨hsub hu, hrest⟩⟩
    next hu =>
      cases hp : searchPath g (u :: discovered) [(u, g.successors u)] with
      | error cycle =>
        rw [hp] at hs
        cases hs
      | ok discovered₁ =>
        rw [hp] at hs
        obtain ⟨h₁, hsub₁⟩ := grounded_of_searchPath (.start h) hp
        obtain ⟨hgrounded, hsub, hrest⟩ := ih h₁ hs
        obtain ⟨hu₁, hsub₁⟩ := List.cons_subset.mp hsub₁
        exact ⟨hgrounded, List.Subset.trans hsub₁ hsub, List.cons_subset.mpr ⟨hsub hu₁, hrest⟩⟩

/-- **No cycle is missed**: where the search finds nothing, there is no cycle. -/
theorem acyclic_of_cycle?_eq_none (h : g.cycle? = none) : g.Acyclic := by
  unfold cycle? at h
  split at h
  next => simp at h
  next discovered hs =>
    obtain ⟨hgrounded, -, hall⟩ := grounded_of_searchAll (fun _ hu => absurd hu List.not_mem_nil) hs
    exact acyclic_of_grounded fun u => hgrounded u (hall (List.mem_finRange u))

theorem cycle?_eq_none_iff : g.cycle? = none ↔ g.Acyclic :=
  ⟨acyclic_of_cycle?_eq_none, Acyclic.cycle?_eq_none⟩

end PromptPipeline.Digraph
