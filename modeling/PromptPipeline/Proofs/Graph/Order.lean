import PromptPipeline.Graph.Order
import PromptPipeline.Proofs.Graph.Acyclic

/-!
# The sweep finds a topological order

Between two steps of a sweep a vertex is undiscovered, open (discovered, but not finished) or
finished. Two bundles of facts are carried from step to step:

* `Sweep.Sound` holds on every graph: open vertices are on the stack, finished ones are listed once,
  and no discovered vertex is its own successor. When the stack is empty, all discovered vertices
  are finished.
* `Sweep.Ordered` holds on acyclic graphs: the successors of an open vertex are finished or wait
  above it on the stack, and everything above it is reached from it. So when an open vertex comes to
  the top, its successors are finished, and it can be put before them.

Main statements: `topologicalOrder?_isTopological`, what the sweep returns is a topological order;
`Acyclic.exists_topologicalOrder?`, it returns one on every acyclic graph.
-/

namespace PromptPipeline.Digraph

open Relation (TransGen)

variable {n : Nat} {g : Digraph n}

/-! ## What holds on every graph -/

/-- The discovered vertices that are not finished are on the stack, and none is its own
successor. -/
structure Sweep.Sound (g : Digraph n) (st : Sweep n) (stack : List (Fin n)) : Prop where
  nodup : st.finished.Nodup
  discovered : ∀ u ∈ st.finished, u ∈ st.discovered
  not_adj_self : ∀ u ∈ st.discovered, ¬g.Adj u u
  on_stack : ∀ u ∈ st.discovered, u ∈ st.finished ∨ u ∈ stack

theorem Sweep.Sound.pop {st : Sweep n} {u : Fin n} {rest : List (Fin n)}
    (h : st.Sound g (u :: rest)) (hu : u ∈ st.finished) : st.Sound g rest := by
  refine ⟨h.nodup, h.discovered, h.not_adj_self, fun v hv => ?_⟩
  rcases h.on_stack v hv with hfin | hstack
  · exact .inl hfin
  · rcases List.mem_cons.mp hstack with rfl | hrest
    · exact .inl hu
    · exact .inr hrest

theorem Sweep.Sound.finish {st : Sweep n} {u : Fin n} {rest : List (Fin n)}
    (h : st.Sound g (u :: rest)) (hu : u ∈ st.discovered) (hfin : u ∉ st.finished) :
    Sweep.Sound g { st with finished := u :: st.finished } rest := by
  refine ⟨List.nodup_cons.mpr ⟨hfin, h.nodup⟩, fun v hv => ?_, h.not_adj_self, fun v hv => ?_⟩
  · rcases List.mem_cons.mp hv with rfl | hv
    · exact hu
    · exact h.discovered v hv
  · rcases h.on_stack v hv with hv | hv
    · exact .inl (List.mem_cons_of_mem _ hv)
    · rcases List.mem_cons.mp hv with rfl | hrest
      · exact .inl (List.mem_cons_self ..)
      · exact .inr hrest

theorem Sweep.Sound.discover {st : Sweep n} {u : Fin n} {rest fresh : List (Fin n)}
    (h : st.Sound g (u :: rest)) (hu : ¬g.Adj u u) :
    Sweep.Sound g { st with discovered := u :: st.discovered } (fresh ++ u :: rest) := by
  refine ⟨h.nodup, fun v hv => List.mem_cons_of_mem _ (h.discovered v hv), fun v hv => ?_,
    fun v hv => ?_⟩
  · rcases List.mem_cons.mp hv with rfl | hv
    · exact hu
    · exact h.not_adj_self v hv
  · rcases List.mem_cons.mp hv with rfl | hv
    · exact .inr (List.mem_append_right _ (List.mem_cons_self ..))
    · rcases h.on_stack v hv with hfin | hstack
      · exact .inl hfin
      · exact .inr (List.mem_append_right _ hstack)

theorem Sweep.Sound.start {st : Sweep n} {stack : List (Fin n)} (h : st.Sound g []) :
    st.Sound g stack :=
  ⟨h.nodup, h.discovered, h.not_adj_self, fun v hv =>
    .inl ((h.on_stack v hv).resolve_right List.not_mem_nil)⟩

/-- A sweep that comes to its end has discovered all that was on the stack. -/
theorem sweepStack_sound {st st' : Sweep n} {stack : List (Fin n)} (h : st.Sound g stack)
    (hs : sweepStack g st stack = some st') :
    st'.Sound g [] ∧ st.discovered ⊆ st'.discovered ∧ stack ⊆ st'.discovered := by
  fun_induction sweepStack g st stack with
  | case1 st =>
    cases hs
    exact ⟨h, List.Subset.refl _, List.nil_subset _⟩
  | case2 st u rest hu hfin ih =>
    obtain ⟨hsound, hsub, hrest⟩ := ih (h.pop hfin) hs
    exact ⟨hsound, hsub, List.cons_subset.mpr ⟨hsub hu, hrest⟩⟩
  | case3 st u rest hu hfin ih =>
    obtain ⟨hsound, hsub, hrest⟩ := ih (h.finish hu hfin) hs
    exact ⟨hsound, hsub, List.cons_subset.mpr ⟨hsub hu, hrest⟩⟩
  | case4 => simp at hs
  | case5 st u rest hu hloop fresh ih =>
    obtain ⟨hsound, hsub, hstack⟩ := ih (h.discover fun hadj => hloop (mem_successors.mpr hadj)) hs
    exact ⟨hsound, (List.cons_subset.mp hsub).2, (List.append_subset.mp hstack).2⟩

theorem sweepAll_sound {starts : List (Fin n)} {st st' : Sweep n} (h : st.Sound g [])
    (hs : sweepAll g st starts = some st') :
    st'.Sound g [] ∧ st.discovered ⊆ st'.discovered ∧ starts ⊆ st'.discovered := by
  induction starts generalizing st with
  | nil =>
    cases hs
    exact ⟨h, List.Subset.refl _, List.nil_subset _⟩
  | cons u rest ih =>
    rw [sweepAll] at hs
    split at hs
    next hu =>
      obtain ⟨hsound, hsub, hrest⟩ := ih h hs
      exact ⟨hsound, hsub, List.cons_subset.mpr ⟨hsub hu, hrest⟩⟩
    next hu =>
      obtain ⟨st₁, hs₁, hs₂⟩ := Option.bind_eq_some_iff.mp hs
      obtain ⟨hsound₁, hsub₁, hstack₁⟩ := sweepStack_sound h.start hs₁
      obtain ⟨hsound₂, hsub₂, hrest⟩ := ih hsound₁ hs₂
      exact ⟨hsound₂, List.Subset.trans hsub₁ hsub₂,
        List.cons_subset.mpr ⟨hsub₂ (hstack₁ (List.mem_cons_self ..)), hrest⟩⟩

/-- The start of a sweep. -/
theorem Sweep.Sound.empty : Sweep.Sound g ⟨[], []⟩ [] :=
  ⟨.nil, fun _ h => (nomatch h), fun _ h => (nomatch h), fun _ h => (nomatch h)⟩

/-- A sweep from all vertices that comes to its end has finished each of them. -/
theorem mem_finished_of_sweepAll {st : Sweep n}
    (hs : sweepAll g ⟨[], []⟩ (List.finRange n) = some st) (v : Fin n) : v ∈ st.finished := by
  obtain ⟨hsound, -, hall⟩ := sweepAll_sound Sweep.Sound.empty hs
  exact (hsound.on_stack v (hall (List.mem_finRange v))).resolve_right List.not_mem_nil

/-! ## The final check of the order -/

theorem pairwise_of_inOrder {order seen : List (Fin n)} (h : inOrder g seen order = true)
    (hnodup : order.Nodup) (hseen : ∀ v ∈ order, v ∉ seen) :
    order.Pairwise fun u v => ¬g.Adj v u := by
  induction order generalizing seen with
  | nil => exact .nil
  | cons u rest ih =>
    obtain ⟨hu, hrest⟩ := List.nodup_cons.mp hnodup
    simp only [inOrder, Bool.and_eq_true, List.all_eq_true, decide_eq_true_eq] at h
    have hne : ∀ v ∈ rest, v ∉ u :: seen := by
      intro v hv hmem
      rcases List.mem_cons.mp hmem with rfl | hmem
      · exact hu hv
      · exact hseen v (List.mem_cons_of_mem _ hv) hmem
    refine List.pairwise_cons.mpr ⟨fun v hv hadj => ?_, ih h.2 hrest hne⟩
    exact hne v hv (h.1 v (mem_predecessors.mpr hadj))

theorem inOrder_of_pairwise {order seen : List (Fin n)}
    (h : order.Pairwise fun u v => ¬g.Adj v u) (hall : ∀ v, v ∈ seen ∨ v ∈ order) :
    inOrder g seen order = true := by
  induction order generalizing seen with
  | nil => rfl
  | cons u rest ih =>
    obtain ⟨hu, hrest⟩ := List.pairwise_cons.mp h
    simp only [inOrder, Bool.and_eq_true, List.all_eq_true, decide_eq_true_eq]
    constructor
    · intro v hv
      rcases hall v with hseen | horder
      · exact List.mem_cons_of_mem _ hseen
      · rcases List.mem_cons.mp horder with rfl | hmem
        · exact List.mem_cons_self ..
        · exact absurd (mem_predecessors.mp hv) (hu v hmem)
    · refine ih hrest fun v => ?_
      rcases hall v with hseen | horder
      · exact .inl (List.mem_cons_of_mem _ hseen)
      · rcases List.mem_cons.mp horder with rfl | hmem
        · exact .inl (List.mem_cons_self ..)
        · exact .inr hmem

/-- An arc from the second of two vertices to the first is all that can spoil a complete list. -/
theorem isTopological_of_pairwise {order : List (Fin n)} (hnodup : order.Nodup)
    (hall : ∀ v, v ∈ order) (hloop : ∀ v, ¬g.Adj v v)
    (h : order.Pairwise fun u v => ¬g.Adj v u) : g.IsTopological order := by
  refine ⟨?_, fun u v huv => ?_⟩
  · refine (List.perm_ext_iff_of_nodup hnodup (List.nodup_finRange n)).mpr fun v => ?_
    exact ⟨fun _ => List.mem_finRange v, fun _ => hall v⟩
  · rcases Nat.lt_trichotomy (order.idxOf u) (order.idxOf v) with hlt | heq | hgt
    · exact hlt
    · rw [List.idxOf_inj (hall u)] at heq
      exact absurd (heq ▸ huv) (hloop u)
    · have hv := List.idxOf_lt_length_of_mem (hall v)
      have hu := List.idxOf_lt_length_of_mem (hall u)
      have hnot := List.pairwise_iff_getElem.mp h _ _ hv hu hgt
      rw [List.getElem_idxOf, List.getElem_idxOf] at hnot
      exact absurd huv hnot

/-- **What the sweep returns is a topological order.** -/
theorem topologicalOrder?_isTopological {order : List (Fin n)}
    (h : g.topologicalOrder? = some order) : g.IsTopological order := by
  unfold topologicalOrder? at h
  split at h
  next st hs =>
    split at h
    next hcheck =>
      cases h
      obtain ⟨hsound, -, hall⟩ := sweepAll_sound Sweep.Sound.empty hs
      refine isTopological_of_pairwise hsound.nodup (mem_finished_of_sweepAll hs)
        (fun v => hsound.not_adj_self v (hall (List.mem_finRange v))) ?_
      exact pairwise_of_inOrder hcheck hsound.nodup fun _ _ => List.not_mem_nil
    next => simp at h
  next => simp at h

/-! ## What holds on acyclic graphs -/

/-- The vertex is discovered but not finished, and stands on the stack below the given vertices. -/
structure Sweep.Open (st : Sweep n) (stack above : List (Fin n)) (u : Fin n) : Prop where
  split : ∃ below, stack = above ++ u :: below
  topmost : u ∉ above
  discovered : u ∈ st.discovered
  unfinished : u ∉ st.finished

/-- Finished vertices stand before their successors, and open ones wait for theirs. -/
structure Sweep.Ordered (g : Digraph n) (st : Sweep n) (stack : List (Fin n)) : Prop where
  settled : ∀ u post, u :: post <:+ st.finished → ∀ w, g.Adj u w → w ∈ post
  waits : ∀ above u, st.Open stack above u → ∀ w, g.Adj u w → w ∈ st.finished ∨ w ∈ above
  reaches : ∀ above u, st.Open stack above u → ∀ w ∈ above, TransGen g.Adj u w

/-- An open vertex below the top is open in the same way with the top put back. -/
theorem Sweep.Open.push {st : Sweep n} {u v : Fin n} {rest above : List (Fin n)}
    (h : st.Open rest above v) (hne : v ≠ u) : st.Open (u :: rest) (u :: above) v := by
  obtain ⟨below, hsplit⟩ := h.split
  refine ⟨⟨below, by rw [hsplit]; rfl⟩, fun hmem => ?_, h.discovered, h.unfinished⟩
  rcases List.mem_cons.mp hmem with heq | habove
  · exact hne heq
  · exact h.topmost habove

theorem Sweep.Ordered.pop {st : Sweep n} {u : Fin n} {rest : List (Fin n)}
    (h : st.Ordered g (u :: rest)) (hu : u ∈ st.finished) : st.Ordered g rest := by
  have hpush : ∀ above v, st.Open rest above v → st.Open (u :: rest) (u :: above) v :=
    fun above v hv => hv.push fun heq => hv.unfinished (heq ▸ hu)
  refine ⟨h.settled, fun above v hv w hw => ?_, fun above v hv w hw => ?_⟩
  · rcases h.waits _ _ (hpush above v hv) w hw with hfin | habove
    · exact .inl hfin
    · rcases List.mem_cons.mp habove with rfl | habove
      · exact .inl hu
      · exact .inr habove
  · exact h.reaches _ _ (hpush above v hv) w (List.mem_cons_of_mem _ hw)

theorem Sweep.Ordered.finish {st : Sweep n} {u : Fin n} {rest : List (Fin n)}
    (h : st.Ordered g (u :: rest)) (hu : u ∈ st.discovered) (hfin : u ∉ st.finished) :
    Sweep.Ordered g { st with finished := u :: st.finished } rest := by
  have hopen : st.Open (u :: rest) [] u := ⟨⟨rest, rfl⟩, List.not_mem_nil, hu, hfin⟩
  have hpush : ∀ above v, Sweep.Open { st with finished := u :: st.finished } rest above v →
      st.Open (u :: rest) (u :: above) v := by
    intro above v hv
    have hne : v ≠ u := fun heq => hv.unfinished (heq ▸ List.mem_cons_self ..)
    have hunfinished : v ∉ st.finished := fun hmem => hv.unfinished (List.mem_cons_of_mem _ hmem)
    exact Sweep.Open.push ⟨hv.split, hv.topmost, hv.discovered, hunfinished⟩ hne
  refine ⟨fun v post hsuffix w hw => ?_, fun above v hv w hw => ?_, fun above v hv w hw => ?_⟩
  · rcases List.suffix_cons_iff.mp hsuffix with heq | hsuffix
    · -- `u` itself: nothing is above it on the stack any more
      obtain ⟨rfl, rfl⟩ := List.cons_eq_cons.mp heq
      exact (h.waits [] _ hopen w hw).resolve_right List.not_mem_nil
    · exact h.settled v post hsuffix w hw
  · rcases h.waits _ _ (hpush above v hv) w hw with hmem | habove
    · exact .inl (List.mem_cons_of_mem _ hmem)
    · rcases List.mem_cons.mp habove with rfl | habove
      · exact .inl (List.mem_cons_self ..)
      · exact .inr habove
  · exact h.reaches _ _ (hpush above v hv) w (List.mem_cons_of_mem _ hw)

/-- After a discovery the open vertices are the new one, below its fresh successors, and those that
were open below it. -/
theorem Sweep.Open.of_discover {st : Sweep n} {u v : Fin n} {rest fresh above : List (Fin n)}
    (hfresh : ∀ w ∈ fresh, w ∉ u :: st.discovered)
    (hv : Sweep.Open { st with discovered := u :: st.discovered } (fresh ++ u :: rest) above v) :
    (v = u ∧ above = fresh) ∨
      ∃ mid, above = fresh ++ u :: mid ∧ st.Open (u :: rest) (u :: mid) v := by
  obtain ⟨below, hsplit⟩ := hv.split
  rcases List.append_eq_append_iff.mp hsplit with ⟨mid, habove, hrest⟩ | ⟨mid, hmid, hrest⟩
  · cases mid with
    | nil =>
      obtain ⟨rfl, -⟩ := List.cons_eq_cons.mp hrest
      exact .inl ⟨rfl, by rw [habove, List.append_nil]⟩
    | cons x mid =>
      obtain ⟨rfl, hrest⟩ := List.cons_eq_cons.mp hrest
      have hmem : u ∈ above := by
        rw [habove]
        exact List.mem_append_right _ (List.mem_cons_self ..)
      have hne : v ≠ u := fun heq => hv.topmost (heq ▸ hmem)
      refine .inr ⟨mid, habove, ⟨below, by rw [hrest]⟩, fun hv' => ?_, ?_, hv.unfinished⟩
      · exact hv.topmost (habove ▸ List.mem_append_right _ hv')
      · exact (List.mem_cons.mp hv.discovered).resolve_left hne
  · cases mid with
    | nil =>
      obtain ⟨rfl, -⟩ := List.cons_eq_cons.mp hrest
      exact .inl ⟨rfl, by rw [hmid, List.append_nil]⟩
    | cons x mid =>
      -- a fresh vertex is not discovered
      obtain ⟨rfl, -⟩ := List.cons_eq_cons.mp hrest
      have hmem : v ∈ fresh := by
        rw [hmid]
        exact List.mem_append_right _ (List.mem_cons_self ..)
      exact absurd hv.discovered (hfresh v hmem)

theorem Sweep.Ordered.discover {st : Sweep n} {u : Fin n} {rest fresh : List (Fin n)}
    (h : st.Ordered g (u :: rest)) (hsound : st.Sound g (u :: rest)) (hacyclic : g.Acyclic)
    (hu : u ∉ st.discovered)
    (hfresh : ∀ w, w ∈ fresh ↔ g.Adj u w ∧ w ∉ u :: st.discovered) :
    Sweep.Ordered g { st with discovered := u :: st.discovered } (fresh ++ u :: rest) := by
  have hcases (above : List (Fin n)) (v : Fin n)
      (hv : Sweep.Open { st with discovered := u :: st.discovered } (fresh ++ u :: rest) above v) :
      (v = u ∧ above = fresh) ∨
        ∃ mid, above = fresh ++ u :: mid ∧ st.Open (u :: rest) (u :: mid) v :=
    Sweep.Open.of_discover (fun w hw => ((hfresh w).mp hw).2) hv
  refine ⟨h.settled, fun above v hv w hw => ?_, fun above v hv w hw => ?_⟩
  · rcases hcases above v hv with ⟨rfl, rfl⟩ | ⟨mid, rfl, hopen⟩
    · -- a successor that is not fresh is finished: an open one would be reached from itself
      by_cases hmem : w ∈ v :: st.discovered
      · rcases List.mem_cons.mp hmem with rfl | hdisc
        · exact absurd hw (hacyclic.not_adj_self w)
        · rcases hsound.on_stack w hdisc with hfin | hstack
          · exact .inl hfin
          · by_cases hfin : w ∈ st.finished
            · exact .inl hfin
            · have hne : w ≠ v := fun heq => hu (heq ▸ hdisc)
              have hrest := (List.mem_cons.mp hstack).resolve_left hne
              obtain ⟨mid, below, rfl, htop⟩ := List.eq_append_cons_of_mem hrest
              have hopen : st.Open (v :: (mid ++ w :: below)) (v :: mid) w :=
                Sweep.Open.push ⟨⟨below, rfl⟩, htop, hdisc, hfin⟩ hne
              have hback := h.reaches _ _ hopen v (List.mem_cons_self ..)
              exact absurd (TransGen.head hw hback) (hacyclic v)
      · exact .inr ((hfresh w).mpr ⟨hw, hmem⟩)
    · rcases h.waits _ _ hopen w hw with hfin | hmid
      · exact .inl hfin
      · exact .inr (List.mem_append_right _ hmid)
  · rcases hcases above v hv with ⟨rfl, rfl⟩ | ⟨mid, rfl, hopen⟩
    · exact .single ((hfresh w).mp hw).1
    · rcases List.mem_append.mp hw with hw | hw
      · exact .tail (h.reaches _ _ hopen u (List.mem_cons_self ..)) ((hfresh w).mp hw).1
      · exact h.reaches _ _ hopen w hw

theorem sweepStack_ordered {st st' : Sweep n} {stack : List (Fin n)} (hacyclic : g.Acyclic)
    (h : st.Ordered g stack) (hsound : st.Sound g stack)
    (hs : sweepStack g st stack = some st') : st'.Ordered g [] := by
  fun_induction sweepStack g st stack with
  | case1 st =>
    cases hs
    exact h
  | case2 st u rest hu hfin ih => exact ih (h.pop hfin) (hsound.pop hfin) hs
  | case3 st u rest hu hfin ih => exact ih (h.finish hu hfin) (hsound.finish hu hfin) hs
  | case4 => simp at hs
  | case5 st u rest hu hloop fresh ih =>
    have hfresh : ∀ w, w ∈ fresh.reverse ↔ g.Adj u w ∧ w ∉ u :: st.discovered := by
      intro w
      rw [List.mem_reverse, List.mem_filter, mem_successors, decide_eq_true_eq]
    exact ih (h.discover hsound hacyclic hu hfresh)
      (hsound.discover fun hadj => hloop (mem_successors.mpr hadj)) hs

/-- Without a loop the sweep of a stack comes to its end. -/
theorem exists_sweepStack (hloop : ∀ v, ¬g.Adj v v) (st : Sweep n) (stack : List (Fin n)) :
    ∃ st', sweepStack g st stack = some st' := by
  fun_induction sweepStack g st stack with
  | case1 st => exact ⟨st, rfl⟩
  | case2 st u rest hu hfin ih => exact ih
  | case3 st u rest hu hfin ih => exact ih
  | case4 st u rest hu hself => exact absurd (mem_successors.mp hself) (hloop u)
  | case5 st u rest hu hself fresh ih => exact ih

theorem exists_sweepAll (hacyclic : g.Acyclic) (starts : List (Fin n)) {st : Sweep n}
    (h : st.Ordered g []) (hsound : st.Sound g []) :
    ∃ st', sweepAll g st starts = some st' ∧ st'.Ordered g [] := by
  induction starts generalizing st with
  | nil => exact ⟨st, rfl, h⟩
  | cons u rest ih =>
    rw [sweepAll]
    split
    next => exact ih h hsound
    next hu =>
      obtain ⟨st₁, hs₁⟩ := exists_sweepStack hacyclic.not_adj_self st [u]
      have hnone : ∀ above v, ¬st.Open [u] above v := by
        intro above v hv
        obtain ⟨below, hsplit⟩ := hv.split
        have hmem : v ∈ [u] := hsplit ▸ List.mem_append_right _ (List.mem_cons_self ..)
        exact hu (List.mem_singleton.mp hmem ▸ hv.discovered)
      have hstart : st.Ordered g [u] :=
        ⟨h.settled, fun above v hv => absurd hv (hnone above v),
          fun above v hv => absurd hv (hnone above v)⟩
      have hordered := sweepStack_ordered hacyclic hstart hsound.start hs₁
      obtain ⟨st₂, hs₂, hordered₂⟩ := ih hordered (sweepStack_sound hsound.start hs₁).1
      exact ⟨st₂, by rw [hs₁]; exact hs₂, hordered₂⟩

/-- The start of a sweep. -/
theorem Sweep.Ordered.empty : Sweep.Ordered g ⟨[], []⟩ [] := by
  refine ⟨fun u post h => ?_, fun above u h => ?_, fun above u h => ?_⟩
  · exact absurd (List.suffix_nil.mp h) (List.cons_ne_nil _ _)
  · exact absurd h.discovered List.not_mem_nil
  · exact absurd h.discovered List.not_mem_nil

/-- In a list in which all vertices stand before their successors no arc leads back. -/
theorem pairwise_of_settled {order : List (Fin n)} (hnodup : order.Nodup)
    (h : ∀ u post, u :: post <:+ order → ∀ w, g.Adj u w → w ∈ post) :
    order.Pairwise fun u v => ¬g.Adj v u := by
  induction order with
  | nil => exact .nil
  | cons u rest ih =>
    obtain ⟨hu, hrest⟩ := List.nodup_cons.mp hnodup
    refine List.pairwise_cons.mpr ⟨fun v hv hadj => ?_, ih hrest fun v post hsuffix => ?_⟩
    · obtain ⟨pre, post, rfl⟩ := List.append_of_mem hv
      have hsuffix : v :: post <:+ u :: (pre ++ v :: post) := ⟨u :: pre, rfl⟩
      have hmem := h v post hsuffix u hadj
      exact hu (List.mem_append_right _ (List.mem_cons_of_mem _ hmem))
    · exact h v post (hsuffix.trans (List.suffix_cons u rest))

/-- **An acyclic graph has a topological order, and the sweep finds one.** -/
theorem Acyclic.exists_topologicalOrder? (h : g.Acyclic) :
    ∃ order, g.topologicalOrder? = some order := by
  obtain ⟨st, hs, hordered⟩ :=
    exists_sweepAll h (List.finRange n) Sweep.Ordered.empty Sweep.Sound.empty
  obtain ⟨hsound, -, -⟩ := sweepAll_sound Sweep.Sound.empty hs
  have hpairwise := pairwise_of_settled hsound.nodup hordered.settled
  have hcheck : inOrder g [] st.finished = true :=
    inOrder_of_pairwise hpairwise fun v => .inr (mem_finished_of_sweepAll hs v)
  exact ⟨st.finished, by rw [topologicalOrder?, hs]; simp [hcheck]⟩

end PromptPipeline.Digraph
