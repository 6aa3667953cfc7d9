import PromptPipeline.Proofs.Files.Tree

/-!
# Listing a directory

A lookup finds the first entry of a location, but a listing shows all of them, so it is only to be
trusted where no location is listed twice (`Unrepeated`). Each change of a tree keeps this. Main
statement: `mem_children_iff`, a directory lists what is at the places in it, and each name once
(`children_pairwise`).
-/

namespace PromptPipeline.FileTree

variable {t t' : FileTree} {l : Location} {name : String} {node : FileNode}

/-- No location below this one has two entries. -/
def Unrepeated (t : FileTree) (l : Location) : Prop :=
  t.entries.Pairwise fun e e' => (∃ way, way ≠ [] ∧ e.1 = l ++ way) → e.1 ≠ e'.1

/-! ## Changes -/

/-- Where there is nothing, nothing is repeated. -/
theorem unrepeated_of_vacant (h : ∀ way, way ≠ [] → t.at? (l ++ way) = none) :
    t.Unrepeated l := by
  refine List.pairwise_of_forall_mem_list fun e he e' _ hbelow => ?_
  obtain ⟨way, hway, heq⟩ := hbelow
  have hnone := h way hway
  rw [at?, if_neg (by simp [hway]), List.lookup_eq_none_iff] at hnone
  have hne := hnone e he
  rw [heq] at hne
  simp at hne

theorem Unrepeated.below (h : t.Unrepeated l) (way : Location) : t.Unrepeated (l ++ way) := by
  refine h.imp fun {e e'} hne hbelow => hne ?_
  obtain ⟨rest, hrest, heq⟩ := hbelow
  exact ⟨way ++ rest, by simp [hrest], by rw [heq, List.append_assoc]⟩

theorem Unrepeated.put (h : t.Unrepeated l) (l' : Location) (node : FileNode) :
    (t.put l' node).Unrepeated l := by
  refine List.pairwise_cons.mpr ⟨fun e he _ => ?_, h.filter _⟩
  have hne : e.1 ≠ l' := by simpa using (List.mem_filter.mp he).2
  exact hne.symm

theorem Unrepeated.removeTree (h : t.Unrepeated l) (l' : Location) :
    (t.removeTree l').Unrepeated l :=
  h.filter _

theorem Unrepeated.makeWay (h : t.Unrepeated l) {base way : Location}
    (hmake : t.makeWay base way = .ok t') : t'.Unrepeated l := by
  induction way generalizing t base with
  | nil =>
    cases hmake
    exact h
  | cons name rest ih =>
    rw [FileTree.makeWay] at hmake
    split at hmake
    next => exact ih (h.put _ _) hmake
    next => exact ih h hmake
    next => cases hmake

theorem Unrepeated.makeDirectories (h : t.Unrepeated l) {l' : Location}
    (hmake : t.makeDirectories l' = .ok t') : t'.Unrepeated l :=
  h.makeWay hmake

theorem Unrepeated.write (h : t.Unrepeated l) {l' : Location} {bytes : List UInt8}
    (hwrite : t.write l' bytes = .ok t') : t'.Unrepeated l := by
  unfold FileTree.write at hwrite
  cases hfind : t.find l'.dropLast with
  | error fault =>
    rw [hfind] at hwrite
    cases hwrite
  | ok node =>
    rw [hfind] at hwrite
    cases node with
    | file _ => cases hwrite
    | directory =>
      change (if _ then _ else _) = _ at hwrite
      split at hwrite
      next => cases hwrite
      next =>
        cases hwrite
        exact h.put _ _

/-! ## Listings -/

/-- An entry below the location is the one that is found at its place. -/
theorem Unrepeated.mem_entries_iff (h : t.Unrepeated l) {way : Location} (hway : way ≠ []) :
    (l ++ way, node) ∈ t.entries ↔ t.at? (l ++ way) = some node := by
  rw [at?, if_neg (by simp [hway])]
  unfold Unrepeated at h
  generalize t.entries = entries at h ⊢
  induction entries with
  | nil => simp
  | cons e rest ih =>
    obtain ⟨k, v⟩ := e
    obtain ⟨hk, hrest⟩ := List.pairwise_cons.mp h
    rw [List.mem_cons, lookup_cons_eq, Prod.mk.injEq]
    split
    next heq =>
      constructor
      · rintro (⟨-, rfl⟩ | hmem)
        · rfl
        · exact absurd heq.symm (hk _ hmem ⟨way, hway, heq.symm⟩)
      · intro hv
        exact .inl ⟨heq, (Option.some.inj hv).symm⟩
    next hne => rw [ih hrest, or_iff_right fun heq => hne heq.1]

theorem below?_eq_some_iff {inner way : Location} :
    below? l inner = some way ↔ inner = l ++ way ∧ way ≠ [] := by
  unfold below?
  constructor
  · intro h
    split at h
    next hbelow =>
      obtain ⟨rest, rfl⟩ := List.isPrefixOf_iff_prefix.mp hbelow.1
      rw [List.drop_left] at h
      cases h
      refine ⟨rfl, ?_⟩
      rintro rfl
      exact hbelow.2 (List.append_nil l).symm
    next => cases h
  · rintro ⟨rfl, hway⟩
    have hpre : l.isPrefixOf (l ++ way) = true :=
      List.isPrefixOf_iff_prefix.mpr (List.prefix_append l way)
    rw [if_pos ⟨hpre, by simpa using hway.symm⟩, List.drop_left]

theorem mem_descendants_iff {way : Location} :
    (way, node) ∈ t.descendants l ↔ (l ++ way, node) ∈ t.entries ∧ way ≠ [] := by
  unfold descendants
  simp only [List.mem_filterMap, Option.map_eq_some_iff, Prod.mk.injEq, Prod.exists]
  constructor
  · rintro ⟨inner, node', hmem, way', hbelow, rfl, rfl⟩
    obtain ⟨rfl, hway⟩ := below?_eq_some_iff.mp hbelow
    exact ⟨hmem, hway⟩
  · rintro ⟨hmem, hway⟩
    exact ⟨_, _, hmem, way, below?_eq_some_iff.mpr ⟨rfl, hway⟩, rfl, rfl⟩

/-- A directory lists what is at the places in it. -/
theorem mem_children_iff (h : t.Unrepeated l) :
    (name, node) ∈ t.children l ↔ t.at? (l ++ [name]) = some node := by
  rw [← h.mem_entries_iff (by simp)]
  have hdescendant : ([name], node) ∈ t.descendants l ↔ (l ++ [name], node) ∈ t.entries := by
    rw [mem_descendants_iff]
    exact and_iff_left (by simp)
  rw [← hdescendant, children, List.mem_filterMap]
  constructor
  · rintro ⟨⟨way, node'⟩, hmem, heq⟩
    split at heq
    next heq' =>
      cases heq'
      cases heq
      exact hmem
    next => cases heq
  · intro hmem
    exact ⟨_, hmem, rfl⟩

/-- A directory lists each name once. -/
theorem children_pairwise (h : t.Unrepeated l) :
    (t.children l).Pairwise fun e e' => e.1 ≠ e'.1 := by
  -- ways below a location differ where locations do, and names in it where ways do
  have hdescendants : (t.descendants l).Pairwise fun e e' => e.1 ≠ e'.1 := by
    refine List.Pairwise.filterMap _ (fun e e' hne d hd d' hd' heq => ?_) h
    obtain ⟨way, hway, rfl⟩ := Option.map_eq_some_iff.mp hd
    obtain ⟨way', hway', rfl⟩ := Option.map_eq_some_iff.mp hd'
    obtain ⟨hinner, hnonempty⟩ := below?_eq_some_iff.mp hway
    obtain ⟨hinner', -⟩ := below?_eq_some_iff.mp hway'
    have hsame : way = way' := heq
    exact hne ⟨way, hnonempty, hinner⟩ (by rw [hinner, hinner', hsame])
  refine List.Pairwise.filterMap _ (fun e e' hne d hd d' hd' heq => hne ?_) hdescendants
  split at hd
  next =>
    split at hd'
    next =>
      cases hd
      cases hd'
      exact congrArg (fun name => [name]) heq
    next => cases hd'
  next => cases hd

end PromptPipeline.FileTree
