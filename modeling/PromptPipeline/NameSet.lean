/-!
# Sets of names

A set of names is its sorted list of members without repetition, so equal sets are equal values
and every listing of a set is in order. Main statement: `mem_insert`.
-/

namespace PromptPipeline

/-- A set of names, kept as its members in increasing order. -/
structure NameSet where
  toList : List String
  sorted : toList.Pairwise (· < ·)
  deriving DecidableEq

namespace NameSet

/-- Puts a name at its place in a sorted list, unless it is there. -/
def insertSorted (name : String) : List String → List String
  | [] => [name]
  | x :: rest =>
    if name < x then name :: x :: rest
    else if name = x then x :: rest
    else x :: insertSorted name rest

theorem mem_insertSorted {name x : String} {l : List String} :
    x ∈ insertSorted name l ↔ x = name ∨ x ∈ l := by
  induction l with
  | nil => simp [insertSorted]
  | cons y rest ih =>
    simp only [insertSorted]
    split
    · simp
    · split
      · subst_vars; simp
      · simp [ih]; grind

theorem lt_of_not_lt_of_ne {a b : String} (h : ¬a < b) (hne : a ≠ b) : b < a := by
  rcases Std.lt_trichotomy a b with h' | h' | h'
  · exact absurd h' h
  · exact absurd h' hne
  · exact h'

theorem insertSorted_sorted {name : String} {l : List String} (h : l.Pairwise (· < ·)) :
    (insertSorted name l).Pairwise (· < ·) := by
  induction l with
  | nil => simp [insertSorted]
  | cons y rest ih =>
    obtain ⟨hy, hrest⟩ := List.pairwise_cons.1 h
    simp only [insertSorted]
    split
    · next hlt =>
      refine List.pairwise_cons.2 ⟨fun a ha => ?_, h⟩
      rcases List.mem_cons.1 ha with rfl | ha
      · exact hlt
      · exact String.lt_trans hlt (hy a ha)
    · split
      · exact h
      · next hlt hne =>
        refine List.pairwise_cons.2 ⟨fun a ha => ?_, ih hrest⟩
        rcases mem_insertSorted.1 ha with rfl | ha
        · exact lt_of_not_lt_of_ne hlt hne
        · exact hy a ha

/-- The set without members. -/
def empty : NameSet := ⟨[], .nil⟩

instance : Inhabited NameSet := ⟨empty⟩

instance : EmptyCollection NameSet := ⟨empty⟩

instance : Membership String NameSet := ⟨fun s name => name ∈ s.toList⟩

instance (name : String) (s : NameSet) : Decidable (name ∈ s) :=
  inferInstanceAs (Decidable (name ∈ s.toList))

/-- The set with one more member. -/
def insert (s : NameSet) (name : String) : NameSet :=
  ⟨insertSorted name s.toList, insertSorted_sorted s.sorted⟩

/-- The set of the members of a list. -/
def ofList (names : List String) : NameSet :=
  names.foldl insert empty

/-- The members of either set. -/
def union (s t : NameSet) : NameSet :=
  t.toList.foldl insert s

/-- The members that satisfy `p`. -/
def filter (s : NameSet) (p : String → Bool) : NameSet :=
  ⟨s.toList.filter p, s.sorted.filter p⟩

/-- The members that the other set does not have. -/
def diff (s t : NameSet) : NameSet :=
  s.filter fun name => !decide (name ∈ t)

/-- Whether the set has no member. -/
def isEmpty (s : NameSet) : Bool :=
  s.toList.isEmpty

theorem mem_def {s : NameSet} {name : String} : name ∈ s ↔ name ∈ s.toList :=
  Iff.rfl

@[simp]
theorem not_mem_empty (name : String) : ¬name ∈ empty := by
  simp [mem_def, empty]

@[simp]
theorem mem_insert {s : NameSet} {name x : String} : x ∈ s.insert name ↔ x = name ∨ x ∈ s := by
  simp [mem_def, insert, mem_insertSorted]

theorem mem_foldl_insert {names : List String} {s : NameSet} {x : String} :
    x ∈ names.foldl insert s ↔ x ∈ names ∨ x ∈ s := by
  induction names generalizing s with
  | nil => simp
  | cons n rest ih => simp [ih]; grind

@[simp]
theorem mem_ofList {names : List String} {x : String} : x ∈ ofList names ↔ x ∈ names := by
  simp [ofList, mem_foldl_insert]

@[simp]
theorem mem_union {s t : NameSet} {x : String} : x ∈ s.union t ↔ x ∈ s ∨ x ∈ t := by
  rw [union, mem_foldl_insert, or_comm, mem_def, mem_def]

@[simp]
theorem mem_filter {s : NameSet} {p : String → Bool} {x : String} :
    x ∈ s.filter p ↔ x ∈ s ∧ p x = true := by
  simp [mem_def, filter]

@[simp]
theorem mem_diff {s t : NameSet} {x : String} : x ∈ s.diff t ↔ x ∈ s ∧ ¬x ∈ t := by
  simp [diff]

/-- Sets with the same members are equal. -/
theorem ext {s t : NameSet} (h : ∀ x, x ∈ s ↔ x ∈ t) : s = t := by
  have hnodup (s : NameSet) : s.toList.Nodup := by
    refine s.sorted.imp fun {x y} hlt heq => ?_
    rw [heq] at hlt
    exact String.lt_irrefl _ hlt
  have hperm : s.toList.Perm t.toList :=
    (List.perm_ext_iff_of_nodup (hnodup s) (hnodup t)).mpr h
  have heq : s.toList = t.toList :=
    hperm.eq_of_pairwise
      (fun x y _ _ hlt hgt => absurd (String.lt_trans hlt hgt) (String.lt_irrefl _))
      s.sorted t.sorted
  cases s
  cases t
  cases heq
  rfl

/-- A set is the set of its members. -/
theorem ofList_toList (s : NameSet) : ofList s.toList = s :=
  ext fun _ => mem_ofList

end NameSet

end PromptPipeline
