import PromptPipeline.NameSet

/-!
# Bindings

A finite map from names to values, kept in the order of the names. Main statement: `get?_insert`,
a binding changes the value of its own name only.
-/

namespace PromptPipeline

/-- A map from names to values, as its entries in increasing order of their names. -/
structure Bindings (α : Type) where
  toList : List (String × α)
  sorted : toList.Pairwise (·.1 < ·.1)

namespace Bindings

variable {α β : Type}

instance [DecidableEq α] : DecidableEq (Bindings α) := fun a b =>
  decidable_of_iff (a.toList = b.toList) ⟨fun h => by cases a; cases b; simp_all, fun h => h ▸ rfl⟩

/-- Puts an entry at its place in a sorted list, in place of the entry of that name. -/
def insertSorted (name : String) (value : α) : List (String × α) → List (String × α)
  | [] => [(name, value)]
  | (x, v) :: rest =>
    if name < x then (name, value) :: (x, v) :: rest
    else if name = x then (name, value) :: rest
    else (x, v) :: insertSorted name value rest

theorem mem_insertSorted {name : String} {value : α} {e : String × α} {l : List (String × α)}
    (h : e ∈ insertSorted name value l) : e = (name, value) ∨ e ∈ l := by
  induction l with
  | nil => simpa [insertSorted] using h
  | cons y rest ih =>
    simp only [insertSorted] at h
    split at h
    · simpa using h
    · split at h
      · rcases List.mem_cons.1 h with h | h
        · exact .inl h
        · exact .inr (List.mem_cons_of_mem _ h)
      · rcases List.mem_cons.1 h with h | h
        · exact .inr (h ▸ List.mem_cons_self ..)
        · rcases ih h with h | h
          · exact .inl h
          · exact .inr (List.mem_cons_of_mem _ h)

theorem insertSorted_sorted {name : String} {value : α} {l : List (String × α)}
    (h : l.Pairwise (·.1 < ·.1)) : (insertSorted name value l).Pairwise (·.1 < ·.1) := by
  induction l with
  | nil => simp [insertSorted]
  | cons y rest ih =>
    obtain ⟨hy, hrest⟩ := List.pairwise_cons.1 h
    simp only [insertSorted]
    split
    · next hlt =>
      refine List.pairwise_cons.2 ⟨fun a ha => ?_, h⟩
      rcases List.mem_cons.1 ha with rfl | ha
      · exact hlt
      · exact String.lt_trans hlt (hy a ha)
    · split
      · next heq => exact List.pairwise_cons.2 ⟨fun a ha => heq ▸ hy a ha, hrest⟩
      · next hlt hne =>
        refine List.pairwise_cons.2 ⟨fun a ha => ?_, ih hrest⟩
        rcases mem_insertSorted ha with rfl | ha
        · exact NameSet.lt_of_not_lt_of_ne hlt hne
        · exact hy a ha

/-- The map without entries. -/
def empty : Bindings α := ⟨[], .nil⟩

instance : Inhabited (Bindings α) := ⟨empty⟩

instance : EmptyCollection (Bindings α) := ⟨empty⟩

/-- The value bound to a name. -/
def get? (b : Bindings α) (name : String) : Option α :=
  b.toList.lookup name

/-- Whether the name is bound. -/
def contains (b : Bindings α) (name : String) : Bool :=
  (b.get? name).isSome

/-- The map in which the name is bound to the value, whatever it was bound to before. -/
def insert (b : Bindings α) (name : String) (value : α) : Bindings α :=
  ⟨insertSorted name value b.toList, insertSorted_sorted b.sorted⟩

/-- The entries of the list; of several with one name the last one counts. -/
def ofList (entries : List (String × α)) : Bindings α :=
  entries.foldl (fun b e => b.insert e.1 e.2) empty

/-- The entries whose name and value satisfy `p`. -/
def filter (b : Bindings α) (p : String → α → Bool) : Bindings α :=
  ⟨b.toList.filter fun e => p e.1 e.2, b.sorted.filter _⟩

/-- The map without the entry of a name. -/
def erase (b : Bindings α) (name : String) : Bindings α :=
  b.filter fun x _ => x ≠ name

/-- The map with every value replaced by its image. -/
def mapValues (f : α → β) (b : Bindings α) : Bindings β :=
  ⟨b.toList.map fun e => (e.1, f e.2), by
    rw [List.pairwise_map]; exact b.sorted⟩

/-- The bound names. -/
def keys (b : Bindings α) : List String :=
  b.toList.map (·.1)

/-- The number of bound names. -/
def size (b : Bindings α) : Nat :=
  b.toList.length

theorem lookup_cons_eq {x k : String} {v : α} {l : List (String × α)} :
    ((k, v) :: l).lookup x = if x = k then some v else l.lookup x := by
  by_cases h : x = k
  · simp [h]
  · have hb : (x == k) = false := by simpa using h
    simp only [List.lookup_cons, hb, if_neg h]

theorem lookup_insertSorted {name x : String} {value : α} {l : List (String × α)} :
    (insertSorted name value l).lookup x = if x = name then some value else l.lookup x := by
  induction l with
  | nil => simp [insertSorted, lookup_cons_eq]
  | cons y rest ih =>
    obtain ⟨k, v⟩ := y
    simp only [insertSorted]
    split
    · simp [lookup_cons_eq]
    · split
      · next heq => subst heq; by_cases h : x = name <;> simp [lookup_cons_eq, h]
      · next hne =>
        by_cases h : x = k
        · have : ¬x = name := fun h' => hne (h' ▸ h)
          subst h
          simp [this]
        · simp only [lookup_cons_eq, if_neg h, ih]

@[simp]
theorem get?_empty (x : String) : (empty : Bindings α).get? x = none := rfl

/-- A binding changes the value of its own name only. -/
theorem get?_insert {b : Bindings α} {name x : String} {value : α} :
    (b.insert name value).get? x = if x = name then some value else b.get? x :=
  lookup_insertSorted

end Bindings

end PromptPipeline
