import PromptPipeline.Bindings

/-!
# Laws of bindings

Bindings are determined by what they bind (`ext`), and each operation is described by what it binds.
-/

namespace PromptPipeline.Bindings

variable {α : Type} {b b' : Bindings α}

/-- An entry of sorted entries is the one that a lookup of its name finds. -/
theorem lookup_eq_some_iff_mem {l : List (String × α)} (h : l.Pairwise (·.1 < ·.1)) {name : String}
    {value : α} : l.lookup name = some value ↔ (name, value) ∈ l := by
  induction l with
  | nil => simp
  | cons e rest ih =>
    obtain ⟨k, v⟩ := e
    obtain ⟨hk, hrest⟩ := List.pairwise_cons.mp h
    rw [lookup_cons_eq, List.mem_cons, Prod.mk.injEq]
    split
    next heq =>
      subst heq
      constructor
      · intro hv
        exact .inl ⟨rfl, (Option.some.inj hv).symm⟩
      · rintro (⟨-, rfl⟩ | hmem)
        · rfl
        · exact absurd (hk _ hmem) (String.lt_irrefl _)
    next hne => rw [ih hrest, or_iff_right fun heq => hne heq.1]

theorem get?_eq_some_iff_mem {name : String} {value : α} :
    b.get? name = some value ↔ (name, value) ∈ b.toList :=
  lookup_eq_some_iff_mem b.sorted

theorem get?_filter_eq_some_iff {p : String → α → Bool} {name : String} {value : α} :
    (b.filter p).get? name = some value ↔ b.get? name = some value ∧ p name value = true := by
  rw [get?_eq_some_iff_mem, get?_eq_some_iff_mem, filter, List.mem_filter]

theorem get?_erase {name key : String} :
    (b.erase key).get? name = if name = key then none else b.get? name := by
  refine Option.ext fun value => ?_
  rw [erase, get?_filter_eq_some_iff, decide_eq_true_iff]
  split
  next heq => exact iff_of_false (fun h => h.2 heq) (fun h => nomatch h)
  next hne => exact and_iff_left hne

theorem contains_iff {name : String} :
    b.contains name = true ↔ ∃ value, b.get? name = some value := by
  rw [contains, Option.isSome_iff_exists]

theorem not_contains_iff {name : String} : b.contains name = false ↔ b.get? name = none := by
  rw [contains, Option.isSome_eq_false_iff, Option.isNone_iff_eq_none]

theorem toList_nodup (b : Bindings α) : b.toList.Nodup := by
  refine b.sorted.imp fun {e e'} hlt heq => ?_
  rw [heq] at hlt
  exact String.lt_irrefl _ hlt

theorem keys_nodup (b : Bindings α) : b.keys.Nodup := by
  refine List.pairwise_map.mpr (b.sorted.imp fun {e e'} hlt heq => ?_)
  rw [heq] at hlt
  exact String.lt_irrefl _ hlt

/-- Bindings that bind the same values to the same names are equal. -/
theorem ext (h : ∀ name, b.get? name = b'.get? name) : b = b' := by
  have hmem : ∀ e, e ∈ b.toList ↔ e ∈ b'.toList := by
    rintro ⟨name, value⟩
    rw [← get?_eq_some_iff_mem, ← get?_eq_some_iff_mem, h]
  have hperm : b.toList.Perm b'.toList :=
    (List.perm_ext_iff_of_nodup b.toList_nodup b'.toList_nodup).mpr hmem
  -- Two sorted lists with the same entries are the same list.
  have hasymm : ∀ e e' : String × α, e ∈ b.toList → e' ∈ b'.toList → e.1 < e'.1 → e'.1 < e.1 →
      e = e' := by
    intro e e' _ _ hlt hgt
    exact absurd (String.lt_trans hlt hgt) (String.lt_irrefl _)
  have heq : b.toList = b'.toList := hperm.eq_of_pairwise hasymm b.sorted b'.sorted
  cases b
  cases b'
  cases heq
  rfl

/-- What satisfies the same condition of the same bindings is the same. -/
theorem filter_congr {p q : String → α → Bool}
    (h : ∀ name value, (b.get? name = some value ∧ p name value = true) ↔
      (b'.get? name = some value ∧ q name value = true)) : b.filter p = b'.filter q := by
  refine ext fun name => Option.ext fun value => ?_
  rw [get?_filter_eq_some_iff, get?_filter_eq_some_iff, h]

/-- What the first bindings bind, the second ones bind to the same value. -/
def Le (b b' : Bindings α) : Prop :=
  ∀ name value, b.get? name = some value → b'.get? name = some value

theorem Le.refl (b : Bindings α) : b.Le b :=
  fun _ _ h => h

theorem Le.trans {b₁ b₂ b₃ : Bindings α} (h₁₂ : b₁.Le b₂) (h₂₃ : b₂.Le b₃) : b₁.Le b₃ :=
  fun name value h => h₂₃ name value (h₁₂ name value h)

end PromptPipeline.Bindings
