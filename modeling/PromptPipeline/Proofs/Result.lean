/-!
# Steps that may fail

A chain of steps succeeds if each of them does. What holds at the start of a loop and is kept by
each step that succeeds holds at its end (`foldlM_induction`). A chain fails where its first step
fails: the error of a loop is that of one step, and all steps before it succeeded
(`forM_eq_error_iff`, `foldlM_eq_error_iff`).
-/

namespace PromptPipeline

theorem bind_eq_ok_iff {ε α β : Type} {x : Except ε α} {f : α → Except ε β} {b : β} :
    (x >>= f) = .ok b ↔ ∃ a, x = .ok a ∧ f a = .ok b := by
  cases x with
  | error e => simp [bind, Except.bind]
  | ok a => simp [bind, Except.bind]

theorem bind_eq_error_iff {ε α β : Type} {x : Except ε α} {f : α → Except ε β} {e : ε} :
    (x >>= f) = .error e ↔ x = .error e ∨ ∃ a, x = .ok a ∧ f a = .error e := by
  cases x with
  | error e' => simp [bind, Except.bind]
  | ok a => simp [bind, Except.bind]

/-- What only turns a value into another one does not fail. -/
theorem bind_ok_eq_error_iff {ε α β : Type} {x : Except ε α} {f : α → β} {e : ε} :
    (x >>= fun a => .ok (f a)) = .error e ↔ x = .error e := by
  rw [bind_eq_error_iff]
  exact or_iff_left fun ⟨_, _, h⟩ => nomatch h

theorem map_eq_ok_iff {ε α β : Type} {x : Except ε α} {f : α → β} {b : β} :
    x.map f = .ok b ↔ ∃ a, x = .ok a ∧ f a = b := by
  cases x with
  | error e => simp [Except.map]
  | ok a => simp [Except.map]

theorem map_eq_error_iff {ε α β : Type} {x : Except ε α} {f : α → β} {e : ε} :
    x.map f = .error e ↔ x = .error e := by
  cases x with
  | error e' => simp [Except.map]
  | ok a => simp [Except.map]

/-- Of two checks in a row both have to pass. -/
theorem then_eq_ok_iff {ε β : Type} {x : Except ε Unit} {y : Except ε β} {b : β} :
    (x >>= fun _ => y) = .ok b ↔ x = .ok () ∧ y = .ok b := by
  rw [bind_eq_ok_iff]
  constructor
  · rintro ⟨⟨⟩, hx, hy⟩
    exact ⟨hx, hy⟩
  · rintro ⟨hx, hy⟩
    exact ⟨(), hx, hy⟩

/-- Of two checks in a row the first one fails, or it passes and the second one fails. -/
theorem then_eq_error_iff {ε β : Type} {x : Except ε Unit} {y : Except ε β} {e : ε} :
    (x >>= fun _ => y) = .error e ↔ x = .error e ∨ x = .ok () ∧ y = .error e := by
  rw [bind_eq_error_iff]
  refine or_congr Iff.rfl ⟨?_, fun ⟨hx, hy⟩ => ⟨(), hx, hy⟩⟩
  rintro ⟨⟨⟩, hx, hy⟩
  exact ⟨hx, hy⟩

/-- A row of checks passes if each of them does. -/
theorem forM_eq_ok_iff {ε α : Type} {check : α → Except ε Unit} {l : List α} :
    l.forM check = .ok () ↔ ∀ a ∈ l, check a = .ok () := by
  induction l with
  | nil => exact ⟨fun _ => List.forall_mem_nil _, fun _ => rfl⟩
  | cons c l ih =>
    show (check c >>= fun _ => l.forM check) = .ok () ↔ _
    rw [then_eq_ok_iff, ih, List.forall_mem_cons]

/-- A row of checks fails with the error of one of them, and those before it pass. -/
theorem forM_eq_error_iff {ε α : Type} {check : α → Except ε Unit} {l : List α} {e : ε} :
    l.forM check = .error e ↔ ∃ before a after, l = before ++ a :: after ∧
      (∀ b ∈ before, check b = .ok ()) ∧ check a = .error e := by
  induction l with
  | nil =>
    constructor
    · intro h
      cases h
    · rintro ⟨before, a, after, h, -⟩
      simp at h
  | cons c l ih =>
    show (check c >>= fun _ => l.forM check) = .error e ↔ _
    rw [then_eq_error_iff, ih]
    constructor
    · rintro (hc | ⟨hc, before, a, after, rfl, hbefore, ha⟩)
      · exact ⟨[], c, l, rfl, List.forall_mem_nil _, hc⟩
      · exact ⟨c :: before, a, after, rfl, List.forall_mem_cons.mpr ⟨hc, hbefore⟩, ha⟩
    · rintro ⟨before, a, after, h, hbefore, ha⟩
      cases before with
      | nil =>
        obtain ⟨rfl, rfl⟩ := List.cons.inj h
        exact .inl ha
      | cons b before =>
        obtain ⟨rfl, rfl⟩ := List.cons.inj h
        obtain ⟨hb, hbefore⟩ := List.forall_mem_cons.mp hbefore
        exact .inr ⟨hb, before, a, after, rfl, hbefore, ha⟩

theorem foldlM_cons_eq_ok_iff {ε α β : Type} {f : β → α → Except ε β} {a : α} {l : List α}
    {b b' : β} : (a :: l).foldlM f b = .ok b' ↔ ∃ c, f b a = .ok c ∧ l.foldlM f c = .ok b' := by
  rw [List.foldlM_cons, bind_eq_ok_iff]

/-- What each step of a loop keeps of the elements read so far, the loop keeps of all. -/
theorem foldlM_induction_prefix {ε α β : Type} {f : β → α → Except ε β} {P : List α → β → Prop}
    (hf : ∀ before b a b', P before b → f b a = .ok b' → P (before ++ [a]) b') {l : List α}
    {b b' : β} (before : List α) (hb : P before b) (h : l.foldlM f b = .ok b') :
    P (before ++ l) b' := by
  induction l generalizing before b with
  | nil =>
    cases h
    rwa [List.append_nil]
  | cons a l ih =>
    obtain ⟨c, hc, hrest⟩ := foldlM_cons_eq_ok_iff.mp h
    have hall := ih (before ++ [a]) (hf before b a c hb hc) hrest
    rwa [List.append_assoc] at hall

/-- What each step of a loop keeps, the loop keeps. -/
theorem foldlM_induction {ε α β : Type} {f : β → α → Except ε β} {P : β → Prop}
    (hf : ∀ b a b', P b → f b a = .ok b' → P b') {l : List α} {b b' : β} (hb : P b)
    (h : l.foldlM f b = .ok b') : P b' :=
  foldlM_induction_prefix (P := fun _ => P) (fun _ => hf) [] hb h

/-- A loop fails with the error of one of its steps, and the steps before it succeed. -/
theorem foldlM_eq_error_iff {ε α β : Type} {f : β → α → Except ε β} {l : List α} {b : β} {e : ε} :
    l.foldlM f b = .error e ↔ ∃ before a after c, l = before ++ a :: after ∧
      before.foldlM f b = .ok c ∧ f c a = .error e := by
  induction l generalizing b with
  | nil =>
    constructor
    · intro h
      cases h
    · rintro ⟨before, a, after, c, h, -⟩
      simp at h
  | cons a' l ih =>
    rw [List.foldlM_cons, bind_eq_error_iff]
    constructor
    · rintro (hfirst | ⟨c, hc, hrest⟩)
      · exact ⟨[], a', l, b, rfl, rfl, hfirst⟩
      · obtain ⟨before, a, after, c', rfl, hbefore, ha⟩ := ih.mp hrest
        exact ⟨a' :: before, a, after, c', rfl, foldlM_cons_eq_ok_iff.mpr ⟨c, hc, hbefore⟩, ha⟩
    · rintro ⟨before, a, after, c, h, hbefore, ha⟩
      cases before with
      | nil =>
        obtain ⟨rfl, rfl⟩ := List.cons.inj h
        cases hbefore
        exact .inl ha
      | cons b₁ before =>
        obtain ⟨rfl, rfl⟩ := List.cons.inj h
        obtain ⟨c', hc', hbefore⟩ := foldlM_cons_eq_ok_iff.mp hbefore
        exact .inr ⟨c', hc', ih.mpr ⟨before, a, after, c, rfl, hbefore, ha⟩⟩

end PromptPipeline
