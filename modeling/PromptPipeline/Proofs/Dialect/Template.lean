import PromptPipeline.Dialect.Template
import PromptPipeline.Text.Blank

/-!
# When a template can be filled

The parameters of a template are the names that stand in braces somewhere in it
(`mem_parameters_iff_mentions`). Substitution fails on the first placeholder without a value and on
nothing else, so it succeeds if and only if every parameter of the template has a value
(`substitute_isOk_iff`).
-/

namespace PromptPipeline.Template

theorem mem_parameters {template name : String} :
    name ∈ parameters template ↔ name ∈ placeholderNames (pieces template.toList) := by
  rw [parameters, NameSet.mem_ofList]

/-! ## Placeholders -/

/-- Every character of a parameter's name may continue one. -/
theorem isParameterPart_of_mem {name : List Char} (h : Name.isParameter name = true) {c : Char}
    (hc : c ∈ name) : Name.isParameterPart c = true := by
  cases name with
  | nil => cases hc
  | cons first rest =>
    simp only [Name.isParameter, Bool.and_eq_true, List.all_eq_true] at h
    rcases List.mem_cons.mp hc with rfl | hc
    · have hstart := h.1
      simp only [Name.isParameterStart, Bool.or_eq_true] at hstart
      simp only [Name.isParameterPart, Char.isAlphanum, Bool.or_eq_true]
      exact hstart.imp_left .inl
    · exact h.2 c hc

/-- A placeholder is a name of a parameter in braces. -/
theorem placeholderAt?_eq_some_iff {s name after : List Char} :
    placeholderAt? s = some (name, after) ↔
      s = '\x7b' :: (name ++ '\x7d' :: after) ∧ Name.isParameter name = true := by
  constructor
  · intro h
    unfold placeholderAt? at h
    split at h
    next rest =>
      split at h
      next after' heq =>
        split at h
        next hname =>
          cases h
          rw [← heq, List.takeWhile_append_dropWhile]
          exact ⟨rfl, hname⟩
        next => cases h
      next => cases h
    next => cases h
  · rintro ⟨rfl, hname⟩
    have hpart : ∀ c ∈ name, Name.isParameterPart c = true := fun c => isParameterPart_of_mem hname
    have hhead : ∀ c ∈ ('\x7d' :: after).head?, Name.isParameterPart c = false := by
      intro c hc
      obtain rfl := Option.some.inj hc
      decide
    have htake := Text.takeWhile_run_append hpart hhead
    have hdrop := Text.dropWhile_run_append hpart hhead
    simp only [placeholderAt?, htake, hdrop, hname, if_true]

theorem toList_braced (name : String) :
    (braced name).toList = '\x7b' :: (name.toList ++ ['\x7d']) := by
  simp [braced]

/-- The template has a placeholder for the name: a parameter's name that stands in braces somewhere
in it. -/
def Mentions (template name : String) : Prop :=
  Name.isParameter name.toList = true ∧ (braced name).toList <:+: template.toList

/-- A name in braces does not start in a text without opening braces. -/
theorem braced_infix_append_iff {name : String} {s rest : List Char} (h : ∀ c ∈ s, c ≠ '\x7b') :
    (braced name).toList <:+: s ++ rest ↔ (braced name).toList <:+: rest := by
  rw [toList_braced]
  induction s with
  | nil => rfl
  | cons c s ih =>
    obtain ⟨hc, hs⟩ := List.forall_mem_cons.mp h
    rw [List.cons_append, List.infix_cons_iff, ih hs]
    refine or_iff_right fun hpre => ?_
    exact hc (List.cons_prefix_cons.mp hpre).1.symm

/-- A text starts with a name in braces if and only if it starts with this placeholder. -/
theorem braced_prefix_iff {name : String} {s : List Char}
    (h : Name.isParameter name.toList = true) :
    (braced name).toList <+: s ↔ ∃ after, placeholderAt? s = some (name.toList, after) := by
  simp only [placeholderAt?_eq_some_iff, h, and_true, toList_braced]
  constructor
  · rintro ⟨after, rfl⟩
    exact ⟨after, by simp⟩
  · rintro ⟨after, rfl⟩
    exact ⟨after, by simp⟩

theorem pieces_of_placeholderAt? {s name after : List Char}
    (h : placeholderAt? s = some (name, after)) :
    pieces s = .placeholder (.ofList name) :: pieces after := by
  obtain ⟨rfl, -⟩ := placeholderAt?_eq_some_iff.mp h
  rw [pieces]
  split
  next heq =>
    rw [heq] at h
    cases h
    rfl
  next heq =>
    rw [heq] at h
    cases h

theorem pieces_cons_of_placeholderAt? {c : Char} {rest : List Char}
    (h : placeholderAt? (c :: rest) = none) : pieces (c :: rest) = .char c :: pieces rest := by
  rw [pieces]
  split
  next heq =>
    rw [heq] at h
    cases h
  next => rfl

/-- The placeholders of a text are the names in braces that stand somewhere in it. -/
theorem mem_placeholderNames_pieces {name : String} {s : List Char} :
    name ∈ placeholderNames (pieces s) ↔
      Name.isParameter name.toList = true ∧ (braced name).toList <:+: s := by
  induction s using pieces.induct with
  | case1 =>
    rw [pieces, toList_braced]
    simp [placeholderNames]
  | case2 c rest first after hp ih =>
    -- No name in braces starts inside the first placeholder.
    obtain ⟨heq, hfirst⟩ := placeholderAt?_eq_some_iff.mp hp
    obtain ⟨rfl, rfl⟩ := List.cons.inj heq
    have hinner : ∀ d ∈ first ++ ['\x7d'], d ≠ '\x7b' := by
      intro d hd
      rcases List.mem_append.mp hd with hd | hd
      · rintro rfl
        exact absurd (isParameterPart_of_mem hfirst hd) (by decide)
      · rw [List.mem_singleton.mp hd]
        decide
    have hrest : (braced name).toList <:+: first ++ '\x7d' :: after ↔
        (braced name).toList <:+: after := by
      have hiff : (braced name).toList <:+: first ++ ['\x7d'] ++ after ↔
          (braced name).toList <:+: after := braced_infix_append_iff hinner
      rwa [List.append_assoc] at hiff
    have hhead : Name.isParameter name.toList = true →
        ((braced name).toList <+: '\x7b' :: (first ++ '\x7d' :: after) ↔ name = .ofList first) := by
      intro hname
      rw [braced_prefix_iff hname, hp]
      simp [← String.toList_inj, eq_comm]
    rw [pieces_of_placeholderAt? hp, List.infix_cons_iff, hrest]
    show name ∈ String.ofList first :: placeholderNames (pieces after) ↔ _
    rw [List.mem_cons, ih]
    constructor
    · rintro (rfl | ⟨hname, hinfix⟩)
      · rw [String.toList_ofList] at hhead ⊢
        exact ⟨hfirst, .inl ((hhead hfirst).mpr rfl)⟩
      · exact ⟨hname, .inr hinfix⟩
    · rintro ⟨hname, hpre | hinfix⟩
      · exact .inl ((hhead hname).mp hpre)
      · exact .inr ⟨hname, hinfix⟩
  | case3 c rest hp ih =>
    rw [pieces_cons_of_placeholderAt? hp, List.infix_cons_iff]
    show name ∈ placeholderNames (pieces rest) ↔ _
    rw [ih]
    refine and_congr_right fun hname => (or_iff_right fun hpre => ?_).symm
    obtain ⟨after, hafter⟩ := (braced_prefix_iff hname).mp hpre
    rw [hp] at hafter
    cases hafter

/-- **The parameters of a template are the names that it mentions.** -/
theorem mem_parameters_iff_mentions {template name : String} :
    name ∈ parameters template ↔ Mentions template name := by
  rw [mem_parameters, mem_placeholderNames_pieces, Mentions]

/-! ## Substitution -/

/-- Filling fails on the first placeholder without a value, and only there. -/
theorem fill_eq_error_iff {values : Bindings String} {ps : List Piece} {e : PipelineError} :
    fill values ps = .error e ↔
      ∃ name, (placeholderNames ps).find? (!values.contains ·) = some name ∧
        e = .unexpected (.unresolvedPlaceholder name) := by
  induction ps with
  | nil => simp [fill, placeholderNames]
  | cons piece rest ih =>
    cases piece with
    | char c =>
      have hnames : placeholderNames (.char c :: rest) = placeholderNames rest := by
        simp [placeholderNames]
      rw [hnames, ← ih, fill]
      cases fill values rest <;> simp [Except.map]
    | placeholder name =>
      have hnames :
          placeholderNames (.placeholder name :: rest) = name :: placeholderNames rest := by
        simp [placeholderNames]
      rw [hnames, fill]
      cases hvalue : values.get? name with
      | none =>
        have hunbound : values.contains name = false := by simp [Bindings.contains, hvalue]
        rw [List.find?_cons, hunbound]
        simp [eq_comm]
      | some value =>
        have hbound : values.contains name = true := by simp [Bindings.contains, hvalue]
        rw [List.find?_cons, hbound]
        show _ ↔ ∃ n, (placeholderNames rest).find? (!values.contains ·) = some n ∧ _
        rw [← ih]
        cases fill values rest <;> simp [Except.map]

/-- The only fault of a substitution is a parameter of the template without a value. -/
theorem exists_of_substitute_eq_error {template : String} {values : Bindings String}
    {e : PipelineError} (h : substitute template values = .error e) :
    ∃ name ∈ parameters template, values.contains name = false ∧
      e = .unexpected (.unresolvedPlaceholder name) := by
  unfold substitute at h
  cases hfill : fill values (pieces template.toList) with
  | ok text => simp [hfill, Except.map] at h
  | error e' =>
    obtain ⟨name, hfind, rfl⟩ := fill_eq_error_iff.mp hfill
    have hunbound : values.contains name = false := by simpa using List.find?_some hfind
    rw [hfill] at h
    cases h
    exact ⟨name, mem_parameters.mpr (List.mem_of_find?_eq_some hfind), hunbound, rfl⟩

/-- **A template can be filled if and only if each of its parameters has a value.** -/
theorem substitute_isOk_iff {template : String} {values : Bindings String} :
    (∃ text, substitute template values = .ok text) ↔
      ∀ name ∈ parameters template, values.contains name = true := by
  constructor
  · rintro ⟨text, h⟩ name hname
    -- Otherwise some placeholder without a value is found, and filling fails.
    cases hfind : (placeholderNames (pieces template.toList)).find? (!values.contains ·) with
    | none =>
      simpa using List.find?_eq_none.mp hfind name (mem_parameters.mp hname)
    | some first =>
      have hfill := fill_eq_error_iff.mpr ⟨first, hfind, rfl⟩
      rw [substitute, hfill] at h
      cases h
  · intro hall
    cases h : substitute template values with
    | ok text => exact ⟨text, rfl⟩
    | error e =>
      obtain ⟨name, hname, hunbound, -⟩ := exists_of_substitute_eq_error h
      rw [hall name hname] at hunbound
      cases hunbound

end PromptPipeline.Template
