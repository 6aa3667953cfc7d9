import PromptPipeline.Adapter.Filler
import PromptPipeline.Proofs.Expectation.Count

/-!
# Filler text is the shortest that fits

The endless text is told twice: by the character at each position (`Filler.charAt`), and as the
text that is repeated, written down again and again. Its beginnings are the same either way
(`isBeginning_iff`), and there is one of each length. So the search for filler text, which grows a
beginning by one character at a time, finds the shortest that fits (`text_eq_ok_iff`), whatever is
expected: expectations need not become easier to meet as a text grows.

Main statement: `text_is_shortest`.
-/

namespace PromptPipeline

/-- A text has nothing left when it is trimmed if and only if it is blank. -/
theorem Text.trim_eq_nil_iff {s : List Char} : trim s = [] ↔ ∀ c ∈ s, isBlank c = true := by
  rw [← isBlankText_iff, ← words_eq_nil_iff, ← words_trim, words_eq_nil_iff, isBlankText_iff]
  constructor
  · intro h
    rw [h]
    exact List.forall_mem_nil _
  · intro h
    have hfirst : (trim s).dropWhile isBlank = [] := List.dropWhile_eq_nil_iff.mpr h
    have htrimmed := (trimmed_trim s).trim_eq
    rw [← htrimmed, trim, trimWhile, hfirst]
    rfl

namespace Filler

variable {es : List Expectation} {limit n : Nat} {p : Prompt} {t : String}

/-! ## The endless text -/

/-- The text is the beginning of the endlessly repeated text. -/
def IsBeginning (t : String) : Prop :=
  ∃ times, t.toList <+: (List.replicate times lorem.toList).flatten

/-- A list, written down again and again, has at each position what the list has at the rest that is
left of it by the length. -/
theorem flatten_replicate_eq {α : Type} (l : List α) (default : α) (times : Nat) :
    (List.replicate times l).flatten =
      (List.range (times * l.length)).map fun i => l.getD (i % l.length) default := by
  induction times with
  | zero => simp
  | succ times ih =>
    have hfirst : (List.range l.length).map (fun i => l.getD (i % l.length) default) = l := by
      refine List.ext_getElem (by simp) fun i _ hi => ?_
      rw [List.getElem_map, List.getElem_range, Nat.mod_eq_of_lt hi, List.getD_eq_getElem _ _ hi]
    rw [List.replicate_succ, List.flatten_cons, ih, Nat.succ_mul, Nat.add_comm, List.range_add,
      List.map_append, hfirst, List.map_map]
    refine congrArg _ (List.map_congr_left fun i _ => ?_)
    rw [Function.comp_apply, Nat.add_mod_left]

theorem charAt_eq (i : Nat) : charAt i = lorem.toList.getD (i % lorem.toList.length) ' ' := by
  rw [charAt, source, List.size_toArray, Array.getD_eq_getD_getElem?, List.getElem?_toArray,
    List.getD_eq_getElem?_getD]

/-- The text that is repeated, written down again and again. -/
theorem flatten_replicate_lorem (times : Nat) : (List.replicate times lorem.toList).flatten =
    (List.range (times * lorem.toList.length)).map charAt := by
  rw [flatten_replicate_eq _ ' ']
  exact List.map_congr_left fun i _ => (charAt_eq i).symm

theorem lorem_length_pos : 0 < lorem.toList.length := by
  rw [List.length_pos_iff]
  unfold lorem
  simp only [String.toList_append, ne_eq, List.append_eq_nil_iff]
  rintro ⟨⟨⟨⟨⟨⟨hfirst, -⟩, -⟩, -⟩, -⟩, -⟩, -⟩
  simp at hfirst

theorem start_length (n : Nat) : (start n).length = n := by
  simp [start]

/-- **There is one beginning of each length.** -/
theorem isBeginning_iff : IsBeginning t ↔ start t.length = t := by
  have hlist : start t.length = t ↔ (List.range t.length).map charAt = t.toList := by
    rw [start, ← String.toList_inj, String.toList_ofList]
  rw [hlist]
  constructor
  · rintro ⟨times, hbegins⟩
    rw [flatten_replicate_lorem, List.prefix_iff_eq_take] at hbegins
    have hle : t.length ≤ times * lorem.toList.length := by
      have hlength := congrArg List.length hbegins
      rw [List.length_take, List.length_map, List.length_range, String.length_toList] at hlength
      omega
    rw [hbegins, ← List.map_take, List.take_range, String.length_toList, Nat.min_eq_left hle]
  · intro heq
    refine ⟨t.length, ?_⟩
    rw [← heq, flatten_replicate_lorem, List.prefix_iff_eq_take, ← List.map_take, List.take_range]
    simp [Nat.min_eq_left (Nat.le_mul_of_pos_right _ lorem_length_pos)]

theorem start_isBeginning (n : Nat) : IsBeginning (start n) :=
  isBeginning_iff.mpr (by rw [start_length])

/-! ## Beginnings that fit -/

/-- A beginning of the endless text that is not blank and meets the expectations. -/
structure Fitting (es : List Expectation) (t : String) : Prop where
  begins : IsBeginning t
  notBlank : ∃ c ∈ t.toList, Text.isBlank c = false
  meets : ∀ e ∈ es, e.holds t = true

theorem fits_iff :
    fits es t = true ↔ (∃ c ∈ t.toList, Text.isBlank c = false) ∧ ∀ e ∈ es, e.holds t = true := by
  unfold fits Expectation.allHold
  rw [Bool.and_eq_true, decide_eq_true_iff, ne_eq, Text.trim_eq_nil_iff, List.all_eq_true]
  simp

theorem fitting_start_iff : Fitting es (start n) ↔ fits es (start n) = true := by
  rw [fits_iff]
  exact ⟨fun h => ⟨h.notBlank, h.meets⟩, fun h => ⟨start_isBeginning n, h.1, h.2⟩⟩

/-- The filler text fits and is shorter than the limit, and no shorter beginning fits. -/
theorem text_eq_ok_iff : text limit p = .ok t ↔
    Fitting p.expectations t ∧ t.length < limit ∧
      ∀ u, Fitting p.expectations u → t.length ≤ u.length := by
  have hfound : text limit p = .ok t ↔ shortest? p.expectations limit = some t := by
    unfold text
    cases shortest? p.expectations limit <;> simp
  rw [hfound, shortest?_eq_some_iff]
  constructor
  · rintro ⟨n, hn, rfl, hfits, hleast⟩
    rw [start_length]
    refine ⟨fitting_start_iff.mpr hfits, hn, fun u hu => ?_⟩
    by_contra hlt
    have hnot := hleast u.length (Nat.not_le.mp hlt)
    rw [isBeginning_iff.mp hu.begins, fits_iff.mpr ⟨hu.notBlank, hu.meets⟩] at hnot
    cases hnot
  · rintro ⟨hfits, hlt, hleast⟩
    refine ⟨t.length, hlt, isBeginning_iff.mp hfits.begins,
      fits_iff.mpr ⟨hfits.notBlank, hfits.meets⟩, fun k hk => ?_⟩
    rw [← Bool.not_eq_true]
    intro hstart
    have hle := hleast _ (fitting_start_iff.mpr hstart)
    rw [start_length] at hle
    exact absurd hk (Nat.not_lt.mpr hle)

/-- There is a filler text if some beginning that is shorter than the limit fits. -/
theorem exists_text_iff : (∃ t, text limit p = .ok t) ↔
    ∃ t, Fitting p.expectations t ∧ t.length < limit := by
  constructor
  · rintro ⟨t, ht⟩
    obtain ⟨hfits, hlt, -⟩ := text_eq_ok_iff.mp ht
    exact ⟨t, hfits, hlt⟩
  · rintro ⟨t, hfits, hlt⟩
    -- Of the beginnings that fit, one is the shortest.
    obtain ⟨u, hu, hleast⟩ :=
      WellFounded.has_min (measure String.length).wf {u | Fitting p.expectations u} ⟨t, hfits⟩
    have hshort : ∀ v, Fitting p.expectations v → u.length ≤ v.length :=
      fun v hv => Nat.not_lt.mp (hleast v hv)
    exact ⟨u, text_eq_ok_iff.mpr ⟨hu, Nat.lt_of_le_of_lt (hshort t hfits) hlt, hshort⟩⟩

/-- **Filler text is the shortest that fits.** There is a filler text for a prompt if and only if
some beginning of the endless text that is shorter than the limit fits, and then it is the shortest
of all that fit. Otherwise the search fails with an error that is worth another attempt. So a larger
limit leaves a text that was found as it is, whether or not the expectations are monotone in the
length. -/
theorem text_is_shortest (limit : Nat) (p : Prompt) :
    ((∃ t, text limit p = .ok t) ↔ ∃ t, Fitting p.expectations t ∧ t.length < limit) ∧
    (∀ t, text limit p = .ok t ↔ Fitting p.expectations t ∧ t.length < limit ∧
      ∀ u, Fitting p.expectations u → t.length ≤ u.length) ∧
    ((¬∃ t, Fitting p.expectations t ∧ t.length < limit) →
      ∃ fault, text limit p = .error (.execution fault) ∧
        PipelineError.isRetryable (.execution fault) = true) ∧
    ∀ t, text limit p = .ok t → ∀ larger, limit ≤ larger → text larger p = .ok t := by
  refine ⟨exists_text_iff, fun t => text_eq_ok_iff, fun hnone => ?_, fun t ht larger hle => ?_⟩
  · rw [← exists_text_iff] at hnone
    unfold text at hnone ⊢
    split
    next found hfound =>
      rw [hfound] at hnone
      exact absurd ⟨found, rfl⟩ hnone
    next => exact ⟨_, rfl, rfl⟩
  · obtain ⟨hfits, hlt, hleast⟩ := text_eq_ok_iff.mp ht
    exact text_eq_ok_iff.mpr ⟨hfits, Nat.lt_of_lt_of_le hlt hle, hleast⟩

/-- Only beginnings that are shorter than the limit are tried, and with the limit one this is the
empty one. -/
example : text 1 { title := "", content := "", requirements := {} } =
    .error (.execution (.fakeTextLimit 1)) := by
  decide

end Filler

end PromptPipeline
