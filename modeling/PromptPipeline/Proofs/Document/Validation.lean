import PromptPipeline.Proofs.Document.WellFormed
import PromptPipeline.Proofs.Result

/-!
# Validation accepts exactly the well-formed pipelines

Each rule of validation is matched with its part of `WellFormed`. Most rules list faults and fail
with the first, so a rule holds if and only if its list is empty (`failFirst_eq_ok_iff`); the rules
that look parameters up by name presuppose the rule that names are unique, which comes first.

Main statement: `validate_isOk_iff_wellFormed`.
-/

namespace PromptPipeline

namespace Pipeline

variable {p : Pipeline}

theorem failFirst_eq_ok_iff {faults : List LogicFault} :
    failFirst faults = .ok () ↔ faults = [] := by
  cases faults <;> simp [failFirst]

/-! ## Structure -/

theorem firstRepeated?_eq_none_iff {names seen : List String} :
    firstRepeated? seen names = none ↔ names.Nodup ∧ ∀ name ∈ names, name ∉ seen := by
  induction names generalizing seen with
  | nil => simp [firstRepeated?]
  | cons name rest ih =>
    unfold firstRepeated?
    split
    next hseen => simp [hseen]
    next hseen =>
      rw [ih, List.nodup_cons]
      constructor
      · rintro ⟨hnodup, hrest⟩
        refine ⟨⟨fun hmem => hrest name hmem (List.mem_cons_self ..), hnodup⟩, fun x hx => ?_⟩
        rcases List.mem_cons.mp hx with rfl | hx
        · exact hseen
        · exact fun hmem => hrest x hx (List.mem_cons_of_mem _ hmem)
      · rintro ⟨⟨hname, hnodup⟩, hall⟩
        refine ⟨hnodup, fun x hx hmem => ?_⟩
        rcases List.mem_cons.mp hmem with rfl | hmem
        · exact hname hx
        · exact hall x (List.mem_cons_of_mem _ hx) hmem

theorem length_writers (parameter : String) :
    (p.writers parameter).length = (p.tasks.map (·.result)).count parameter := by
  rw [writers, List.length_map, ← List.countP_eq_length_filter, List.count, List.countP_map]
  rfl

theorem sharedResultFaults_eq_nil_iff :
    p.sharedResultFaults = [] ↔ (p.tasks.map (·.result)).Nodup := by
  simp only [sharedResultFaults, List.filterMap_eq_nil_iff, ite_eq_right_iff, reduceCtorEq,
    imp_false, length_writers, List.nodup_iff_count_le_one]
  constructor
  · intro h parameter
    by_cases hmem : parameter ∈ p.tasks.map (·.result)
    · obtain ⟨t, ht, rfl⟩ := List.mem_map.mp hmem
      exact Nat.not_lt.mp (h t ht)
    · rw [List.count_eq_zero_of_not_mem hmem]
      exact Nat.zero_le 1
  · intro h t _
    exact Nat.not_lt.mpr (h t.result)

theorem resultFaults_eq_nil_iff (h : (p.parameters.map (·.name)).Nodup) :
    p.resultFaults = [] ↔
      ∀ t ∈ p.tasks, ∃ q ∈ p.parameters, q.name = t.result ∧ q.isInput = false := by
  simp only [resultFaults, List.filterMap_eq_nil_iff]
  refine forall₂_congr fun t _ => ?_
  constructor
  · intro hfault
    split at hfault
    next q hq =>
      obtain ⟨hmem, hname⟩ := (parameter?_eq_some_iff h).mp hq
      exact ⟨q, hmem, hname, by simpa using hfault⟩
    next => simp at hfault
  · rintro ⟨q, hmem, hname, hinput⟩
    rw [(parameter?_eq_some_iff h).mpr ⟨hmem, hname⟩]
    simp [hinput]

theorem failFirst_toList_eq_ok_iff {α : Type} {found : Option α} {fault : α → LogicFault} :
    failFirst (found.toList.map fault) = .ok () ↔ found = none := by
  rw [failFirst_eq_ok_iff, List.map_eq_nil_iff, Option.toList_eq_nil_iff]

theorem checkStructure_eq_ok_iff :
    p.checkStructure = .ok () ↔ (p.parameters.map (·.name)).Nodup ∧ p.taskNames.Nodup ∧
      (p.tasks.map (·.result)).Nodup ∧ p.resultFaults = [] := by
  unfold checkStructure
  rw [then_eq_ok_iff, then_eq_ok_iff, then_eq_ok_iff, failFirst_toList_eq_ok_iff,
    failFirst_toList_eq_ok_iff, failFirst_eq_ok_iff, failFirst_eq_ok_iff,
    firstRepeated?_eq_none_iff, firstRepeated?_eq_none_iff, sharedResultFaults_eq_nil_iff]
  simp

/-! ## Resolution -/

theorem isResolvable_iff (h : (p.parameters.map (·.name)).Nodup) {name : String} :
    p.isResolvable name = true ↔ p.Resolvable name := by
  have hproducer : (p.producer? name).isSome = true ↔ ∃ t ∈ p.tasks, t.result = name := by
    simp [producer?, List.find?_isSome]
  unfold isResolvable Resolvable
  constructor
  · intro hname
    split at hname
    next q hq =>
      obtain ⟨hmem, hqname⟩ := (parameter?_eq_some_iff h).mp hq
      rw [Bool.or_eq_true, hproducer] at hname
      exact ⟨q, hmem, hqname, hname⟩
    next => simp at hname
  · rintro ⟨q, hmem, hqname, hvalue⟩
    rw [(parameter?_eq_some_iff h).mpr ⟨hmem, hqname⟩]
    dsimp only
    rw [Bool.or_eq_true, hproducer]
    exact hvalue

/-- A declared parameter can be resolved if it is an input or produced. -/
theorem resolvable_name_iff (h : (p.parameters.map (·.name)).Nodup) {q : Parameter}
    (hq : q ∈ p.parameters) :
    p.Resolvable q.name ↔ q.isInput = true ∨ ∃ t ∈ p.tasks, t.result = q.name := by
  constructor
  · rintro ⟨q', hq', hname, hvalue⟩
    rwa [List.inj_on_of_nodup_map h hq' hq hname] at hvalue
  · exact fun hvalue => ⟨q, hq, rfl, hvalue⟩

theorem checkResolution_eq_ok_iff (h : (p.parameters.map (·.name)).Nodup) :
    p.checkResolution = .ok () ↔
      (∀ t ∈ p.tasks, ∀ name ∈ t.dependencies, p.Resolvable name) ∧
      ∀ q ∈ p.parameters, q.isOutput = true →
        q.isInput = true ∨ ∃ t ∈ p.tasks, t.result = q.name := by
  unfold checkResolution
  rw [then_eq_ok_iff, failFirst_eq_ok_iff, failFirst_eq_ok_iff]
  simp only [List.flatMap_eq_nil_iff, List.map_eq_nil_iff, List.filter_eq_nil_iff,
    Bool.not_eq_true', Bool.not_eq_false, isResolvable_iff h, outputs, List.mem_filter, and_imp]
  refine and_congr Iff.rfl (forall₂_congr fun q hq => ?_)
  rw [resolvable_name_iff h hq]

/-! ## Expectations -/

instance : Std.LawfulOrderLeftLeaningMax Amount := by
  -- By definition the maximum takes the second of two equal amounts, and here the first.
  refine .of_eq fun a b => ?_
  change (if a ≤ b then b else a) = _
  split
  next hab =>
    split
    next hba => exact UInt32.le_antisymm hba hab
    next => rfl
  next hab => rw [if_pos ((UInt32.le_total a b).resolve_left hab)]

theorem lowerBound?_eq_max? (expectations : List Expectation) (unit : TextUnit) :
    lowerBound? expectations unit = (amountsOf expectations [.exactly, .minimum] unit).max? := by
  unfold lowerBound?
  split
  next h => rw [h]; rfl
  next h => rw [h]; rfl

theorem upperBound?_eq_min? (expectations : List Expectation) (unit : TextUnit) :
    upperBound? expectations unit = (amountsOf expectations [.exactly, .maximum] unit).min? := by
  unfold upperBound?
  split
  next h => rw [h]; rfl
  next h => rw [h]; rfl

theorem mem_amountsOf_iff {t : Task} {signs : List Sign} {unit : TextUnit} {n : Amount} :
    n ∈ amountsOf t.expectations signs unit ↔ n ∈ statedAmounts t signs unit := by
  unfold amountsOf statedAmounts
  rw [List.mem_filterMap]
  constructor
  · rintro ⟨e, he, hn⟩
    cases e with
    | amount sign u m =>
      simp only [Option.ite_none_right_eq_some, Option.some.injEq] at hn
      obtain ⟨⟨hsign, rfl⟩, rfl⟩ := hn
      exact ⟨sign, hsign, he⟩
    | format f => simp at hn
  · rintro ⟨sign, hsign, he⟩
    exact ⟨_, he, by simp [hsign]⟩

theorem lowerBound?_eq_some_iff {t : Task} {unit : TextUnit} {low : Amount} :
    lowerBound? t.expectations unit = some low ↔
      IsGreatest (statedAmounts t [.exactly, .minimum] unit) low := by
  rw [lowerBound?_eq_max?, List.max?_eq_some_iff]
  simp only [mem_amountsOf_iff]
  rfl

theorem upperBound?_eq_some_iff {t : Task} {unit : TextUnit} {high : Amount} :
    upperBound? t.expectations unit = some high ↔
      IsLeast (statedAmounts t [.exactly, .maximum] unit) high := by
  rw [upperBound?_eq_min?, List.min?_eq_some_iff]
  simp only [mem_amountsOf_iff]
  rfl

theorem expectationFaults_eq_nil_iff {t : Task} :
    expectationFaults t = [] ↔
      (∀ sign unit n, Expectation.amount sign unit n ∈ t.expectations → 0 < n) ∧
      ∀ unit low high, IsGreatest (statedAmounts t [.exactly, .minimum] unit) low →
        IsLeast (statedAmounts t [.exactly, .maximum] unit) high → low ≤ high := by
  unfold expectationFaults
  rw [List.append_eq_nil_iff, List.filterMap_eq_nil_iff, List.filterMap_eq_nil_iff]
  refine and_congr ⟨fun h sign unit n he => ?_, fun h e he => ?_⟩ ⟨fun h unit low high hl hh => ?_,
    fun h unit _ => ?_⟩
  · have hn := h _ he
    simp only [ite_eq_right_iff, reduceCtorEq, imp_false] at hn
    exact UInt32.pos_iff_ne_zero.mpr hn
  · cases e with
    | amount sign unit n => simp [UInt32.pos_iff_ne_zero.mp (h sign unit n he)]
    | format f => rfl
  · -- The rule goes through the units one by one, and these are all units.
    have hunit := h unit (by cases unit <;> simp [TextUnit.all])
    rw [lowerBound?_eq_some_iff.mpr hl, upperBound?_eq_some_iff.mpr hh] at hunit
    simp only [ite_eq_right_iff, reduceCtorEq, imp_false] at hunit
    exact UInt32.not_lt.mp hunit
  · split
    next low high hl hh =>
      have hle := h unit low high (lowerBound?_eq_some_iff.mp hl) (upperBound?_eq_some_iff.mp hh)
      simp [UInt32.not_lt.mpr hle]
    next => rfl

theorem checkExpectations_eq_ok_iff :
    p.checkExpectations = .ok () ↔
      (∀ t ∈ p.tasks, ∀ sign unit n, Expectation.amount sign unit n ∈ t.expectations → 0 < n) ∧
      ∀ t ∈ p.tasks, ∀ unit low high,
        IsGreatest (statedAmounts t [.exactly, .minimum] unit) low →
        IsLeast (statedAmounts t [.exactly, .maximum] unit) high → low ≤ high := by
  unfold checkExpectations
  rw [failFirst_eq_ok_iff, List.flatMap_eq_nil_iff, ← forall₂_and]
  exact forall₂_congr fun t _ => expectationFaults_eq_nil_iff

/-! ## Jokers, models and uses -/

theorem checkJokers_eq_ok_iff (h : (p.parameters.map (·.name)).Nodup) :
    p.checkJokers = .ok () ↔
      (∀ t ∈ p.tasks, t.jokers ≠ [] → t.expectations ≠ []) ∧
      ∀ t ∈ p.tasks, ∀ name ∈ t.jokers, p.Resolvable name := by
  have hjoker (t : Task) : p.jokerFaults t = [] ↔
      (t.jokers ≠ [] → t.expectations ≠ []) ∧ ∀ name ∈ t.jokers, p.Resolvable name := by
    unfold jokerFaults
    split
    next hnil => simp [hnil]
    next first rest hcons =>
      rw [hcons]
      split
      next hnone => simp [hnone]
      next hsome => simp [hsome, isResolvable_iff h]
  unfold checkJokers
  rw [failFirst_eq_ok_iff, List.flatMap_eq_nil_iff, ← forall₂_and]
  exact forall₂_congr fun t _ => hjoker t

theorem checkModels_eq_ok_iff {known : Option (List AvailableModel)} :
    p.checkModels known = .ok () ↔
      ∀ models, known = some models → ∀ t ∈ p.tasks, t.executionType = .promptTemplate →
        ∀ r, t.modelRequirements = some r → ∀ name, r.modelName = some name →
        ∃ m ∈ models, m.name = name ∧ m.variant = r.variant := by
  cases known with
  | none => simp [checkModels]
  | some models =>
    have hserves (name : String) (variant : ModelVariant) :
        models.any (·.serves name variant) = true ↔
          ∃ m ∈ models, m.name = name ∧ m.variant = variant := by
      simp [AvailableModel.serves]
    unfold checkModels
    dsimp only
    rw [failFirst_eq_ok_iff, List.filterMap_eq_nil_iff]
    constructor
    · rintro hall models' ⟨⟩ t ht htype r hr name hname
      have hfault := hall t ht
      have hnamed : t.namedModel? = some (name, r.variant) := by
        simp [Task.namedModel?, htype, hr, hname]
      rw [hnamed] at hfault
      simp only [ite_eq_left_iff, reduceCtorEq, imp_false, Bool.not_eq_true, Bool.not_eq_false]
        at hfault
      exact (hserves name r.variant).mp hfault
    · intro hall t ht
      split
      next name variant hnamed =>
        unfold Task.namedModel? at hnamed
        split at hnamed
        next r htype hr =>
          obtain ⟨name', hname, heq⟩ := Option.map_eq_some_iff.mp hnamed
          cases heq
          rw [if_pos ((hserves _ _).mpr (hall models rfl t ht htype r hr _ hname))]
        next => simp at hnamed
      next => rfl

theorem checkUses_eq_ok_iff :
    p.checkUses = .ok () ↔
      ∀ q ∈ p.parameters, q.isOutput = false → ∃ t ∈ p.tasks, q.name ∈ t.required := by
  unfold checkUses
  rw [failFirst_eq_ok_iff, List.map_eq_nil_iff, List.filter_eq_nil_iff]
  refine forall₂_congr fun q _ => ?_
  cases q.isOutput with
  | true => simp
  | false => simp [Task.reads_iff]

/-! ## Cycles -/

theorem checkCycles_eq_ok_iff : p.checkCycles = .ok () ↔ p.graph.cycle? = none := by
  unfold checkCycles
  rw [failFirst_toList_eq_ok_iff, cycleNames?, Option.map_eq_none_iff]

theorem executionOrder_eq_ok_iff {order : List p.TaskIndex} :
    p.executionOrder = .ok order ↔ p.graph.topologicalOrder? = some order := by
  unfold executionOrder
  split
  next order' h => simp [h]
  next h => simp [h]

/-- The order of a pipeline that has one is topological. -/
theorem executionOrder_isTopological {order : List p.TaskIndex}
    (h : p.executionOrder = .ok order) : p.graph.IsTopological order :=
  Digraph.topologicalOrder?_isTopological (executionOrder_eq_ok_iff.mp h)

theorem exists_executionOrder (h : p.graph.Acyclic) : ∃ order, p.executionOrder = .ok order := by
  obtain ⟨order, horder⟩ := h.exists_topologicalOrder?
  exact ⟨order, executionOrder_eq_ok_iff.mpr horder⟩

/-! ## All rules together -/

theorem executionOrderNames_eq_ok_iff {names : List String} :
    p.executionOrderNames = .ok names ↔
      ∃ order, p.executionOrder = .ok order ∧ p.namesAt order = names := by
  unfold executionOrderNames
  cases p.executionOrder with
  | error e => simp [Except.map]
  | ok order => simp [Except.map]

theorem validate_eq_ok_iff {known : Option (List AvailableModel)} {v : Validation} :
    p.validate known = .ok v ↔
      p.checkStructure = .ok () ∧ p.checkResolution = .ok () ∧ p.checkExpectations = .ok () ∧
      p.checkJokers = .ok () ∧ p.checkModels known = .ok () ∧ p.checkUses = .ok () ∧
      p.checkCycles = .ok () ∧
      ∃ order, p.executionOrder = .ok order ∧ ⟨p.warnings known, p.namesAt order⟩ = v := by
  unfold validate
  rw [then_eq_ok_iff, then_eq_ok_iff, then_eq_ok_iff, then_eq_ok_iff, then_eq_ok_iff,
    then_eq_ok_iff, then_eq_ok_iff, bind_eq_ok_iff]
  simp only [executionOrderNames_eq_ok_iff, Except.ok.injEq]
  constructor
  · rintro ⟨h₁, h₂, h₃, h₄, h₅, h₆, h₇, names, ⟨order, horder, rfl⟩, hv⟩
    exact ⟨h₁, h₂, h₃, h₄, h₅, h₆, h₇, order, horder, hv⟩
  · rintro ⟨h₁, h₂, h₃, h₄, h₅, h₆, h₇, order, horder, hv⟩
    exact ⟨h₁, h₂, h₃, h₄, h₅, h₆, h₇, _, ⟨order, horder, rfl⟩, hv⟩

/-- What passes validation is well-formed. -/
theorem WellFormed.of_validate {known : Option (List AvailableModel)} {v : Validation}
    (h : p.validate known = .ok v) : p.WellFormed known := by
  obtain ⟨hstructure, hresolution, hexpectations, hjokers, hmodels, huses, -, order, horder, -⟩ :=
    validate_eq_ok_iff.mp h
  obtain ⟨hparameters, htasks, hresults, hdeclared⟩ := checkStructure_eq_ok_iff.mp hstructure
  obtain ⟨hdependencies, houtputs⟩ := (checkResolution_eq_ok_iff hparameters).mp hresolution
  obtain ⟨hpositive, hordered⟩ := checkExpectations_eq_ok_iff.mp hexpectations
  obtain ⟨hexpected, hjoker⟩ := (checkJokers_eq_ok_iff hparameters).mp hjokers
  have hacyclic := (executionOrder_isTopological horder).acyclic
  unfold Digraph.Acyclic at hacyclic
  rw [adj_graph_eq_feeds hresults] at hacyclic
  exact
    { parameters_nodup := hparameters
      tasks_nodup := htasks
      results_nodup := hresults
      results_declared := (resultFaults_eq_nil_iff hparameters).mp hdeclared
      required_resolvable := fun t ht name hname => by
        rcases Task.mem_required.mp hname with hname | hname
        · exact hdependencies t ht name hname
        · exact hjoker t ht name hname
      outputs_resolvable := houtputs
      amounts_positive := hpositive
      bounds_ordered := hordered
      jokers_expected := hexpected
      models_known := checkModels_eq_ok_iff.mp hmodels
      parameters_used := checkUses_eq_ok_iff.mp huses
      acyclic := hacyclic }

/-- What is well-formed passes validation. -/
theorem WellFormed.exists_validate {known : Option (List AvailableModel)}
    (h : p.WellFormed known) : ∃ v, p.validate known = .ok v := by
  obtain ⟨order, horder⟩ := exists_executionOrder h.graph_acyclic
  have hstructure : p.checkStructure = .ok () :=
    checkStructure_eq_ok_iff.mpr ⟨h.parameters_nodup, h.tasks_nodup, h.results_nodup,
      (resultFaults_eq_nil_iff h.parameters_nodup).mpr h.results_declared⟩
  have hresolution : p.checkResolution = .ok () :=
    (checkResolution_eq_ok_iff h.parameters_nodup).mpr
      ⟨fun t ht name hname => h.required_resolvable t ht name (Task.mem_required.mpr (.inl hname)),
        h.outputs_resolvable⟩
  have hjokers : p.checkJokers = .ok () :=
    (checkJokers_eq_ok_iff h.parameters_nodup).mpr
      ⟨h.jokers_expected, fun t ht name hname =>
        h.required_resolvable t ht name (Task.mem_required.mpr (.inr hname))⟩
  exact ⟨_, validate_eq_ok_iff.mpr ⟨hstructure, hresolution,
    checkExpectations_eq_ok_iff.mpr ⟨h.amounts_positive, h.bounds_ordered⟩, hjokers,
    checkModels_eq_ok_iff.mpr h.models_known, checkUses_eq_ok_iff.mpr h.parameters_used,
    checkCycles_eq_ok_iff.mpr h.graph_acyclic.cycle?_eq_none, order, horder, rfl⟩⟩

/-- **Validation accepts exactly the well-formed pipelines**, with and without a registry. -/
theorem validate_isOk_iff_wellFormed (p : Pipeline) (known : Option (List AvailableModel)) :
    (∃ v, p.validate known = .ok v) ↔ p.WellFormed known :=
  ⟨fun ⟨_, h⟩ => .of_validate h, fun h => h.exists_validate⟩

end Pipeline

end PromptPipeline
