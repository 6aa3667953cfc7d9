import PromptPipeline.Proofs.Document.ExecutionOrder

/-!
# What a fault says

Validation stops at the first fault, and a pipeline may have many. The rules come in seven groups
with a fixed order. A fault belongs to the first group that the pipeline violates, so it says that
all earlier groups are in order (`RuleGroup.Holds`), and it is a witness against its own group: what
it names is there in the document and is as it says (`RuleGroup.Witnessed`). The lookups by name in
the later groups are to be trusted because the first group has passed.

Main statement: `validate_error_witnessed`.
-/

namespace PromptPipeline

/-- Every fault that the check reports satisfies `P`. -/
def Reports {α : Type} (P : LogicFault → Prop) (check : Except LogicFault α) : Prop :=
  ∀ fault, check = .error fault → P fault

namespace Reports

variable {α : Type} {P : LogicFault → Prop}

theorem ok (value : α) : Reports P (.ok value) :=
  fun _ h => nomatch h

theorem next {check : Except LogicFault Unit} {rest : Except LogicFault α}
    (hcheck : Reports P check) (hrest : check = .ok () → Reports P rest) :
    Reports P (check >>= fun _ => rest) := by
  intro fault h
  rcases then_eq_error_iff.mp h with hfault | ⟨hok, hfault⟩
  · exact hcheck fault hfault
  · exact hrest hok fault hfault

theorem failFirst {faults : List LogicFault} (h : ∀ fault ∈ faults, P fault) :
    Reports P (Pipeline.failFirst faults) := by
  cases faults with
  | nil => exact ok ()
  | cons fault rest =>
    rintro _ ⟨⟩
    exact h fault List.mem_cons_self

end Reports

namespace Pipeline

variable {p : Pipeline}

/-- The name is not declared, or it is neither an input nor produced. -/
def Unresolved (p : Pipeline) (name : String) : Prop :=
  (∀ q ∈ p.parameters, q.name ≠ name) ∨
    (∀ q ∈ p.parameters, q.name = name → q.isInput = false) ∧ ∀ t ∈ p.tasks, t.result ≠ name

theorem unresolved_iff {name : String} : p.Unresolved name ↔ ¬p.Resolvable name := by
  constructor
  · rintro (hnone | ⟨hinput, hresult⟩) ⟨q, hq, hname, hvalue⟩
    · exact hnone q hq hname
    · rcases hvalue with hin | ⟨t, ht, heq⟩
      · rw [hinput q hq hname] at hin
        cases hin
      · exact hresult t ht heq
  · intro hnot
    by_cases hdeclared : ∃ q ∈ p.parameters, q.name = name
    · obtain ⟨q, hq, hname⟩ := hdeclared
      refine .inr ⟨fun q' hq' hname' => ?_, fun t ht heq => ?_⟩
      · exact Bool.eq_false_iff.mpr fun hin => hnot ⟨q', hq', hname', .inl hin⟩
      · exact hnot ⟨q, hq, hname, .inr ⟨t, ht, heq⟩⟩
    · exact .inl fun q hq hname => hdeclared ⟨q, hq, hname⟩

theorem unresolved_of_isResolvable (h : (p.parameters.map (·.name)).Nodup) {name : String}
    (hname : (!p.isResolvable name) = true) : p.Unresolved name := by
  rw [unresolved_iff, ← isResolvable_iff h]
  simpa using hname

/-- Tasks that wait for each other in a circle: each produces what the next one requires, and the
last one what the first one requires. -/
def Circular (p : Pipeline) (tasks : List p.TaskIndex) : Prop :=
  tasks.Nodup ∧ ∃ first rest, tasks = first :: rest ∧ (tasks ++ [first]).IsChain p.Feeds

end Pipeline

/-- The groups of rules, in the order in which they are checked. -/
inductive RuleGroup where
  /-- Names are unique, and each task produces a parameter of its own. -/
  | structural
  /-- What is read and given back can be resolved. -/
  | resolution
  /-- Expectations can be met. -/
  | expectations
  /-- Jokers can be adopted. -/
  | jokers
  /-- Named models are known. -/
  | models
  /-- No parameter is dead. -/
  | uses
  /-- No task waits for itself. -/
  | cycles
  deriving DecidableEq

namespace RuleGroup

open Pipeline

/-- All groups, in the order in which they are checked. -/
def inOrder : List RuleGroup :=
  [.structural, .resolution, .expectations, .jokers, .models, .uses, .cycles]

variable {p : Pipeline} {known : Option (List AvailableModel)} {g : RuleGroup}

/-- What the rules of a group ask of a pipeline. -/
def Holds (p : Pipeline) (known : Option (List AvailableModel)) : RuleGroup → Prop
  | .structural =>
    (p.parameters.map (·.name)).Nodup ∧ p.taskNames.Nodup ∧ (p.tasks.map (·.result)).Nodup ∧
      ∀ t ∈ p.tasks, ∃ q ∈ p.parameters, q.name = t.result ∧ q.isInput = false
  | .resolution =>
    (∀ t ∈ p.tasks, ∀ name ∈ t.dependencies, p.Resolvable name) ∧
      ∀ q ∈ p.parameters, q.isOutput = true →
        q.isInput = true ∨ ∃ t ∈ p.tasks, t.result = q.name
  | .expectations =>
    (∀ t ∈ p.tasks, ∀ sign unit n, Expectation.amount sign unit n ∈ t.expectations → 0 < n) ∧
      ∀ t ∈ p.tasks, ∀ unit low high,
        IsGreatest (statedAmounts t [.exactly, .minimum] unit) low →
        IsLeast (statedAmounts t [.exactly, .maximum] unit) high → low ≤ high
  | .jokers =>
    (∀ t ∈ p.tasks, t.jokers ≠ [] → t.expectations ≠ []) ∧
      ∀ t ∈ p.tasks, ∀ name ∈ t.jokers, p.Resolvable name
  | .models =>
    ∀ models, known = some models → ∀ t ∈ p.tasks, t.executionType = .promptTemplate →
      ∀ r, t.modelRequirements = some r → ∀ name, r.modelName = some name →
      ∃ m ∈ models, m.name = name ∧ m.variant = r.variant
  | .uses => ∀ q ∈ p.parameters, q.isOutput = false → ∃ t ∈ p.tasks, q.name ∈ t.required
  | .cycles => ∀ i, ¬Relation.TransGen p.Feeds i i

/-- The fault is a true witness that the pipeline violates the rules of the group. -/
inductive Witnessed (p : Pipeline) (known : Option (List AvailableModel)) :
    RuleGroup → LogicFault → Prop
  | duplicateParameter {name : String} (h : 2 ≤ (p.parameters.map (·.name)).count name) :
    Witnessed p known .structural (.duplicateParameter name)
  | duplicateTask {name : String} (h : 2 ≤ p.taskNames.count name) :
    Witnessed p known .structural (.duplicateTask name)
  /-- The tasks are all that produce the parameter, in the order of the document. -/
  | multipleWriters {name : String} {tasks : List String}
    (htasks : tasks = (p.tasks.filter fun t => t.result = name).map (·.name))
    (h : 2 ≤ tasks.length) : Witnessed p known .structural (.multipleWriters name tasks)
  | inputOverwritten {q : Parameter} {t : Task} (hq : q ∈ p.parameters) (hinput : q.isInput = true)
    (ht : t ∈ p.tasks) (h : t.result = q.name) :
    Witnessed p known .structural (.inputOverwritten q.name t.name)
  | undeclaredResult {t : Task} (ht : t ∈ p.tasks) (h : ∀ q ∈ p.parameters, q.name ≠ t.result) :
    Witnessed p known .structural
      (.unresolvedParameter t.result s!"is produced by task '{t.name}' but never declared")
  | unresolvedDependency {t : Task} {name : String} (ht : t ∈ p.tasks)
    (hname : name ∈ t.dependencies) (h : p.Unresolved name) :
    Witnessed p known .resolution (.unresolvedParameter name s!"needed by task '{t.name}'")
  | unresolvedOutput {q : Parameter} (hq : q ∈ p.parameters) (houtput : q.isOutput = true)
    (h : p.Unresolved q.name) :
    Witnessed p known .resolution
      (.unresolvedParameter q.name "is an output parameter but no task produces it")
  | nonPositive {t : Task} {sign : Sign} {unit : TextUnit} (ht : t ∈ p.tasks)
    (h : .amount sign unit 0 ∈ t.expectations) :
    Witnessed p known .expectations (.nonPositiveExpectation t.name (boundWord sign) unit)
  | inverted {t : Task} {unit : TextUnit} {low high : Amount} (ht : t ∈ p.tasks)
    (hlow : IsGreatest (statedAmounts t [.exactly, .minimum] unit) low)
    (hhigh : IsLeast (statedAmounts t [.exactly, .maximum] unit) high) (h : high < low) :
    Witnessed p known .expectations (.invertedExpectation t.name unit low high)
  | jokerWithoutExpectations {t : Task} {first : String} {rest : List String} (ht : t ∈ p.tasks)
    (hjokers : t.jokers = first :: rest) (h : t.expectations = []) :
    Witnessed p known .jokers (.jokerWithoutExpectations t.name first)
  | unresolvedJoker {t : Task} {name : String} (ht : t ∈ p.tasks) (hname : name ∈ t.jokers)
    (h : p.Unresolved name) :
    Witnessed p known .jokers (.unresolvedParameter name s!"used as a joker in task '{t.name}'")
  | unknownModel {t : Task} {r : ModelRequirements} {name : String} {models : List AvailableModel}
    (ht : t ∈ p.tasks) (htype : t.executionType = .promptTemplate)
    (hr : t.modelRequirements = some r) (hname : r.modelName = some name)
    (hknown : known = some models) (h : ∀ m ∈ models, ¬(m.name = name ∧ m.variant = r.variant)) :
    Witnessed p known .models (.unknownModel t.name r.variant name)
  | unused {q : Parameter} (hq : q ∈ p.parameters) (houtput : q.isOutput = false)
    (h : ∀ t ∈ p.tasks, q.name ∉ t.dependencies ∧ q.name ∉ t.jokers) :
    Witnessed p known .uses (.unusedParameter q.name)
  | circular {tasks : List p.TaskIndex} (h : p.Circular tasks) :
    Witnessed p known .cycles (.circularDependencies (p.namesAt tasks))

/-! ## One group -/

/-- The check of a group. -/
def check (p : Pipeline) (known : Option (List AvailableModel)) :
    RuleGroup → Except LogicFault Unit
  | .structural => p.checkStructure
  | .resolution => p.checkResolution
  | .expectations => p.checkExpectations
  | .jokers => p.checkJokers
  | .models => p.checkModels known
  | .uses => p.checkUses
  | .cycles => p.checkCycles

theorem checkStructure_eq_ok_iff_holds :
    p.checkStructure = .ok () ↔ RuleGroup.structural.Holds p known := by
  rw [checkStructure_eq_ok_iff]
  constructor
  · rintro ⟨hparameters, htasks, hresults, hfaults⟩
    exact ⟨hparameters, htasks, hresults, (resultFaults_eq_nil_iff hparameters).mp hfaults⟩
  · rintro ⟨hparameters, htasks, hresults, hdeclared⟩
    exact ⟨hparameters, htasks, hresults, (resultFaults_eq_nil_iff hparameters).mpr hdeclared⟩

/-- The check of a group passes if and only if the group holds; all groups but the first rely on
the first. -/
theorem check_eq_ok_iff (h : g ≠ .structural → RuleGroup.structural.Holds p known) :
    g.check p known = .ok () ↔ g.Holds p known := by
  cases g with
  | structural => exact checkStructure_eq_ok_iff_holds
  | resolution =>
    obtain ⟨hparameters, -⟩ := h (by decide)
    exact checkResolution_eq_ok_iff hparameters
  | expectations => exact checkExpectations_eq_ok_iff
  | jokers =>
    obtain ⟨hparameters, -⟩ := h (by decide)
    exact checkJokers_eq_ok_iff hparameters
  | models => exact checkModels_eq_ok_iff
  | uses => exact checkUses_eq_ok_iff
  | cycles =>
    obtain ⟨-, -, hresults, -⟩ := h (by decide)
    unfold Holds
    rw [← adj_graph_eq_feeds hresults]
    exact checkCycles_eq_ok_iff.trans Digraph.cycle?_eq_none_iff

end RuleGroup

namespace Pipeline

open RuleGroup

variable {p : Pipeline} {known : Option (List AvailableModel)}

/-! ## The faults of each group -/

/-- The first name that was seen before or stands in the list twice. -/
theorem of_firstRepeated?_eq_some {names seen : List String} {name : String}
    (h : firstRepeated? seen names = some name) :
    (name ∈ seen ∧ name ∈ names) ∨ 2 ≤ names.count name := by
  induction names generalizing seen with
  | nil => cases h
  | cons first rest ih =>
    unfold firstRepeated? at h
    split at h
    next hseen =>
      cases h
      exact .inl ⟨hseen, List.mem_cons_self⟩
    next =>
      rcases ih h with ⟨hmem, hrest⟩ | hcount
      · rcases List.mem_cons.mp hmem with rfl | hmem
        · have hpos := List.count_pos_iff.mpr hrest
          rw [List.count_cons_self]
          exact .inr (by omega)
        · exact .inl ⟨hmem, List.mem_cons_of_mem _ hrest⟩
      · exact .inr (Nat.le_trans hcount List.count_le_count_cons)

theorem two_le_count_of_mem_firstRepeated? {names : List String} {name : String}
    (h : name ∈ (firstRepeated? [] names).toList) : 2 ≤ names.count name := by
  rcases of_firstRepeated?_eq_some (Option.mem_toList.mp h) with ⟨hnone, -⟩ | hcount
  · cases hnone
  · exact hcount

theorem checkStructure_reports : Reports (Witnessed p known .structural) p.checkStructure := by
  refine .next (.failFirst fun fault hfault => ?_) fun _ =>
    .next (.failFirst fun fault hfault => ?_) fun _ =>
    .next (.failFirst fun fault hfault => ?_) fun _ => .failFirst fun fault hfault => ?_
  · obtain ⟨name, hname, rfl⟩ := List.mem_map.mp hfault
    exact .duplicateParameter (two_le_count_of_mem_firstRepeated? hname)
  · obtain ⟨name, hname, rfl⟩ := List.mem_map.mp hfault
    exact .duplicateTask (two_le_count_of_mem_firstRepeated? hname)
  · obtain ⟨t, -, hshared⟩ := List.mem_filterMap.mp hfault
    dsimp only at hshared
    split at hshared
    next hlength =>
      cases hshared
      exact .multipleWriters rfl hlength
    next => cases hshared
  · obtain ⟨t, ht, hresult⟩ := List.mem_filterMap.mp hfault
    split at hresult
    next q hq =>
      split at hresult
      next hinput =>
        cases hresult
        have hname : q.name = t.result := by simpa using List.find?_some hq
        exact .inputOverwritten (List.mem_of_find?_eq_some hq) hinput ht hname.symm
      next => cases hresult
    next hnone =>
      cases hresult
      exact .undeclaredResult ht fun q hq => by simpa using List.find?_eq_none.mp hnone q hq

theorem checkResolution_reports (h : (p.parameters.map (·.name)).Nodup) :
    Reports (Witnessed p known .resolution) p.checkResolution := by
  refine .next (.failFirst fun fault hfault => ?_) fun _ => .failFirst fun fault hfault => ?_
  · obtain ⟨t, ht, hneeded⟩ := List.mem_flatMap.mp hfault
    obtain ⟨name, hname, rfl⟩ := List.mem_map.mp hneeded
    obtain ⟨hmem, hunresolved⟩ := List.mem_filter.mp hname
    exact .unresolvedDependency ht hmem (unresolved_of_isResolvable h hunresolved)
  · obtain ⟨q, hq, rfl⟩ := List.mem_map.mp hfault
    obtain ⟨hmem, hunresolved⟩ := List.mem_filter.mp hq
    obtain ⟨hmem, houtput⟩ := List.mem_filter.mp hmem
    exact .unresolvedOutput hmem houtput (unresolved_of_isResolvable h hunresolved)

theorem checkExpectations_reports :
    Reports (Witnessed p known .expectations) p.checkExpectations := by
  refine .failFirst fun fault hfault => ?_
  obtain ⟨t, ht, hfault⟩ := List.mem_flatMap.mp hfault
  rcases List.mem_append.mp hfault with hfault | hfault
  · obtain ⟨expectation, hmem, hfault⟩ := List.mem_filterMap.mp hfault
    split at hfault
    next =>
      split at hfault
      next hzero =>
        cases hfault
        subst hzero
        exact .nonPositive ht hmem
      next => cases hfault
    next => cases hfault
  · obtain ⟨unit, -, hfault⟩ := List.mem_filterMap.mp hfault
    split at hfault
    next low high hlow hhigh =>
      split at hfault
      next hlt =>
        cases hfault
        exact .inverted ht (lowerBound?_eq_some_iff.mp hlow) (upperBound?_eq_some_iff.mp hhigh) hlt
      next => cases hfault
    next => cases hfault

theorem checkJokers_reports (h : (p.parameters.map (·.name)).Nodup) :
    Reports (Witnessed p known .jokers) p.checkJokers := by
  refine .failFirst fun fault hfault => ?_
  obtain ⟨t, ht, hfault⟩ := List.mem_flatMap.mp hfault
  unfold jokerFaults at hfault
  split at hfault
  next => cases hfault
  next first rest hjokers =>
    split at hfault
    next hnone =>
      rw [List.mem_singleton.mp hfault]
      exact .jokerWithoutExpectations ht hjokers hnone
    next =>
      obtain ⟨name, hname, rfl⟩ := List.mem_map.mp hfault
      obtain ⟨hmem, hunresolved⟩ := List.mem_filter.mp hname
      exact .unresolvedJoker ht (hjokers ▸ hmem) (unresolved_of_isResolvable h hunresolved)

theorem checkModels_reports : Reports (Witnessed p known .models) (p.checkModels known) := by
  unfold checkModels
  split
  next => exact .ok ()
  next models =>
    refine .failFirst fun fault hfault => ?_
    obtain ⟨t, ht, hfault⟩ := List.mem_filterMap.mp hfault
    split at hfault
    next name variant hnamed =>
      split at hfault
      next => cases hfault
      next hunknown =>
        cases hfault
        unfold Task.namedModel? at hnamed
        split at hnamed
        next r htype hr =>
          obtain ⟨name', hname, heq⟩ := Option.map_eq_some_iff.mp hnamed
          cases heq
          refine .unknownModel ht htype hr hname rfl fun m hm hserves => hunknown ?_
          exact List.any_eq_true.mpr ⟨m, hm, by simp [AvailableModel.serves, hserves]⟩
        next => cases hnamed
    next => cases hfault

theorem checkUses_reports : Reports (Witnessed p known .uses) p.checkUses := by
  refine .failFirst fun fault hfault => ?_
  obtain ⟨q, hq, rfl⟩ := List.mem_map.mp hfault
  obtain ⟨hmem, hunused⟩ := List.mem_filter.mp hq
  rw [Bool.and_eq_true, Bool.not_eq_true', Bool.not_eq_true', List.any_eq_false] at hunused
  obtain ⟨houtput, hunread⟩ := hunused
  refine .unused hmem houtput fun t ht => ?_
  have hnot := hunread t ht
  rwa [Task.reads_iff, Task.mem_required, not_or] at hnot

theorem checkCycles_reports (h : (p.tasks.map (·.result)).Nodup) :
    Reports (Witnessed p known .cycles) p.checkCycles := by
  refine .failFirst fun fault hfault => ?_
  obtain ⟨names, hnames, rfl⟩ := List.mem_map.mp hfault
  obtain ⟨cycle, hcycle, rfl⟩ := Option.map_eq_some_iff.mp (Option.mem_toList.mp hnames)
  obtain ⟨hnodup, hclosed⟩ := Digraph.cycle?_isCycle hcycle
  rw [adj_graph_eq_feeds h] at hclosed
  exact .circular ⟨hnodup, hclosed⟩

end Pipeline

namespace RuleGroup

open Pipeline

variable {p : Pipeline} {known : Option (List AvailableModel)} {g : RuleGroup}

/-- **What the check of a group reports is a witness against the group**, once the first group
holds. -/
theorem check_reports (h : g ≠ .structural → RuleGroup.structural.Holds p known) :
    Reports (g.Witnessed p known) (g.check p known) := by
  cases g with
  | structural => exact checkStructure_reports
  | resolution =>
    obtain ⟨hparameters, -⟩ := h (by decide)
    exact checkResolution_reports hparameters
  | expectations => exact checkExpectations_reports
  | jokers =>
    obtain ⟨hparameters, -⟩ := h (by decide)
    exact checkJokers_reports hparameters
  | models => exact checkModels_reports
  | uses => exact checkUses_reports
  | cycles =>
    obtain ⟨-, -, hresults, -⟩ := h (by decide)
    exact checkCycles_reports hresults

/-- Every group but the first has the first one before it. -/
theorem structural_mem {earlier later : List RuleGroup} {g' : RuleGroup}
    (h : inOrder = earlier ++ g :: later) (hg' : g' = g ∨ g' ∈ earlier) (hne : g' ≠ .structural) :
    .structural ∈ earlier := by
  cases earlier with
  | nil =>
    obtain ⟨rfl, -⟩ := List.cons.inj h
    rcases hg' with rfl | hnone
    · exact absurd rfl hne
    · cases hnone
  | cons first rest =>
    obtain ⟨rfl, -⟩ := List.cons.inj h
    exact List.mem_cons_self

end RuleGroup

namespace Pipeline

open RuleGroup

variable {p : Pipeline} {known : Option (List AvailableModel)}

/-! ## All groups -/

theorem validate_eq :
    p.validate known = (inOrder.forM (check p known) >>= fun _ =>
      p.executionOrderNames >>= fun order => .ok ⟨p.warnings known, order⟩) := by
  simp only [validate, inOrder, List.forM_eq_forM, List.forM_cons, List.forM_nil, check, bind_assoc,
    pure_bind]

/-- Validation fails in one of its checks: there is an order of execution after the last one. -/
theorem forM_check_of_validate {fault : LogicFault} (h : p.validate known = .error fault) :
    inOrder.forM (check p known) = .error fault := by
  rw [validate_eq] at h
  rcases then_eq_error_iff.mp h with hcheck | ⟨hall, hrest⟩
  · exact hcheck
  · have hcycles : p.checkCycles = .ok () := forM_eq_ok_iff.mp hall .cycles (by decide)
    have hacyclic := Digraph.acyclic_of_cycle?_eq_none (checkCycles_eq_ok_iff.mp hcycles)
    obtain ⟨order, horder⟩ := exists_executionOrder hacyclic
    rw [executionOrderNames_of_ok horder] at hrest
    cases hrest

/-- The group whose check fails is the first that fails, so the groups before it hold. Unless it is
the first group, that one is among them. -/
theorem first_failing_group {fault : LogicFault} (h : p.validate known = .error fault) :
    ∃ earlier g later, inOrder = earlier ++ g :: later ∧ (∀ g' ∈ earlier, g'.Holds p known) ∧
      (g ≠ .structural → RuleGroup.structural.Holds p known) ∧ g.check p known = .error fault := by
  obtain ⟨earlier, g, later, hsplit, hearlier, hfault⟩ :=
    forM_eq_error_iff.mp (forM_check_of_validate h)
  have hfirst {g' : RuleGroup} (hg' : g' = g ∨ g' ∈ earlier) (hne : g' ≠ .structural) :
      RuleGroup.structural.Holds p known :=
    checkStructure_eq_ok_iff_holds.mp (hearlier .structural (structural_mem hsplit hg' hne))
  refine ⟨earlier, g, later, hsplit, fun g' hg' => ?_, hfirst (.inl rfl), hfault⟩
  exact (check_eq_ok_iff (hfirst (.inr hg'))).mp (hearlier g' hg')

/-- A fault is a true witness against one of the groups. -/
theorem exists_witnessed {fault : LogicFault} (h : p.validate known = .error fault) :
    ∃ g : RuleGroup, g.Witnessed p known fault := by
  obtain ⟨_, g, _, -, -, hfirst, hfault⟩ := first_failing_group h
  exact ⟨g, check_reports hfirst fault hfault⟩

/-- **A fault is faithful and has its place.** It belongs to the first group of rules that the
pipeline violates, in the order structure, resolution, expectations, jokers, models, uses, cycles,
and it is a true witness against this group. -/
theorem validate_error_witnessed {fault : LogicFault} (h : p.validate known = .error fault) :
    ∃ earlier g later, inOrder = earlier ++ g :: later ∧
      (∀ g' ∈ earlier, g'.Holds p known) ∧ ¬g.Holds p known ∧ g.Witnessed p known fault := by
  obtain ⟨earlier, g, later, hsplit, hearlier, hfirst, hfault⟩ := first_failing_group h
  refine ⟨earlier, g, later, hsplit, hearlier, fun hholds => ?_, check_reports hfirst fault hfault⟩
  rw [(check_eq_ok_iff hfirst).mpr hholds] at hfault
  cases hfault

end Pipeline

/-- A task that turns one parameter into another. -/
def Task.revise (name source result : String) (expectations : List Expectation) : Task :=
  { name, title := name, description := none, executionType := .simpleTemplate
    dependencies := .ofList [source], modelRequirements := none, contentLanguage := none
    content := braced source, result, postprocessing := [], expectations, jokers := [] }

/-- Two tasks that wait for each other, the second of which is expected to write at least three
words and exactly two. -/
def Pipeline.endlessReview : Pipeline :=
  { url := none, title := "Review", dialectVersion := "1.0.0", description := none
    parameters := [{ name := "draft" }, { name := "review", isOutput := true }]
    tasks := [.revise "write" "review" "draft" [],
      .revise "review" "draft" "review" [.amount .minimum .words 3, .amount .exactly .words 2]]
    knowledge := [] }

namespace Pipeline

/-- Of the two things that are wrong with the endless review, the expectations come first. -/
theorem endlessReview_inverted :
    ∃ fault, fault = .invertedExpectation "review" .words 3 2 ∧
      endlessReview.validate none = .error fault ∧
      ∃ earlier g later, RuleGroup.inOrder = earlier ++ g :: later ∧
        (∀ g' ∈ earlier, g'.Holds endlessReview none) ∧ ¬g.Holds endlessReview none ∧
        g.Witnessed endlessReview none fault := by
  have h : endlessReview.validate none = .error (.invertedExpectation "review" .words 3 2) := by
    cbv
  exact ⟨_, rfl, h, validate_error_witnessed h⟩

end Pipeline

end PromptPipeline
