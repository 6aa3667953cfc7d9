import PromptPipeline.Proofs.Execution.Outcome
import PromptPipeline.Proofs.Execution.Trace

/-!
# Parameters are resolved once

The values of a run come from two places: the inputs that it was given, and the tasks that
succeeded. In every state of a run they are just these, entry by entry and without repetition, and
no value is ever taken back or changed. So the reports of a run account for all values that it gives
back, and the error that a parameter is resolved twice does not occur.
-/

namespace PromptPipeline

variable {N : Type}

/-- What the task binds: its result, if it succeeded with one. -/
def TaskReport.binding? (r : TaskReport N) : Option (String × String) :=
  r.value?.map fun value => (r.task.result, value)

/-- The reports of the tasks that are finished. -/
def RunState.reports {p : Pipeline} (s : RunState N p) : List (TaskReport N) :=
  (List.finRange _).filterMap fun i => (s.task i).report?

/-- The bindings are the given values of declared inputs and one result of each task that succeeded,
each of them once, and all of them belong to declared parameters. -/
structure Pipeline.Accounts (p : Pipeline) (inputs : Bindings String)
    (reports : List (TaskReport N)) (resolved : Bindings String) : Prop where
  entries : resolved.toList.Perm
    ((inputs.filter fun name _ => p.inputs.any (·.name == name)).toList ++
      reports.filterMap (·.binding?))
  succeeded : ∀ r ∈ reports, r.status = .succeeded → ∃ value, r.result = some value
  declared : ∀ name value, resolved.get? name = some value → ∃ q ∈ p.parameters, q.name = name

theorem TaskReport.binding?_eq_some_iff {r : TaskReport N} {name value : String} :
    r.binding? = some (name, value) ↔ r.task.result = name ∧ r.value? = some value := by
  unfold binding?
  cases r.value? <;> simp

theorem TaskReport.binding?_of_status_ne {r : TaskReport N} (h : r.status ≠ .succeeded) :
    r.binding? = none := by
  unfold binding? value?
  rw [if_neg h, Option.map_none]

theorem RunState.mem_reports_iff {p : Pipeline} {s : RunState N p} {r : TaskReport N} :
    r ∈ s.reports ↔ ∃ i : p.TaskIndex, s.task i = .finished r := by
  simp only [reports, List.mem_filterMap, TaskState.report?_eq_some_iff, List.mem_finRange,
    true_and]

namespace Executor

open RunState

variable [Zero N] [Add N] {x : Executor} {E : Event N → Prop} {inputs : Bindings String}
  {s s' : RunState N x.pipeline} {i j : x.pipeline.TaskIndex} {history : List (Event N)}
  {trace t : Trace N x.pipeline}

theorem Coherent.task_of_finished (h : x.Coherent E inputs s) {report : TaskReport N}
    (hi : s.task i = .finished report) : report.task = x.pipeline.taskAt i :=
  (h.finished_cases hi).1

/-- The entries that finished tasks add, each with a name of its own. -/
theorem Coherent.bindings_nodup (hx : x.Accepted) (h : x.Coherent E inputs s) :
    (s.reports.filterMap (·.binding?)).Nodup := by
  unfold reports
  rw [List.filterMap_filterMap]
  refine (List.nodup_finRange _).filterMap fun i j entry hi hj => ?_
  obtain ⟨r, hr, hbinding⟩ := Option.bind_eq_some_iff.mp hi
  obtain ⟨r', hr', hbinding'⟩ := Option.bind_eq_some_iff.mp hj
  have hname := (TaskReport.binding?_eq_some_iff.mp hbinding).1
  have hname' := (TaskReport.binding?_eq_some_iff.mp hbinding').1
  -- one name belongs to the result of one task
  rw [h.task_of_finished (TaskState.report?_eq_some_iff.mp hr)] at hname
  rw [h.task_of_finished (TaskState.report?_eq_some_iff.mp hr')] at hname'
  exact hx.wellFormed.result_injective (hname.trans hname'.symm)

theorem Coherent.mem_bindings_iff (h : x.Coherent E inputs s) {name value : String} :
    (name, value) ∈ s.reports.filterMap (·.binding?) ↔
      ∃ i report, s.task i = .finished report ∧ (x.pipeline.taskAt i).result = name ∧
        report.value? = some value := by
  simp only [List.mem_filterMap, mem_reports_iff, TaskReport.binding?_eq_some_iff]
  constructor
  · rintro ⟨report, ⟨i, hi⟩, hname, hvalue⟩
    exact ⟨i, report, hi, by rw [← h.task_of_finished hi, hname], hvalue⟩
  · rintro ⟨i, report, hi, hname, hvalue⟩
    exact ⟨report, ⟨i, hi⟩, by rw [h.task_of_finished hi, hname], hvalue⟩

/-- **A coherent state is accounted for** by the inputs and the finished tasks. -/
theorem Coherent.accounts (hx : x.Accepted) (h : x.Coherent E inputs s) :
    x.pipeline.Accounts inputs s.reports s.resolved := by
  have hmem (name value : String) :
      s.resolved.get? name = some value ↔
        (x.declaredInputs inputs).get? name = some value ∨
          (name, value) ∈ s.reports.filterMap (·.binding?) := by
    rw [h.resolved, h.mem_bindings_iff]
  have hdisjoint : ∀ entry ∈ (x.declaredInputs inputs).toList,
      ∀ entry' ∈ s.reports.filterMap (·.binding?), entry ≠ entry' := by
    -- an input is the result of no task
    rintro ⟨name, value⟩ hinput _ hresult rfl
    obtain ⟨-, q, hq, hin⟩ :=
      declaredInputs_get?_eq_some_iff.mp (Bindings.get?_eq_some_iff_mem.mpr hinput)
    obtain ⟨i, -, -, rfl, -⟩ := h.mem_bindings_iff.mp hresult
    rw [hx.wellFormed.result_not_input hq] at hin
    cases hin
  refine ⟨?_, fun r hr hstatus => ?_, fun name value hvalue => ?_⟩
  · have hnodup : ((x.declaredInputs inputs).toList ++
        s.reports.filterMap (·.binding?)).Nodup :=
      List.nodup_append.mpr ⟨Bindings.toList_nodup _, h.bindings_nodup hx, hdisjoint⟩
    rw [← hx.declaredInputs_eq]
    refine (List.perm_ext_iff_of_nodup (Bindings.toList_nodup _) hnodup).mpr fun entry => ?_
    obtain ⟨name, value⟩ := entry
    rw [List.mem_append, ← Bindings.get?_eq_some_iff_mem, ← Bindings.get?_eq_some_iff_mem, hmem]
  · obtain ⟨i, hi⟩ := mem_reports_iff.mp hr
    obtain ⟨value, hvalue⟩ := h.value_of_succeeded hi hstatus
    exact ⟨value, TaskReport.result_of_value? hvalue⟩
  · rcases (h.resolved name value).mp hvalue with hinput | ⟨i, -, -, rfl, -⟩
    · obtain ⟨-, q, hq, -⟩ := declaredInputs_get?_eq_some_iff.mp hinput
      obtain ⟨hmem, hname⟩ :=
        (Pipeline.parameter?_eq_some_iff hx.wellFormed.parameters_nodup).mp hq
      exact ⟨q, hmem, hname⟩
    · obtain ⟨q, hq, hname, -⟩ := hx.wellFormed.results_declared _ (Pipeline.taskAt_mem i)
      exact ⟨q, hq, hname⟩

/-! ## The end of a run -/

omit [Add N] in
theorem closingReports_bindings (hidle : s.running = []) (cancelled : Bool) :
    (closingReports s cancelled).filterMap (·.binding?) = s.reports.filterMap (·.binding?) := by
  unfold closingReports reports
  rw [List.filterMap_map, List.filterMap_filterMap]
  refine List.filterMap_congr fun i _ => ?_
  rw [Function.comp_apply]
  rcases closingReport_cases hidle cancelled i with hi | ⟨hi, hstatus⟩
  · rw [TaskState.report?_eq_some_iff.mpr hi, Option.bind_some]
  · rw [TaskReport.binding?_of_status_ne hstatus, hi]
    rfl

omit [Add N] in
/-- The reports at the end of a run account for the same bindings as those of the last state. -/
theorem closingReports_accounts (hidle : s.running = []) (cancelled : Bool)
    (h : x.pipeline.Accounts inputs s.reports s.resolved) :
    x.pipeline.Accounts inputs (closingReports s cancelled) s.resolved := by
  refine ⟨?_, fun r hr hstatus => ?_, h.declared⟩
  · rw [closingReports_bindings hidle]
    exact h.entries
  · obtain ⟨i, -, rfl⟩ := List.mem_map.mp hr
    rcases closingReport_cases hidle cancelled i with hi | ⟨-, hnot⟩
    · exact h.succeeded _ (mem_reports_iff.mpr ⟨i, hi⟩) hstatus
    · exact absurd hstatus hnot

/-- **A parameter is resolved once.** In every state of a run the values are accounted for, no
further move takes one back, and the result of a task that succeeds has no value before the task is
joined. The outcome has the values of the last state, accounted for by the reports that it gives,
and the outputs among them. -/
theorem resolution_is_write_once {p : Pipeline} {tools : Tools} {settings : ExecutionSettings}
    {x : Executor} (hx : ofPipeline p tools settings = .ok x) (inputs : Bindings String) :
    (∀ (trace : Trace N x.pipeline) (s : RunState N x.pipeline), x.Traced inputs trace s →
      p.Accounts inputs s.reports s.resolved ∧
      (∀ s', x.Advances s s' → s.resolved.Le s'.resolved) ∧
      ∀ i run value, s.task i = .running (.done run) → run.ending = .succeeded value →
        s.resolved.contains (x.pipeline.taskAt i).result = false ∧
        ∃ s' progress, x.join s i run = .ok (s', progress) ∧
          s'.resolved = s.resolved.insert (x.pipeline.taskAt i).result value) ∧
    ∀ (schedule : Schedule) (history : List (Event N)) (o : Outcome N),
      (x.execute schedule inputs).Reaches history (.done (.ok o)) →
        p.Accounts inputs o.report.tasks o.resolved ∧
        ∀ name value, o.report.outputs.get? name = some value ↔
          o.resolved.get? name = some value ∧
            ∃ q ∈ p.parameters, q.name = name ∧ q.isOutput = true := by
  obtain ⟨order, rfl, hx⟩ := accepted_of_ofPipeline hx
  have hcoherent {trace : Trace N p} {s : RunState N p}
      (htraced : Executor.Traced ⟨p, tools, settings, order⟩ inputs trace s) :
      Executor.Coherent ⟨p, tools, settings, order⟩ (fun _ => True) inputs s :=
    htraced.reached.coherent fun _ _ => trivial
  constructor
  · intro trace s htraced
    refine ⟨(hcoherent htraced).accounts hx, fun s' hs' => hs'.resolved_le, ?_⟩
    intro i run value hi hending
    have hnew := (hcoherent htraced).result_not_contains hx (i := i) (by rw [hi]; rfl)
    refine ⟨hnew, ?_⟩
    simp [join, hending, hnew, setTask]
  · intro schedule history o hrun
    obtain ⟨trace, cancelled, s, closing, -, -, htraced, hidle, rfl⟩ := exists_last hrun
    refine ⟨?_, fun name value => outcome_outputs_get?_iff⟩
    exact closingReports_accounts hidle cancelled ((hcoherent htraced).accounts hx)

/-- The small pipeline binds the name that it is given, but no country, since it declares none. -/
theorem greetings_ignore_country :
    ∃ (x : Executor) (history : List (Event Nat)) (o : Outcome Nat),
      ofPipeline .greetings .none {} = .ok x ∧
      (x.execute .firstTask (.ofList [("name", "Ada"), ("country", "Italy")])).Reaches history
        (.done (.ok o)) ∧
      o.resolved.get? "name" = some "Ada" ∧ o.resolved.get? "country" = none := by
  obtain ⟨x, hx⟩ : ∃ x, ofPipeline .greetings .none {} = .ok x := ⟨_, by cbv⟩
  obtain ⟨history, o, hreaches, -⟩ := exists_refused (N := Nat) hx Pipeline.greetings_closed
    .firstTask (.ofList [("name", "Ada"), ("country", "Italy")])
  obtain ⟨hentries, -, hdeclared⟩ :=
    ((resolution_is_write_once hx _).2 .firstTask history o hreaches).1
  refine ⟨x, history, o, hx, hreaches, ?_, ?_⟩
  · refine Bindings.get?_eq_some_iff_mem.mpr (hentries.mem_iff.mpr (List.mem_append_left _ ?_))
    exact Bindings.get?_eq_some_iff_mem.mp (by decide)
  · refine Option.eq_none_iff_forall_ne_some.mpr fun value hvalue => ?_
    obtain ⟨q, hq, hname⟩ := hdeclared _ _ hvalue
    have hall : ∀ q ∈ Pipeline.greetings.parameters, q.name ≠ "country" := by decide
    exact hall q hq hname

end Executor

end PromptPipeline
