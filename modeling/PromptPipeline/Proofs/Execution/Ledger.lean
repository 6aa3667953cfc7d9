import PromptPipeline.Proofs.Execution.Cancellation
import PromptPipeline.Proofs.Execution.Success

/-!
# The ledger of errors

A run puts errors on record in different places: at its start for inputs that were not given, when
the work on a task has failed, and at its end if a task was cancelled. The report of a task is
replaced by the one that the work on it comes to. `errors_perm_ledger` says that the books balance:
up to their order, the errors of a run are what its inputs and its reports call for
(`Pipeline.ledger`), so that none is lost, doubled or left with a task that did not fail.
-/

namespace PromptPipeline

variable {N : Type}

namespace Pipeline

/-- The declared inputs that are not given a value. -/
def missing (p : Pipeline) (inputs : Bindings String) : List Parameter :=
  p.inputs.filter (!inputs.contains ·.name)

/-- The errors that the inputs and the reports of a run call for. -/
def ledger (p : Pipeline) (inputs : Bindings String) (reports : List (TaskReport N)) :
    List ErrorRecord :=
  (p.missing inputs).map (fun q => { error := .execution (.inputNotGiven q.name) }) ++
    reports.filterMap (·.failure?) ++
      if reports.any (·.status == .cancelled) then [{ error := .execution .cancelled }] else []

end Pipeline

/-- The report of a task that has come to its end: it has an error, under the name of the task, if
the task failed, and none otherwise. -/
structure TaskReport.Closed (r : TaskReport N) : Prop where
  terminal : r.status.isTerminal = true
  failed : r.status = .failed → ∃ e, r.error = some { task := some r.task.name, error := e }
  clean : r.status ≠ .failed → r.error = none

namespace TaskReport

variable {r : TaskReport N} {record : ErrorRecord}

theorem status_of_failure? (h : r.failure? = some record) : r.status = .failed := by
  unfold failure? at h
  split at h
  next hstatus => exact hstatus
  next => cases h

/-- The error of a failed task is on record under its name. -/
theorem Closed.task_of_failure? (hr : r.Closed) (h : r.failure? = some record) :
    record.task = some r.task.name := by
  have hstatus := status_of_failure? h
  obtain ⟨e, herror⟩ := hr.failed hstatus
  rw [failure?, if_pos hstatus, herror] at h
  cases h
  rfl

end TaskReport

namespace Executor

open RunState

variable [Zero N] [Add N] {x : Executor} {E : Event N → Prop} {inputs : Bindings String}
  {s : RunState N x.pipeline} {i : x.pipeline.TaskIndex} {cancelled : Bool}

/-! ## Entries -/

omit [Zero N] [Add N] in
/-- At first the errors are those of the missing inputs. -/
theorem initialState_errors (hx : x.Accepted) :
    (x.initialState (N := N) inputs).errors =
      (x.pipeline.missing inputs).map
        fun q => { error := .execution (.inputNotGiven q.name) } := by
  have hmissing : x.pipeline.inputs.filter (!(x.declaredInputs inputs).contains ·.name) =
      x.pipeline.missing inputs := by
    refine List.filter_congr fun q hq => congrArg _ ?_
    obtain ⟨hmem, hinput⟩ := List.mem_filter.mp hq
    have hlookup : x.pipeline.parameter? q.name = some q :=
      (Pipeline.parameter?_eq_some_iff hx.wellFormed.parameters_nodup).mpr ⟨hmem, rfl⟩
    rw [Bool.eq_iff_iff, Bindings.contains_iff, Bindings.contains_iff]
    refine exists_congr fun value => ?_
    rw [declaredInputs_get?_eq_some_iff]
    exact and_iff_left ⟨q, hlookup, hinput⟩
  rw [← hmissing]
  rfl

omit [Add N] in
/-- A task that waits for ever adds no error; a finished one adds that of its report. -/
theorem closingReport_failure? (hidle : s.running = []) (cancelled : Bool)
    (i : x.pipeline.TaskIndex) :
    (x.closingReport s cancelled i).1.failure? = (s.task i).report?.bind (·.failure?) := by
  rcases pending_or_finished_of_idle hidle i with hi | ⟨report, hi⟩
  · rw [closingReport_of_pending hi, hi]
    cases cancelled <;> rfl
  · rw [closingReport_of_finished hi, hi]
    rfl

omit [Add N] in
theorem closingReports_failures (hidle : s.running = []) (cancelled : Bool) :
    (closingReports s cancelled).filterMap (·.failure?) = s.failures := by
  unfold closingReports failures
  rw [List.filterMap_map]
  exact List.filterMap_congr fun i _ => closingReport_failure? hidle cancelled i

/-- The work on a task leaves an error in its report only if it failed. -/
theorem Coherent.closed_of_finished (h : x.Coherent E inputs s) {report : TaskReport N}
    (hi : s.task i = .finished report) : report.Closed := by
  obtain ⟨htask, -⟩ := h.finished_cases hi
  obtain ⟨run, ⟨-, own, hreaches, -⟩, rfl, -⟩ := h.finished i report hi
  have hnone := (Assignment.work_tells hreaches).2.2.1
  have hfailure : (run.settled (x.pipeline.taskAt i)).failure? =
      (run.settled (x.pipeline.taskAt i)).error := TaskRun.settled_failure?_eq_error hnone
  refine ⟨run.settled_isTerminal _, fun hfailed => ?_, fun hother => ?_⟩
  · have hsome := (run.settled_failure?_isSome_iff (x.pipeline.taskAt i)).mpr hfailed
    obtain ⟨record, hrecord⟩ := Option.isSome_iff_exists.mp hsome
    obtain ⟨e, -, rfl⟩ := TaskRun.settled_failure?_eq_some_iff.mp hrecord
    exact ⟨e, by rw [← hfailure, hrecord, htask]⟩
  · rw [← hfailure, TaskReport.failure?, if_neg hother]

/-- At the end of a run every report is closed. -/
theorem Coherent.closingReport_closed (h : x.Coherent E inputs s) (hidle : s.running = [])
    (cancelled : Bool) (i : x.pipeline.TaskIndex) : (x.closingReport s cancelled i).1.Closed := by
  rcases pending_or_finished_of_idle hidle i with hi | ⟨report, hi⟩
  · rw [closingReport_of_pending hi]
    refine ⟨by cases cancelled <;> rfl, fun hfailed => ?_, fun _ => rfl⟩
    cases cancelled <;> cases hfailed
  · rw [closingReport_of_finished hi]
    exact h.closed_of_finished hi

theorem Coherent.closingReports_tasks (h : x.Coherent E inputs s) (hidle : s.running = [])
    (cancelled : Bool) : (closingReports s cancelled).map (·.task) = x.pipeline.tasks := by
  have htasks : (closingReports s cancelled).map (·.task) =
      (List.finRange _).map x.pipeline.taskAt := by
    unfold closingReports
    rw [List.map_map]
    exact List.map_congr_left fun i _ => h.closingReport_task hidle cancelled i
  rw [htasks]
  exact List.map_get_finRange _

/-! ## Balance -/

/-- A report that says cancelled means that the signal is set at the end of the run. -/
theorem Traced.cancelled_of_closingReport {trace : Trace N x.pipeline}
    (h : x.Traced inputs trace s) (hidle : s.running = [])
    (hkept : .looked true ∈ trace.map (·.2) → cancelled = true)
    (hstatus : (x.closingReport s cancelled i).1.status = .cancelled) : cancelled = true := by
  have hcoherent := h.reached.coherent (E := (· ∈ trace.map (·.2))) fun _ => id
  rcases pending_or_finished_of_idle hidle i with hi | ⟨report, hi⟩
  · rw [closingReport_of_pending hi] at hstatus
    cases cancelled with
    | true => rfl
    | false => cases hstatus
  · rw [closingReport_of_finished hi] at hstatus
    obtain ⟨-, ⟨hsucceeded, -⟩ | ⟨hfailed, -⟩ | ⟨-, hseen⟩⟩ := hcoherent.finished_cases hi
    · rw [hsucceeded] at hstatus
      cases hstatus
    · rw [hfailed] at hstatus
      cases hstatus
    · exact hkept hseen

/-- The errors of a run are those that its inputs and reports call for. -/
theorem Traced.errors_perm (hx : x.Accepted) {trace : Trace N x.pipeline}
    (h : x.Traced inputs trace s) (hidle : s.running = [])
    (hkept : .looked true ∈ trace.map (·.2) → cancelled = true) :
    (x.outcome s cancelled (closingReports s cancelled)).report.errors.Perm
      (x.pipeline.ledger inputs (closingReports s cancelled)) := by
  have hcoherent := h.reached.coherent (E := fun _ => True) fun _ _ => trivial
  have hlast : (cancelled && (closingReports s cancelled).any (·.status == .cancelled)) =
      (closingReports s cancelled).any (·.status == .cancelled) := by
    rw [Bool.and_eq_right_iff_imp, List.any_eq_true]
    rintro ⟨r, hr, hstatus⟩
    obtain ⟨i, -, rfl⟩ := List.mem_map.mp hr
    exact h.cancelled_of_closingReport hidle hkept (beq_iff_eq.mp hstatus)
  have herrors := hcoherent.errors
  rw [initialState_errors hx, ← closingReports_failures hidle cancelled] at herrors
  unfold outcome Pipeline.ledger
  dsimp only
  rw [hlast]
  exact herrors.append_right _

/-- An error of the ledger that names a task is that of a failed one. -/
theorem Coherent.ledger_task_ne (hx : x.Accepted) (h : x.Coherent E inputs s)
    (hidle : s.running = []) (hclean : (x.closingReport s cancelled i).1.status ≠ .failed)
    {record : ErrorRecord}
    (hmem : record ∈ x.pipeline.ledger inputs (closingReports s cancelled)) :
    record.task ≠ some (x.closingReport s cancelled i).1.task.name := by
  intro htask
  rcases List.mem_append.mp hmem with hmem | hlast
  · rcases List.mem_append.mp hmem with hmissing | hfailed
    · obtain ⟨q, -, rfl⟩ := List.mem_map.mp hmissing
      cases htask
    · obtain ⟨r, hr, hfailure⟩ := List.mem_filterMap.mp hfailed
      obtain ⟨j, -, rfl⟩ := List.mem_map.mp hr
      have hname := (h.closingReport_closed hidle cancelled j).task_of_failure? hfailure
      rw [htask, h.closingReport_task hidle, h.closingReport_task hidle] at hname
      -- Names are unique, so that it would be the error of this very task.
      obtain rfl := hx.wellFormed.name_injective (Option.some.inj hname)
      exact hclean (TaskReport.status_of_failure? hfailure)
  · split at hlast
    · rw [List.mem_singleton.mp hlast] at htask
      cases htask
    · cases hlast

/-- **The errors of a run balance its inputs and reports.** In a run that returned an outcome, where
the signal is never taken back, there is one report for each task, and up to their order the errors
on record are one for each declared input that was not given, the error of each failed task, and one
if a task was cancelled. A failed task has its error in its report, under its name. A task that
ended otherwise has none, and no error on record names it. -/
theorem errors_perm_ledger {p : Pipeline} {tools : Tools} {settings : ExecutionSettings}
    {x : Executor} (hx : ofPipeline p tools settings = .ok x) {schedule : Schedule}
    {inputs : Bindings String} {history : List (Event N)} {o : Outcome N}
    (hrun : (x.execute schedule inputs).Reaches history (.done (.ok o)))
    (hkept : SignalKept history) :
    o.report.tasks.map (·.task) = p.tasks ∧
    o.report.errors.Perm (p.ledger inputs o.report.tasks) ∧
    ∀ r ∈ o.report.tasks, r.Closed ∧
      (r.status ≠ .failed → ∀ record ∈ o.report.errors, record.task ≠ some r.task.name) := by
  obtain ⟨order, rfl, hx⟩ := accepted_of_ofPipeline hx
  obtain ⟨trace, cancelled, s, closing, rfl, -, htraced, hidle, rfl⟩ := exists_last hrun
  have hcoherent := htraced.reached.coherent (E := fun _ => True) fun _ _ => trivial
  have hset (hseen : .looked true ∈ trace.map (·.2)) : cancelled = true := by
    cases cancelled with
    | true => rfl
    | false =>
      have hpair := (List.pairwise_append.mp hkept).2.2 _ hseen (.looked false) List.mem_cons_self
      exact absurd rfl (hpair rfl)
  have hperm := htraced.errors_perm hx hidle hset
  refine ⟨hcoherent.closingReports_tasks hidle cancelled, hperm, fun r hr => ?_⟩
  obtain ⟨i, -, rfl⟩ := List.mem_map.mp hr
  refine ⟨hcoherent.closingReport_closed hidle cancelled i, fun hclean record hrecord => ?_⟩
  exact hcoherent.ledger_task_ne hx hidle hclean (hperm.mem_iff.mp hrecord)

/-- Without a city, the errors of the small pipeline say so. -/
theorem greetings_city_on_record :
    ∃ (x : Executor) (history : List (Event Nat)) (o : Outcome Nat),
      ofPipeline .greetings .none {} = .ok x ∧
      (x.execute .firstTask (.ofList [("name", "Ada")])).Reaches history (.done (.ok o)) ∧
      SignalKept history ∧
      { error := .execution (.inputNotGiven "city") } ∈ o.report.errors := by
  obtain ⟨x, hx⟩ : ∃ x, ofPipeline .greetings .none {} = .ok x := ⟨_, by cbv⟩
  obtain ⟨history, o, hreaches, hobeys⟩ := exists_refused (N := Nat) hx Pipeline.greetings_closed
    .firstTask (.ofList [("name", "Ada")])
  have hkept := signalKept_of_not_set (looked_true_notMem hobeys)
  obtain ⟨-, hperm, -⟩ := errors_perm_ledger hx hreaches hkept
  have hmissing : { name := "city", isInput := true } ∈
      Pipeline.greetings.missing (.ofList [("name", "Ada")]) := by decide
  refine ⟨x, history, o, hx, hreaches, hkept, hperm.mem_iff.mpr ?_⟩
  exact List.mem_append_left _ (List.mem_append_left _ (List.mem_map.mpr ⟨_, hmissing, rfl⟩))

end Executor

end PromptPipeline
