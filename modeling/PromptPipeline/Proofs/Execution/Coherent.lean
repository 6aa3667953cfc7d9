import PromptPipeline.Proofs.Document.WellFormed
import PromptPipeline.Proofs.Execution.Reached
import PromptPipeline.Proofs.Execution.Settlement
import PromptPipeline.Proofs.Execution.Work

/-!
# Coherent states

A reached state is coherent: every task that has started was given values for all that it requires
and has done its work on these, and the values and errors of the run are those of the inputs and of
the finished tasks, no more and no less. Coherence speaks of one state and not of the order in which
it came about, so it is what states of different runs have in common. It is relative to a condition
`E` on what happens outside: if all events of a run satisfy it, then so do those of the work on each
task.
-/

namespace PromptPipeline.Executor

open RunState

variable {N : Type} [Zero N] [Add N] {x : Executor} {E : Event N → Prop} {inputs : Bindings String}
  {s s' : RunState N x.pipeline} {i : x.pipeline.TaskIndex}

/-- A task that has values for all that it requires, and what remains of the work on it. -/
structure Working (x : Executor) (E : Event N → Prop) (s : RunState N x.pipeline)
    (i : x.pipeline.TaskIndex) (work : Activity N (TaskRun N)) : Prop where
  supplied : ∀ name ∈ (x.pipeline.taskAt i).required, s.resolved.contains name = true
  reaches : ∃ history, (x.assignment s i).work.Reaches history work ∧ ∀ e ∈ history, E e

/-- Every started task works, or has worked, on the values of this state, which are those of the
inputs and of the finished tasks; the errors are those of missing inputs and of failed tasks. -/
structure Coherent (x : Executor) (E : Event N → Prop) (inputs : Bindings String)
    (s : RunState N x.pipeline) : Prop where
  running : ∀ i work, s.task i = .running work → x.Working E s i work
  finished : ∀ i report, s.task i = .finished report →
    ∃ run, x.Working E s i (.done run) ∧ report = run.settled (x.pipeline.taskAt i) ∧
      ∀ fault, run.ending ≠ .failed (.unexpected fault)
  resolved : ∀ name value, s.resolved.get? name = some value ↔
    (x.declaredInputs inputs).get? name = some value ∨
      ∃ i report, s.task i = .finished report ∧ (x.pipeline.taskAt i).result = name ∧
        report.value? = some value
  errors : s.errors.Perm ((x.initialState (N := N) inputs).errors ++ s.failures)

/-! ## Work goes on unchanged when values are added -/

omit [Zero N] [Add N] in
/-- An assignment only depends on the values of the parameters that the task requires. -/
theorem assignment_congr {N' : Type} {s' : RunState N' x.pipeline}
    (h : ∀ name ∈ (x.pipeline.taskAt i).required, s.resolved.get? name = s'.resolved.get? name) :
    x.assignment s i = x.assignment s' i := by
  have hparameters :
      s.resolved.filter (fun name _ => decide (name ∈ (x.pipeline.taskAt i).required)) =
        s'.resolved.filter (fun name _ => decide (name ∈ (x.pipeline.taskAt i).required)) := by
    refine Bindings.filter_congr fun name value => ?_
    rw [decide_eq_true_iff]
    exact and_congr_left fun hname => by rw [h name hname]
  show Assignment.mk _ _ (s.resolved.filter _) _ = Assignment.mk _ _ (s'.resolved.filter _) _
  rw [hparameters]

omit [Zero N] [Add N] in
/-- A task that is supplied is given exactly the parameters that it requires. -/
theorem contains_assignment_iff
    (h : ∀ name ∈ (x.pipeline.taskAt i).required, s.resolved.contains name = true) (name : String) :
    (x.assignment s i).parameters.contains name = true ↔
      name ∈ (x.assignment s i).task.required := by
  rw [Bindings.contains_iff]
  simp only [assignment, Bindings.get?_filter_eq_some_iff, decide_eq_true_iff]
  constructor
  · rintro ⟨value, -, hname⟩
    exact hname
  · intro hname
    obtain ⟨value, hvalue⟩ := Bindings.contains_iff.mp (h name hname)
    exact ⟨value, hvalue, hname⟩

/-- A task that has values for all that it requires, and what remains of the work on it after the
events. -/
structure Worked (x : Executor) (s : RunState N x.pipeline) (i : x.pipeline.TaskIndex)
    (own : List (Event N)) (work : Activity N (TaskRun N)) : Prop where
  supplied : ∀ name ∈ (x.pipeline.taskAt i).required, s.resolved.contains name = true
  reaches : (x.assignment s i).work.Reaches own work

theorem Worked.mono {own : List (Event N)} {work : Activity N (TaskRun N)}
    (hle : s.resolved.Le s'.resolved) (h : x.Worked s i own work) : x.Worked s' i own work := by
  have hget : ∀ name ∈ (x.pipeline.taskAt i).required,
      s.resolved.get? name = s'.resolved.get? name := by
    intro name hname
    obtain ⟨value, hvalue⟩ := Bindings.contains_iff.mp (h.supplied name hname)
    rw [hvalue, hle name value hvalue]
  refine ⟨fun name hname => ?_, ?_⟩
  · rw [Bindings.contains, ← hget name hname]
    exact h.supplied name hname
  · rw [← assignment_congr hget]
    exact h.reaches

theorem Working.mono {work : Activity N (TaskRun N)} (hle : s.resolved.Le s'.resolved)
    (h : x.Working E s i work) : x.Working E s' i work := by
  obtain ⟨hsupplied, own, hreaches, hE⟩ := h
  have hworked := Worked.mono hle ⟨hsupplied, hreaches⟩
  exact ⟨hworked.supplied, own, hworked.reaches, hE⟩

/-! ## What keeps states coherent -/

theorem initialState_coherent (x : Executor) (E : Event N → Prop) (inputs : Bindings String) :
    x.Coherent E inputs (x.initialState inputs) := by
  refine ⟨fun i work hi => ?_, fun i report hi => ?_, fun name value => ?_, ?_⟩
  · rw [initialState_task] at hi
    cases hi
  · rw [initialState_task] at hi
    cases hi
  · refine ⟨.inl, ?_⟩
    rintro (h | ⟨i, report, hi, -⟩)
    · exact h
    · rw [initialState_task] at hi
      cases hi
  · simp [failures, initialState_task, TaskState.report?]

/-- A state that differs in what is running is coherent if the running tasks are. -/
theorem Coherent.setTask_running {work : Activity N (TaskRun N)} (h : x.Coherent E inputs s)
    (hi : (s.task i).report? = none) (hwork : x.Working E s i work) :
    x.Coherent E inputs (s.setTask i (.running work)) := by
  have hreport (j : x.pipeline.TaskIndex) :
      ((s.setTask i (.running work)).task j).report? = (s.task j).report? := by
    by_cases hij : i = j
    · subst hij
      rw [setTask_task_self, hi]
      rfl
    · rw [setTask_task_of_ne hij]
  have hfinished (j : x.pipeline.TaskIndex) (report : TaskReport N) :
      (s.setTask i (.running work)).task j = .finished report ↔
        s.task j = .finished report := by
    rw [← TaskState.report?_eq_some_iff, ← TaskState.report?_eq_some_iff, hreport]
  have hmono {j : x.pipeline.TaskIndex} {work' : Activity N (TaskRun N)}
      (hj : x.Working E s j work') : x.Working E (s.setTask i (.running work)) j work' :=
    Working.mono (s := s) (.refl _) hj
  refine ⟨fun j work' hj => ?_, fun j report hj => ?_, fun name value => ?_, ?_⟩
  · by_cases hij : i = j
    · subst hij
      rw [setTask_task_self] at hj
      cases hj
      exact hmono hwork
    · rw [setTask_task_of_ne hij] at hj
      exact hmono (h.running j work' hj)
  · obtain ⟨run, hrun, hsettled⟩ := h.finished j report ((hfinished j report).mp hj)
    exact ⟨run, hmono hrun, hsettled⟩
  · simp only [hfinished]
    exact h.resolved name value
  · rw [failures]
    simp only [hreport]
    exact h.errors

/-- A task that has done its work settles coherently. -/
theorem Coherent.settle {run : TaskRun N} (h : x.Coherent E inputs s)
    (hi : (s.task i).report? = none) (hrun : x.Working E s i (.done run))
    (hordinary : ∀ fault, run.ending ≠ .failed (.unexpected fault))
    (hnew : ∀ value, (run.settled (x.pipeline.taskAt i)).value? = some value →
      s.resolved.contains (x.pipeline.taskAt i).result = false) :
    x.Coherent E inputs (s.settle i (run.settled (x.pipeline.taskAt i))) := by
  have hmono {j : x.pipeline.TaskIndex} {work : Activity N (TaskRun N)}
      (hj : x.Working E s j work) :
      x.Working E (s.settle i (run.settled (x.pipeline.taskAt i))) j work :=
    hj.mono (settle_le hnew)
  refine ⟨fun j work hj => ?_, fun j report hj => ?_, fun name value => ?_, ?_⟩
  · by_cases hij : i = j
    · subst hij
      rw [settle_task_self] at hj
      cases hj
    · -- The others go on with more values, which do not concern them.
      rw [settle_task_of_ne hij] at hj
      exact hmono (h.running j work hj)
  · rcases (settle_finished_iff hi).mp hj with hj | ⟨rfl, rfl⟩
    · obtain ⟨run', hrun', hsettled⟩ := h.finished j report hj
      exact ⟨run', hmono hrun', hsettled⟩
    · exact ⟨run, hmono hrun, rfl, hordinary⟩
  · rw [settle_get?_eq_some_iff hnew, h.resolved, or_assoc]
    refine or_congr_right ⟨?_, ?_⟩
    · rintro (⟨j, report, hj, hname, hvalue⟩ | ⟨hname, hvalue⟩)
      · exact ⟨j, report, (settle_finished_iff hi).mpr (.inl hj), hname, hvalue⟩
      · exact ⟨i, _, settle_task_self, hname, hvalue⟩
    · rintro ⟨j, report, hj, hname, hvalue⟩
      rcases (settle_finished_iff hi).mp hj with hj | ⟨rfl, rfl⟩
      · exact .inl ⟨j, report, hj, hname, hvalue⟩
      · exact .inr ⟨hname, hvalue⟩
  · refine (h.errors.append_right _).trans ?_
    rw [List.append_assoc]
    exact (failures_settle_perm hi).symm.append_left _

/-! ## What finished tasks came to -/

/-- A finished task succeeded with a value, failed with an error, or was cancelled after the signal
was seen set. -/
theorem Coherent.finished_cases (h : x.Coherent E inputs s) {report : TaskReport N}
    (hi : s.task i = .finished report) :
    report.task = x.pipeline.taskAt i ∧
      ((report.status = .succeeded ∧ ∃ value, report.value? = some value) ∨
        (report.status = .failed ∧ ∃ record, report.failure? = some record) ∨
        (report.status = .cancelled ∧ E (.looked true))) := by
  obtain ⟨run, ⟨-, past, hpast, hE⟩, rfl, -⟩ := h.finished i report hi
  obtain ⟨htask, hcancelled⟩ := Assignment.work_ensures hpast hE
  refine ⟨TaskRun.settled_task.trans htask, ?_⟩
  have hcases := run.settled_cases (x.pipeline.taskAt i)
  exact hcases.imp_right (Or.imp_right fun hend => ⟨hend.1, hcancelled hend.2⟩)

theorem Coherent.value_of_succeeded (h : x.Coherent E inputs s) {report : TaskReport N}
    (hi : s.task i = .finished report) (hstatus : report.status = .succeeded) :
    ∃ value, report.value? = some value := by
  obtain ⟨run, -, rfl, -⟩ := h.finished i report hi
  exact TaskRun.settled_value?_of_succeeded hstatus

/-- The error of a failed task is one of the run. -/
theorem Coherent.failure_mem (h : x.Coherent E inputs s) {report : TaskReport N}
    (hi : s.task i = .finished report) {record : ErrorRecord}
    (hfailure : report.failure? = some record) : record ∈ s.errors := by
  refine h.errors.mem_iff.mpr (List.mem_append_right _ (List.mem_filterMap.mpr ?_))
  refine ⟨i, List.mem_finRange i, ?_⟩
  rw [hi]
  exact hfailure

end PromptPipeline.Executor
