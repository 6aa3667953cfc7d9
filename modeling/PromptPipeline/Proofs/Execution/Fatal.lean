import PromptPipeline.Proofs.Execution.Caching
import PromptPipeline.Proofs.Execution.Cancellation

/-!
# Errors that end a run

Some errors are called errors of a task (`PipelineError.isTaskLevel`), but this is not what decides
whether a run goes on. A run ends with an error if and only if the work on a task fails with an
internal one; every other error that ends a task is on record, under the name of the task
(`only_internal_errors_fatal`). Recorded errors that are not those of a task come from adapters: a
generator without a key, say, fails its task and leaves the run going (`missing_key_on_record`).
-/

namespace PromptPipeline

variable {N : Type}

namespace Executor

open RunState

variable [Zero N] [Add N] {x : Executor} {inputs : Bindings String} {history : List (Event N)}
  {s : RunState N x.pipeline} {i : x.pipeline.TaskIndex} {trace : Trace N x.pipeline}
  {e : PipelineError}

/-- The task was started, and the work on it has failed with the error: the trace has the whole
history of the work, and the state has the values that it was given. -/
def FailedWith (x : Executor) (trace : Trace N x.pipeline) (s : RunState N x.pipeline)
    (i : x.pipeline.TaskIndex) (e : PipelineError) : Prop :=
  s.task i ≠ .pending ∧
    ∃ run, x.Worked s i (eventsOf trace i) (.done run) ∧ run.ending = .failed e

/-- The error that fails a task is an internal one, or one of a task, or one that an adapter
raised in the work on it. -/
theorem FailedWith.cases (hx : x.Accepted) (h : x.FailedWith trace s i e) :
    (∃ fault, e = .unexpected fault) ∨ e.isTaskLevel = true ∨
      ∃ c answer, .answered c answer ∈ eventsOf trace i ∧ c.failure? answer = some e := by
  obtain ⟨-, run, hworked, hending⟩ := h
  have hraised := Assignment.work_raises (a := x.assignment s i) (E := (· ∈ eventsOf trace i))
    (R := fun e => ∃ c answer, .answered c answer ∈ eventsOf trace i ∧ c.failure? answer = some e)
    (fun c answer hanswer e hfailure => ⟨c, answer, hanswer, hfailure⟩) hx.attempts
  rcases hraised hworked.reaches (fun _ => id) e hending with hcontent | hlevel
  · obtain ⟨-, name, -, -, rfl⟩ := Assignment.exists_of_content_eq_error hcontent
    exact .inl ⟨_, rfl⟩
  · exact .inr hlevel

/-! ## Runs that end with an error -/

/-- **A run that returns an error** was ended by a task that failed with this error, and the error
is an internal one. -/
theorem exists_fatal (hx : x.Accepted) {schedule : Schedule}
    (h : (x.execute schedule inputs).Reaches history (.done (.error e))) :
    ∃ (trace : Trace N x.pipeline) (s : RunState N x.pipeline) (i : x.pipeline.TaskIndex),
      history = trace.map (·.2) ∧ x.Traced inputs trace s ∧ x.FailedWith trace s i e ∧
      ∃ fault, e = .unexpected fault := by
  obtain ⟨trace, h₂, s, rfl, htraced, hends⟩ := exists_traced h
  cases hends with
  | @fail i run _ hi hjoin =>
    have hcoherent := htraced.reached.coherent (E := fun _ => True) fun _ _ => trivial
    rcases join_eq_error hjoin with ⟨fault, hending, rfl⟩ | hbound
    · have hlogged := htraced.logged i
      rw [hi] at hlogged
      refine ⟨trace, s, i, List.append_nil _, htraced, ⟨?_, run, hlogged.worked, hending⟩, fault,
        rfl⟩
      rw [hi]
      exact fun heq => nomatch heq
    · -- No task has produced the result of one that is still running.
      have hunbound := hcoherent.result_not_contains hx (i := i) (by rw [hi]; rfl)
      rw [hbound] at hunbound
      cases hunbound

/-! ## Runs that return an outcome -/

/-- The work on a task leaves its error in the report, and no other one. -/
theorem Worked.settled_error_iff {own : List (Event N)} {run : TaskRun N}
    (h : x.Worked s i own (.done run)) :
    (run.settled (x.pipeline.taskAt i)).error =
      some { task := some (x.pipeline.taskAt i).name, error := e } ↔ run.ending = .failed e := by
  have hnone := (Assignment.work_tells h.reaches).2.2.1
  rw [← TaskRun.settled_failure?_eq_error hnone, TaskRun.settled_failure?_eq_some_iff]
  constructor
  · rintro ⟨e', hending, heq⟩
    cases heq
    exact hending
  · exact fun hending => ⟨e, hending, rfl⟩

/-- A task failed with the error if and only if it is finished, and the error is in its report. -/
theorem Traced.failedWith_iff (h : x.Traced inputs trace s) (hidle : s.running = []) :
    x.FailedWith trace s i e ↔ ∃ report, s.task i = .finished report ∧
      report.error = some { task := some (x.pipeline.taskAt i).name, error := e } := by
  constructor
  · rintro ⟨hstarted, run, hworked, hending⟩
    rcases pending_or_finished_of_idle hidle i with hi | ⟨report, hi⟩
    · exact absurd hi hstarted
    · obtain ⟨run', hworked', rfl, -⟩ := h.exists_run hi
      have hreaches := hworked'.reaches
      rw [← List.append_nil (eventsOf trace i)] at hreaches
      obtain ⟨-, rfl⟩ := hworked.reaches.eq_of_done hreaches
      exact ⟨_, hi, hworked.settled_error_iff.mpr hending⟩
  · rintro ⟨report, hi, herror⟩
    obtain ⟨run, hworked, rfl, -⟩ := h.exists_run hi
    have hstarted : s.task i ≠ .pending := by
      rw [hi]
      exact fun heq => nomatch heq
    exact ⟨hstarted, run, hworked, hworked.settled_error_iff.mp herror⟩

/-- A run that goes on does so because no task failed with an internal error. -/
theorem Traced.not_unexpected (h : x.Traced inputs trace s) (hidle : s.running = [])
    (hfailed : x.FailedWith trace s i e) (fault : InternalFault) : e ≠ .unexpected fault := by
  obtain ⟨report, hi, herror⟩ := (h.failedWith_iff hidle).mp hfailed
  obtain ⟨run, hworked, rfl, hordinary⟩ := h.exists_run hi
  rintro rfl
  exact hordinary fault (hworked.settled_error_iff.mp herror)

/-- At the end of a run, the error of a task is on record. -/
theorem Traced.failedWith_iff_closing (h : x.Traced inputs trace s) (hidle : s.running = [])
    (cancelled : Bool) : x.FailedWith trace s i e ↔
      (x.closingReport s cancelled i).1.error =
        some { task := some (x.pipeline.taskAt i).name, error := e } := by
  rw [h.failedWith_iff hidle]
  rcases pending_or_finished_of_idle hidle i with hi | ⟨report, hi⟩
  · rw [closingReport_of_pending hi, hi]
    constructor
    · rintro ⟨report, heq, -⟩
      cases heq
    · intro heq
      cases heq
  · rw [closingReport_of_finished hi, hi]
    constructor
    · rintro ⟨report', heq, herror⟩
      cases heq
      exact herror
    · exact fun herror => ⟨report, rfl, herror⟩

/-- The error that failed a task is one of the run. -/
theorem Traced.failedWith_mem (h : x.Traced inputs trace s) (hidle : s.running = [])
    (hfailed : x.FailedWith trace s i e) :
    { task := some (x.pipeline.taskAt i).name, error := e } ∈ s.errors := by
  have hcoherent := h.reached.coherent (E := fun _ => True) fun _ _ => trivial
  obtain ⟨report, hi, herror⟩ := (h.failedWith_iff hidle).mp hfailed
  obtain ⟨run, hworked, rfl, -⟩ := h.exists_run hi
  have hending := hworked.settled_error_iff.mp herror
  exact hcoherent.failure_mem hi (TaskRun.settled_failure?_eq_some_iff.mpr ⟨e, hending, rfl⟩)

/-- **Internal errors end a run, and all others are on record.** A run that returns an error was
ended by a task that failed with it, and it is an internal error. In a run that returns an outcome,
the errors with which tasks failed are those in their reports; each is on record for the run, none
is an internal error, and each is an error of a task or one that an adapter raised in the work on
it, of whatever kind. -/
theorem only_internal_errors_fatal {p : Pipeline} {tools : Tools} {settings : ExecutionSettings}
    {x : Executor} (hx : ofPipeline p tools settings = .ok x) {schedule : Schedule}
    {inputs : Bindings String} {history : List (Event N)} :
    (∀ e, (x.execute schedule inputs).Reaches history (.done (.error e)) →
      (∃ fault, e = .unexpected fault) ∧ e.isTaskLevel = false ∧
      ∃ (trace : Trace N x.pipeline) (s : RunState N x.pipeline) (i : x.pipeline.TaskIndex),
        history = trace.map (·.2) ∧ x.Traced inputs trace s ∧ x.FailedWith trace s i e) ∧
    ∀ o, (x.execute schedule inputs).Reaches history (.done (.ok o)) →
      ∃ (trace : Trace N x.pipeline) (cancelled : Bool) (s : RunState N x.pipeline),
        history = trace.map (·.2) ++ .looked cancelled :: (closings s cancelled).map .notified ∧
        x.Traced inputs trace s ∧ ∀ (i : x.pipeline.TaskIndex) (e : PipelineError),
          (x.FailedWith trace s i e ↔ ∃ report, o.report.tasks[i.val]? = some report ∧
            report.error = some { task := some (x.pipeline.taskAt i).name, error := e }) ∧
          (x.FailedWith trace s i e →
            { task := some (x.pipeline.taskAt i).name, error := e } ∈ o.report.errors ∧
            (∀ fault, e ≠ .unexpected fault) ∧
            (e.isTaskLevel = true ∨
              ∃ c answer, .answered c answer ∈ eventsOf trace i ∧ c.failure? answer = some e)) := by
  obtain ⟨order, rfl, hx⟩ := accepted_of_ofPipeline hx
  refine ⟨fun e hrun => ?_, fun o hrun => ?_⟩
  · obtain ⟨trace, s, i, hhistory, htraced, hfailed, fault, rfl⟩ := exists_fatal hx hrun
    exact ⟨⟨fault, rfl⟩, rfl, trace, s, i, hhistory, htraced, hfailed⟩
  · obtain ⟨trace, cancelled, s, hhistory, htraced, hidle, rfl⟩ := exists_closed hrun
    refine ⟨trace, cancelled, s, hhistory, htraced, fun i e => ⟨?_, fun hfailed => ?_⟩⟩
    · rw [htraced.failedWith_iff_closing hidle cancelled]
      show _ ↔ ∃ report, (closingReports s cancelled)[i.val]? = some report ∧ _
      rw [closingReports_getElem?]
      simp
    · have hordinary := htraced.not_unexpected hidle hfailed
      refine ⟨List.mem_append_left _ (htraced.failedWith_mem hidle hfailed), hordinary, ?_⟩
      exact (hfailed.cases hx).resolve_left fun ⟨fault, heq⟩ => hordinary fault heq

end Executor

/-- The answer of a generator that has no key, where nothing else is at hand. -/
def Call.lackKey : (c : Call) → c.Answer N
  | .generate _ _ _ => .error (.settings (.reported "no key"))
  | .listModels _ | .runScript _ _ _ _ | .applyFunction _ _ _ _ | .askUser _ _ =>
    .error (.execution (.reported "refused" true))

theorem Call.kept_lackKey (c : Call) : c.Kept (N := N) c.lackKey := by
  intro fault h
  cases c <;> cases h

theorem Pipeline.hello_closed : ∀ t ∈ hello.tasks, t.Closed := by
  have hnone : (Template.parameters "Say hello").toList = [] := by cbv
  intro t ht _ name hname
  obtain rfl := List.mem_singleton.mp ht
  have hmem : name ∈ (Template.parameters "Say hello").toList := hname
  rw [hnone] at hmem
  cases hmem

namespace Executor

/-- A task that requires nothing is given nothing. -/
theorem assignment_parameters_eq_empty {x : Executor} {s : RunState N x.pipeline}
    {i : x.pipeline.TaskIndex} (h : ∀ name, name ∉ (x.pipeline.taskAt i).required) :
    (x.assignment s i).parameters = ∅ := by
  refine Bindings.ext fun name => Option.ext fun value => ?_
  simp only [assignment, Bindings.get?_filter_eq_some_iff, h, decide_false, Bool.false_eq_true,
    and_false, false_iff]
  intro h
  cases h

/-- The error of a generator without a key is no error of a task, but it is on record for the
task and does not end the run. -/
theorem missing_key_on_record :
    ∃ (x : Executor) (history : List (Event Nat)) (o : Outcome Nat) (report : TaskReport Nat),
      ofPipeline .hello (Tools.none.withGenerator "Keyless") {} = .ok x ∧
      (x.execute .firstTask ∅).Reaches history (.done (.ok o)) ∧ o.report.tasks[0]? = some report ∧
      report.error = some { task := some "greet", error := .settings (.reported "no key") } ∧
      (PipelineError.settings (.reported "no key")).isTaskLevel = false ∧
      ∃ c answer, .answered c answer ∈ history ∧
        c.failure? answer = some (.settings (.reported "no key")) := by
  obtain ⟨x, hx⟩ : ∃ x, ofPipeline .hello (Tools.none.withGenerator "Keyless") {} = .ok x :=
    ⟨_, by cbv⟩
  obtain ⟨history, hreaches, hobeys⟩ := Activity.exists_reaches_evaluate (N := Nat) Call.lackKey
    (x.execute .firstTask ∅)
  have hset := looked_true_notMem hobeys
  obtain ⟨order, rfl, haccepted⟩ := accepted_of_ofPipeline hx
  obtain ⟨o, ho⟩ := exists_outcome haccepted
    (fun i => Pipeline.hello_closed _ (Pipeline.taskAt_mem i)) hreaches
    fun e he => (hobeys e he).kept Call.kept_lackKey
  rw [ho] at hreaches
  -- The task requires nothing, so that it is started, with no parameters at all.
  let i : Pipeline.hello.TaskIndex := ⟨0, Nat.one_pos⟩
  have hrequired (name : String) : name ∉ (Pipeline.hello.taskAt i).required := by
    have hnone : Task.sayHello.required.toList = [] := by cbv
    show name ∉ Task.sayHello.required
    rw [NameSet.mem_def, hnone]
    exact List.not_mem_nil
  have hstarted := started_of_inputs (x := ⟨.hello, Tools.none.withGenerator "Keyless", {}, order⟩)
    (i := i) haccepted hreaches hset fun name hname => absurd hname (hrequired name)
  obtain ⟨trace, cancelled, s, hhistory, htraced, hrecorded⟩ :=
    (only_internal_errors_fatal hx).2 o hreaches
  obtain ⟨trace', cancelled', s', closing, rfl, hquiet, htraced', hidle, rfl⟩ :=
    exists_last hreaches
  obtain ⟨report, hi, hreport⟩ := htraced'.exists_report haccepted hidle hquiet hstarted
  have herror : report.error =
      some { task := some "greet", error := .settings (.reported "no key") } := by
    have hassigned : Executor.assignment ⟨.hello, Tools.none.withGenerator "Keyless", {}, order⟩ s'
        i = ⟨.sayHello, Tools.none.withGenerator "Keyless", ∅, 3⟩ := by
      rw [← assignment_parameters_eq_empty (s := s') hrequired]
      rfl
    rw [htraced'.report_eq_evaluate (fun e he => hobeys e (List.mem_append_left _ he)) hi,
      hassigned]
    cbv
  have hfailed := (hrecorded i _).1.mpr ⟨report, hreport, herror⟩
  obtain ⟨-, -, hlevel | ⟨c, answer, hanswer, hfailure⟩⟩ := (hrecorded i _).2 hfailed
  · cases hlevel
  · refine ⟨_, _, _, report, hx, hreaches, hreport, herror, rfl, c, answer, ?_, hfailure⟩
    rw [hhistory]
    exact List.mem_append_left _ (mem_of_mem_eventsOf hanswer)

end Executor

end PromptPipeline
