import PromptPipeline.Proofs.Execution.Containment

/-!
# What a successful run is

A run calls itself successful if it recorded no error and has a value for each output. Both are
signs only: what counts is that all inputs were given and that every task succeeded. The signs
do not mislead (`isSuccessful_iff_all_succeeded`). A task that failed leaves an error of its own. A
task that was skipped leaves none, but an input that was not given or a task that failed is behind
it. And if a task was cancelled, then the run sees the signal at its end, and leaves an error too.
-/

namespace PromptPipeline

variable {N : Type}

/-- The signal is never taken back: where it was seen set, it is not seen unset later on. -/
def SignalKept (history : List (Event N)) : Prop :=
  history.Pairwise fun e e' => e = .looked true → e' ≠ .looked false

/-- A signal that is not seen set is not taken back. -/
theorem signalKept_of_not_set {history : List (Event N)} (h : .looked true ∉ history) :
    SignalKept history :=
  List.pairwise_iff_forall_sublist.mpr fun hsub heq =>
    absurd (heq ▸ hsub.subset List.mem_cons_self) h

/-- The inputs give a value to every declared input. -/
def Pipeline.Supplied (p : Pipeline) (inputs : Bindings String) : Prop :=
  ∀ q ∈ p.parameters, q.isInput = true → inputs.contains q.name = true

/-- The task is finished, with the status. -/
def RunState.FinishedAs {p : Pipeline} (s : RunState N p) (i : p.TaskIndex)
    (status : TaskStatus) : Prop :=
  ∃ report, s.task i = .finished report ∧ report.status = status

namespace Executor

open RunState

variable [Zero N] [Add N] {x : Executor} {E : Event N → Prop} {inputs : Bindings String}
  {s : RunState N x.pipeline} {i : x.pipeline.TaskIndex} {cancelled : Bool}

/-! ## Errors on record -/

/-- At first the errors are those of the inputs that were not given. -/
theorem initialState_errors_eq_nil_iff (hx : x.Accepted) :
    (x.initialState (N := N) inputs).errors = [] ↔ x.pipeline.Supplied inputs := by
  have hcoherent := initialState_coherent (N := N) x (fun _ => True) inputs
  have hnil : (x.initialState (N := N) inputs).errors = [] ↔
      ∀ q ∈ x.pipeline.inputs,
        (x.initialState (N := N) inputs).resolved.contains q.name = true := by
    unfold initialState
    dsimp only
    rw [List.map_eq_nil_iff, List.filter_eq_nil_iff]
    simp only [Bool.not_eq_true', Bool.not_eq_false]
  rw [hnil]
  constructor
  · intro hall q hq hinput
    have hmem : q ∈ x.pipeline.inputs := List.mem_filter.mpr ⟨hq, hinput⟩
    exact (hcoherent.contains_input_iff hx hq hinput).mp (hall q hmem)
  · intro hsupplied q hmem
    obtain ⟨hq, hinput⟩ := List.mem_filter.mp hmem
    exact (hcoherent.contains_input_iff hx hq hinput).mpr (hsupplied q hq hinput)

/-- A failed task has its error in its report, and no other task has. -/
theorem Coherent.failures_eq_nil_iff (h : x.Coherent E inputs s) :
    s.failures = [] ↔ ∀ i, ¬s.FinishedAs i .failed := by
  unfold failures
  rw [List.filterMap_eq_nil_iff]
  constructor
  · rintro hall i ⟨report, hi, hfailed⟩
    have hnone := hall i (List.mem_finRange i)
    rw [TaskState.report?_eq_some_iff.mpr hi, Option.bind_some] at hnone
    rcases (h.finished_cases hi).2 with ⟨hstatus, -⟩ | ⟨-, record, hrecord⟩ | ⟨hstatus, -⟩
    · rw [hstatus] at hfailed
      cases hfailed
    · rw [hrecord] at hnone
      cases hnone
    · rw [hstatus] at hfailed
      cases hfailed
  · intro hall i _
    cases hi : (s.task i).report? with
    | none => rfl
    | some report =>
      have hstatus : report.status ≠ .failed :=
        fun hfailed => hall i ⟨report, TaskState.report?_eq_some_iff.mp hi, hfailed⟩
      show report.failure? = none
      unfold TaskReport.failure?
      rw [if_neg hstatus]

/-- No error is on record if and only if all inputs were given and no task failed. -/
theorem Coherent.errors_eq_nil_iff (hx : x.Accepted) (h : x.Coherent E inputs s) :
    s.errors = [] ↔ x.pipeline.Supplied inputs ∧ ∀ i, ¬s.FinishedAs i .failed := by
  rw [← initialState_errors_eq_nil_iff (N := N) hx, ← h.failures_eq_nil_iff,
    ← List.append_eq_nil_iff]
  constructor
  · intro herrors
    have hperm := h.errors
    rw [herrors] at hperm
    exact hperm.nil_eq.symm
  · intro herrors
    have hperm := h.errors
    rw [herrors] at hperm
    exact hperm.eq_nil

/-! ## Every task succeeded -/

/-- When all tasks are complete, all inputs were given and no task failed, every task succeeded. -/
theorem Coherent.succeeded_of_complete (hx : x.Accepted)
    (h : x.Coherent (· ≠ .looked true) inputs s) (hcomplete : ∀ i, x.Complete s i)
    (hinputs : x.pipeline.Supplied inputs) (hfailed : ∀ i, ¬s.FinishedAs i .failed)
    (i : x.pipeline.TaskIndex) : s.FinishedAs i .succeeded := by
  -- A task could only wait for another one that waits, and there is no cycle of those.
  have hnot : s.task i ≠ .pending := by
    induction i using hx.wellFormed.graph_acyclic.induction with
    | step i ih =>
      intro hi
      obtain ⟨name, hname, ⟨⟨q, hq, rfl, hinput⟩, hnone⟩ | ⟨j, rfl, hj | hj⟩⟩ :=
        (h.pending_iff hx hcomplete).mp hi
      · obtain ⟨value, hvalue⟩ := Bindings.contains_iff.mp (hinputs q hq hinput)
        rw [hnone] at hvalue
        cases hvalue
      · exact hfailed j hj
      · have hadj : x.pipeline.graph.Adj j i :=
          (Pipeline.adj_graph_iff_feeds hx.wellFormed.results_nodup).mpr hname
        exact ih j hadj hj
  rcases hcomplete i with ⟨report, hi⟩ | ⟨hi, -⟩
  · rcases (h.succeeded_or_failed hi).2 with ⟨hstatus, -⟩ | hstatus
    · exact ⟨report, hi, hstatus⟩
    · exact absurd ⟨report, hi, hstatus⟩ (hfailed i)
  · exact absurd hi hnot

/-- When the signal is set at the end, a task that neither failed nor is reported as cancelled
succeeded. -/
theorem Coherent.succeeded_of_not_cancelled (h : x.Coherent E inputs s) (hidle : s.running = [])
    (hnot : ∀ r ∈ closingReports s true, r.status ≠ .cancelled)
    (hfailed : ∀ i, ¬s.FinishedAs i .failed) (i : x.pipeline.TaskIndex) :
    s.FinishedAs i .succeeded := by
  have hstatus := hnot _ (List.mem_of_getElem? (closingReports_getElem? s true i))
  rcases pending_or_finished_of_idle hidle i with hi | ⟨report, hi⟩
  · rw [closingReport_of_pending hi] at hstatus
    exact absurd rfl hstatus
  · rw [closingReport_of_finished hi] at hstatus
    rcases (h.finished_cases hi).2 with ⟨hsucceeded, -⟩ | ⟨hfails, -⟩ | ⟨hcancelled, -⟩
    · exact ⟨report, hi, hsucceeded⟩
    · exact absurd ⟨report, hi, hfails⟩ (hfailed i)
    · exact absurd hcancelled hstatus

/-- When all inputs were given and every task succeeded, all outputs have values. -/
theorem Coherent.contains_output (hx : x.Accepted) (h : x.Coherent E inputs s)
    (hinputs : x.pipeline.Supplied inputs) (hall : ∀ i, s.FinishedAs i .succeeded) {q : Parameter}
    (hq : q ∈ x.pipeline.parameters) (hout : q.isOutput = true) :
    s.resolved.contains q.name = true := by
  rcases hx.wellFormed.outputs_resolvable q hq hout with hinput | ⟨t, ht, hresult⟩
  · exact (h.contains_input_iff hx hq hinput).mpr (hinputs q hq hinput)
  · obtain ⟨j, rfl⟩ := Pipeline.mem_tasks_iff.mp ht
    obtain ⟨report, hj, hstatus⟩ := hall j
    rw [← hresult, h.result_contains_iff hx]
    obtain ⟨value, hvalue⟩ := h.value_of_succeeded hj hstatus
    exact ⟨report, value, hj, hvalue⟩

/-! ## The verdict -/

/-- The tasks that are reported as succeeded are those that are finished so. -/
theorem Coherent.ended_succeeded_iff (h : x.Coherent E inputs s) (hidle : s.running = [])
    {o : Outcome N} (ho : o.report.tasks = closingReports s cancelled) :
    o.Ended i .succeeded ↔ s.FinishedAs i .succeeded := by
  unfold FinishedAs
  rcases pending_or_finished_of_idle hidle i with hi | ⟨report, hi⟩
  · have htask : (x.closingReport s cancelled i).1.task = x.pipeline.taskAt i := by
      rw [closingReport_of_pending hi]
      rfl
    rw [ended_iff_of_closingReport ho htask, closingReport_of_pending hi, hi]
    cases cancelled <;> simp
  · rw [ended_of_finished ho hi (h.finished_cases hi).1, hi]
    simp [eq_comm]

theorem outcome_outputs_contains_iff {reports : List (TaskReport N)} {q : Parameter}
    (hq : q ∈ x.pipeline.parameters) (hout : q.isOutput = true) :
    (x.outcome s cancelled reports).report.outputs.contains q.name = true ↔
      s.resolved.contains q.name = true := by
  rw [Bindings.contains_iff, Bindings.contains_iff]
  simp only [outcome_outputs_get?_iff]
  exact exists_congr fun value => and_iff_left ⟨q, hq, rfl, hout⟩

/-- The flag says that there is no error, that no task was cancelled by the signal and that all
outputs have values. -/
theorem outcome_isSuccessful_iff {reports : List (TaskReport N)} :
    (x.outcome s cancelled reports).report.isSuccessful = true ↔
      (s.errors = [] ∧ (cancelled = true → ∀ r ∈ reports, r.status ≠ .cancelled)) ∧
        ∀ q ∈ x.pipeline.parameters, q.isOutput = true →
          (x.outcome s cancelled reports).report.outputs.contains q.name = true := by
  have hsuccessful : (x.outcome s cancelled reports).report.isSuccessful = true ↔
      (x.outcome s cancelled reports).report.errors = [] ∧ ∀ q ∈ x.pipeline.outputs,
        (x.outcome s cancelled reports).report.outputs.contains q.name = true := by
    unfold outcome
    simp
  have herrors : (x.outcome s cancelled reports).report.errors = [] ↔
      s.errors = [] ∧ (cancelled = true → ∀ r ∈ reports, r.status ≠ .cancelled) := by
    unfold outcome
    simp
  rw [hsuccessful, herrors]
  simp only [Pipeline.outputs, List.mem_filter, and_imp]

/-- In its last state, a run is successful if and only if all inputs were given and every task is
finished with success. If the signal is not set at the end, then it was not set before. -/
theorem Traced.isSuccessful_iff (hx : x.Accepted) {trace : Trace N x.pipeline}
    (h : x.Traced inputs trace s) (hidle : s.running = [])
    (hset : cancelled = false → .looked true ∉ trace.map (·.2)) :
    (x.outcome s cancelled (closingReports s cancelled)).report.isSuccessful = true ↔
      x.pipeline.Supplied inputs ∧ ∀ i, s.FinishedAs i .succeeded := by
  have hcoherent := h.reached.coherent (E := fun _ => True) fun _ _ => trivial
  rw [outcome_isSuccessful_iff, hcoherent.errors_eq_nil_iff hx]
  constructor
  · rintro ⟨⟨⟨hinputs, hfailed⟩, hquiet⟩, -⟩
    refine ⟨hinputs, ?_⟩
    cases cancelled with
    | true => exact hcoherent.succeeded_of_not_cancelled hidle (hquiet rfl) hfailed
    | false =>
      have hcoherent := h.reached.coherent (E := (· ≠ .looked true))
        fun e he heq => hset rfl (heq ▸ he)
      exact hcoherent.succeeded_of_complete hx (complete_of_idle hx h.reached (hset rfl) hidle)
        hinputs hfailed
  · rintro ⟨hinputs, hall⟩
    refine ⟨⟨⟨hinputs, fun i => ?_⟩, fun _ r hr => ?_⟩, fun q hq hout => ?_⟩
    · rintro ⟨report, hi, hfailed⟩
      obtain ⟨report', hi', hsucceeded⟩ := hall i
      rw [hi'] at hi
      cases hi
      rw [hsucceeded] at hfailed
      cases hfailed
    · obtain ⟨i, -, rfl⟩ := List.mem_map.mp hr
      obtain ⟨report, hi, hsucceeded⟩ := hall i
      rw [closingReport_of_finished hi, hsucceeded]
      exact fun heq => nomatch heq
    · exact (outcome_outputs_contains_iff hq hout).mpr
        (hcoherent.contains_output hx hinputs hall hq hout)

/-- **A run is successful if and only if all inputs were given and every task succeeded**, whatever
the schedule, the tools and the moment at which the signal is set; and then all outputs have
values. -/
theorem isSuccessful_iff_all_succeeded {p : Pipeline} {tools : Tools}
    {settings : ExecutionSettings} {x : Executor} (hx : ofPipeline p tools settings = .ok x)
    {schedule : Schedule} {inputs : Bindings String} {history : List (Event N)} {o : Outcome N}
    (hrun : (x.execute schedule inputs).Reaches history (.done (.ok o)))
    (hkept : SignalKept history) :
    (o.report.isSuccessful = true ↔
      p.Supplied inputs ∧ ∀ i : p.TaskIndex, o.Ended i .succeeded) ∧
    (o.report.isSuccessful = true → ∀ q ∈ p.parameters, q.isOutput = true →
      o.report.outputs.contains q.name = true) := by
  obtain ⟨order, rfl, hx⟩ := accepted_of_ofPipeline hx
  obtain ⟨trace, cancelled, s, closing, rfl, -, htraced, hidle, rfl⟩ := exists_last hrun
  have hcoherent := htraced.reached.coherent (E := fun _ => True) fun _ _ => trivial
  have hended (i : p.TaskIndex) : (Executor.outcome ⟨p, tools, settings, order⟩ s cancelled
      (closingReports s cancelled)).Ended i .succeeded ↔ s.FinishedAs i .succeeded :=
    hcoherent.ended_succeeded_iff hidle rfl
  refine ⟨?_, fun hsuccessful => (outcome_isSuccessful_iff.mp hsuccessful).2⟩
  simp only [hended]
  -- The signal is not set at the end, so that it was not set before.
  refine htraced.isSuccessful_iff hx hidle fun hfalse hmem => ?_
  subst hfalse
  exact (List.pairwise_append.mp hkept).2.2 _ hmem _ List.mem_cons_self rfl rfl

/-- Without a city, the run of the small pipeline is not successful. -/
theorem greetings_not_successful :
    ∃ (x : Executor) (history : List (Event Nat)) (o : Outcome Nat),
      ofPipeline .greetings .none {} = .ok x ∧
      (x.execute .firstTask (.ofList [("name", "Ada")])).Reaches history (.done (.ok o)) ∧
      SignalKept history ∧ o.report.isSuccessful = false := by
  obtain ⟨x, hx⟩ : ∃ x, ofPipeline .greetings .none {} = .ok x := ⟨_, by cbv⟩
  obtain ⟨history, o, hreaches, hobeys⟩ := exists_refused (N := Nat) hx Pipeline.greetings_closed
    .firstTask (.ofList [("name", "Ada")])
  have hkept : SignalKept history := by
    refine List.pairwise_iff_forall_sublist.mpr fun {e e'} hsub heq => ?_
    have hmem : e ∈ history := hsub.subset List.mem_cons_self
    exact absurd (heq ▸ hmem) (looked_true_notMem hobeys)
  refine ⟨x, history, o, hx, hreaches, hkept, Bool.eq_false_iff.mpr fun hsuccessful => ?_⟩
  obtain ⟨hsupplied, -⟩ := (isSuccessful_iff_all_succeeded hx hreaches hkept).1.mp hsuccessful
  have hcity := hsupplied { name := "city", isInput := true } (by simp [Pipeline.greetings]) rfl
  exact absurd hcity (by decide)

end Executor

end PromptPipeline
