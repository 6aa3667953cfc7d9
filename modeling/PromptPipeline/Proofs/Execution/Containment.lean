import PromptPipeline.Proofs.Execution.Outcome

/-!
# Failures stay where they belong

In a run that is not cancelled, a task that cannot get all of its parameters is skipped and every
other task is started exactly once, whatever the schedule and the bound on parallel tasks. So a
missing input or a failed task silences the tasks downstream of it, and no other task.
-/

namespace PromptPipeline

open Relation

/-- The name is that of a declared input, and the inputs do not give it a value. -/
def Pipeline.Lacks (p : Pipeline) (inputs : Bindings String) (name : String) : Prop :=
  (∃ q ∈ p.parameters, q.name = name ∧ q.isInput = true) ∧ inputs.get? name = none

/-- The report of the task at the index has the status. -/
def Outcome.Ended {N : Type} {p : Pipeline} (o : Outcome N) (i : p.TaskIndex)
    (status : TaskStatus) : Prop :=
  ∃ report, o.report.tasks[i.val]? = some report ∧ report.task = p.taskAt i ∧
    report.status = status

namespace Pipeline

variable {p : Pipeline}

/-- If skipping spreads along the arcs of the graph only, from tasks that lack something and from
failed tasks, then the skipped tasks are those downstream of either. -/
theorem skipped_iff_downstream {Lacking Failed Skipped : p.TaskIndex → Prop}
    (hacyclic : p.graph.Acyclic) (hfeeds : p.graph.Adj = p.Feeds)
    (hlocal : ∀ i, Skipped i ↔ Lacking i ∨ ∃ j, p.Feeds j i ∧ (Failed j ∨ Skipped j))
    (i : p.TaskIndex) :
    Skipped i ↔
      ∃ j, (ReflTransGen p.Feeds j i ∧ Lacking j) ∨ (TransGen p.Feeds j i ∧ Failed j) := by
  constructor
  · -- A skipped task is traced back, and since there is no cycle the trace ends.
    induction i using hacyclic.induction with
    | step i ih =>
      intro hi
      rcases (hlocal i).mp hi with hlacking | ⟨j, hji, hfailed | hskipped⟩
      · exact ⟨i, .inl ⟨.refl, hlacking⟩⟩
      · exact ⟨j, .inr ⟨.single hji, hfailed⟩⟩
      · obtain ⟨k, ⟨hkj, hk⟩ | ⟨hkj, hk⟩⟩ := ih j (hfeeds ▸ hji) hskipped
        · exact ⟨k, .inl ⟨hkj.tail hji, hk⟩⟩
        · exact ⟨k, .inr ⟨hkj.tail hji, hk⟩⟩
  · have hspread {j k : p.TaskIndex} (hj : Skipped j) (hjk : ReflTransGen p.Feeds j k) :
        Skipped k := by
      induction hjk with
      | refl => exact hj
      | tail _ hstep ih => exact (hlocal _).mpr (.inr ⟨_, hstep, .inr ih⟩)
    rintro ⟨j, ⟨hji, hj⟩ | ⟨hji, hj⟩⟩
    · exact hspread ((hlocal j).mpr (.inl hj)) hji
    · obtain ⟨k, hjk, hki⟩ := TransGen.head'_iff.mp hji
      exact hspread ((hlocal k).mpr (.inr ⟨j, hjk, .inl hj⟩)) hki

end Pipeline

namespace Executor

open RunState

variable {N : Type} [Zero N] [Add N] {x : Executor} {E : Event N → Prop} {inputs : Bindings String}
  {s : RunState N x.pipeline} {i j : x.pipeline.TaskIndex} {history : List (Event N)}

/-- A task that is finished in a run that was not cancelled succeeded with a value, or failed. -/
theorem Coherent.succeeded_or_failed (h : x.Coherent (· ≠ .looked true) inputs s)
    {report : TaskReport N} (hi : s.task i = .finished report) :
    report.task = x.pipeline.taskAt i ∧
      ((report.status = .succeeded ∧ ∃ value, report.value? = some value) ∨
        report.status = .failed) := by
  obtain ⟨htask, hsucceeded | ⟨hfailed, -⟩ | ⟨-, hset⟩⟩ := h.finished_cases hi
  · exact ⟨htask, .inl hsucceeded⟩
  · exact ⟨htask, .inr hfailed⟩
  · exact absurd rfl hset

/-- A parameter is an input, or the result of a task, but never both. -/
theorem Accepted.input_ne_result (hx : x.Accepted) {q : Parameter}
    (hq : q ∈ x.pipeline.parameters) (hinput : q.isInput = true) :
    (x.pipeline.taskAt i).result ≠ q.name := by
  intro heq
  have hlookup : x.pipeline.parameter? (x.pipeline.taskAt i).result = some q :=
    (Pipeline.parameter?_eq_some_iff hx.wellFormed.parameters_nodup).mpr ⟨hq, heq.symm⟩
  rw [hx.wellFormed.result_not_input hlookup] at hinput
  cases hinput

/-- An input has a value if and only if it was given one. -/
theorem Coherent.lacks_iff (hx : x.Accepted) (h : x.Coherent E inputs s) {q : Parameter}
    (hq : q ∈ x.pipeline.parameters) (hinput : q.isInput = true) :
    s.resolved.contains q.name = false ↔ inputs.get? q.name = none := by
  have hlookup : x.pipeline.parameter? q.name = some q :=
    (Pipeline.parameter?_eq_some_iff hx.wellFormed.parameters_nodup).mpr ⟨hq, rfl⟩
  rw [Bindings.not_contains_iff, Option.eq_none_iff_forall_ne_some,
    Option.eq_none_iff_forall_ne_some]
  refine forall_congr' fun value => not_congr ?_
  rw [h.resolved, declaredInputs_get?_eq_some_iff]
  constructor
  · rintro (⟨hvalue, -⟩ | ⟨k, -, -, hresult, -⟩)
    · exact hvalue
    · exact absurd hresult (hx.input_ne_result hq hinput)
  · exact fun hvalue => .inl ⟨hvalue, q, hlookup, hinput⟩

theorem Coherent.contains_input_iff (hx : x.Accepted) (h : x.Coherent E inputs s) {q : Parameter}
    (hq : q ∈ x.pipeline.parameters) (hinput : q.isInput = true) :
    s.resolved.contains q.name = true ↔ inputs.contains q.name = true := by
  have hlacks := h.lacks_iff hx hq hinput
  rw [← Bindings.not_contains_iff] at hlacks
  rw [← Bool.not_eq_false, ← Bool.not_eq_false, hlacks]

/-- The result of a task has a value if and only if the task succeeded. -/
theorem Coherent.result_contains_iff (hx : x.Accepted) (h : x.Coherent E inputs s) :
    s.resolved.contains (x.pipeline.taskAt i).result = true ↔
      ∃ report value, s.task i = .finished report ∧ report.value? = some value := by
  rw [Bindings.contains_iff]
  simp only [h.resolved, declaredInputs_get?_eq_some_iff]
  constructor
  · rintro ⟨value, ⟨-, q, hq, hinput⟩ | ⟨k, report, hk, hresult, hvalue⟩⟩
    · rw [hx.wellFormed.result_not_input hq] at hinput
      cases hinput
    · obtain rfl := hx.wellFormed.result_injective hresult
      exact ⟨report, value, hk, hvalue⟩
  · rintro ⟨report, value, hi, hvalue⟩
    exact ⟨value, .inr ⟨i, report, hi, rfl, hvalue⟩⟩

/-- When all tasks are complete, a required parameter without a value is an input that was not given
or the result of a task that did not produce it. -/
theorem Coherent.unbound_iff (hx : x.Accepted) (h : x.Coherent (· ≠ .looked true) inputs s)
    (hcomplete : ∀ i, x.Complete s i) {name : String}
    (hname : name ∈ (x.pipeline.taskAt i).required) :
    s.resolved.contains name = false ↔ x.pipeline.Lacks inputs name ∨
      ∃ j, (x.pipeline.taskAt j).result = name ∧
        ((∃ report, s.task j = .finished report ∧ report.status = .failed) ∨
          s.task j = .pending) := by
  -- A required name belongs to an input or to the result of a task, and never to both.
  rcases hx.wellFormed.required_cases hname with ⟨q, hq, rfl, hinput⟩ | ⟨j, rfl⟩
  · rw [h.lacks_iff hx hq hinput]
    constructor
    · exact fun hnone => .inl ⟨⟨q, hq, rfl, hinput⟩, hnone⟩
    · rintro (⟨-, hnone⟩ | ⟨j, hresult, -⟩)
      · exact hnone
      · exact absurd hresult (hx.input_ne_result hq hinput)
  · constructor
    · intro hunbound
      refine .inr ⟨j, rfl, ?_⟩
      rcases hcomplete j with ⟨report, hj⟩ | ⟨hj, -⟩
      · rcases (h.succeeded_or_failed hj).2 with ⟨-, value, hvalue⟩ | hfailed
        · rw [(h.result_contains_iff hx).mpr ⟨report, value, hj, hvalue⟩] at hunbound
          cases hunbound
        · exact .inl ⟨report, hj, hfailed⟩
      · exact .inr hj
    · rintro (⟨⟨q, hq, heq, hinput⟩, -⟩ | ⟨k, hk, hwhy⟩)
      · exact absurd heq.symm (hx.input_ne_result hq hinput)
      · obtain rfl := hx.wellFormed.result_injective hk
        rw [Bool.eq_false_iff, ne_eq, h.result_contains_iff hx]
        rintro ⟨report, value, hfinished, hvalue⟩
        have hsucceeded := TaskReport.status_of_value? hvalue
        rcases hwhy with ⟨report', hfinished', hfailed⟩ | hpending
        · rw [hfinished] at hfinished'
          cases hfinished'
          rw [hsucceeded] at hfailed
          cases hfailed
        · rw [hfinished] at hpending
          cases hpending

/-- When all tasks are complete, those that wait are the ones that lack an input or require what a
task did not produce. -/
theorem Coherent.pending_iff (hx : x.Accepted) (h : x.Coherent (· ≠ .looked true) inputs s)
    (hcomplete : ∀ i, x.Complete s i) :
    s.task i = .pending ↔ ∃ name ∈ (x.pipeline.taskAt i).required,
      x.pipeline.Lacks inputs name ∨ ∃ j, (x.pipeline.taskAt j).result = name ∧
        ((∃ report, s.task j = .finished report ∧ report.status = .failed) ∨
          s.task j = .pending) := by
  constructor
  · intro hi
    -- If there were no reason to wait, then the task would be ready.
    by_contra hno
    have hready : x.isReady s i = true := by
      refine isReady_iff.mpr ⟨hi, fun name hname => ?_⟩
      rw [← Bool.not_eq_false, h.unbound_iff hx hcomplete hname]
      exact fun hwhy => hno ⟨name, hname, hwhy⟩
    rcases hcomplete i with ⟨report, hfinished⟩ | ⟨-, hnot⟩
    · rw [hfinished] at hi
      cases hi
    · rw [hnot] at hready
      cases hready
  · rintro ⟨name, hname, hwhy⟩
    rcases hcomplete i with ⟨report, hi⟩ | ⟨hi, -⟩
    · obtain ⟨run, hrun, -⟩ := h.finished i report hi
      have hbound := hrun.supplied name hname
      rw [(h.unbound_iff hx hcomplete hname).mpr hwhy] at hbound
      cases hbound
    · exact hi

/-! ## Reports -/

omit [Add N] in
/-- A task ends as its closing report says. -/
theorem ended_iff_of_closingReport {o : Outcome N} {cancelled : Bool}
    (ho : o.report.tasks = closingReports s cancelled)
    (htask : (x.closingReport s cancelled i).1.task = x.pipeline.taskAt i) {status : TaskStatus} :
    o.Ended i status ↔ status = (x.closingReport s cancelled i).1.status := by
  unfold Outcome.Ended
  rw [ho, closingReports_getElem?]
  constructor
  · rintro ⟨report, heq, -, rfl⟩
    cases heq
    rfl
  · rintro rfl
    exact ⟨_, rfl, htask, rfl⟩

omit [Add N] in
/-- A task that waits is skipped at the end of the run. -/
theorem ended_of_pending {o : Outcome N} (ho : o.report.tasks = closingReports s false)
    (hi : s.task i = .pending) {status : TaskStatus} :
    o.Ended i status ↔ status = .skipped := by
  have htask : (x.closingReport s false i).1.task = x.pipeline.taskAt i := by
    rw [closingReport_of_pending hi]
    rfl
  rw [ended_iff_of_closingReport ho htask, closingReport_of_pending hi]
  rfl

omit [Add N] in
theorem ended_of_finished {o : Outcome N} {cancelled : Bool}
    (ho : o.report.tasks = closingReports s cancelled) {report : TaskReport N}
    (hi : s.task i = .finished report) (htask : report.task = x.pipeline.taskAt i)
    {status : TaskStatus} : o.Ended i status ↔ status = report.status := by
  have hclosing : (x.closingReport s cancelled i).1 = report := by
    rw [closingReport_of_finished hi]
  rw [ended_iff_of_closingReport ho (by rw [hclosing, htask]), hclosing]

/-- The skipped tasks are those that wait in the last state. -/
theorem Coherent.ended_skipped_iff (h : x.Coherent (· ≠ .looked true) inputs s)
    (hi : x.Complete s i) {o : Outcome N} (ho : o.report.tasks = closingReports s false) :
    o.Ended i .skipped ↔ s.task i = .pending := by
  rcases hi with ⟨report, hi⟩ | ⟨hi, -⟩
  · obtain ⟨htask, hstatus⟩ := h.succeeded_or_failed hi
    rw [ended_of_finished ho hi htask, hi]
    rcases hstatus with ⟨hstatus, -⟩ | hstatus <;> simp [hstatus]
  · rw [ended_of_pending ho hi]
    simp [hi]

theorem Coherent.ended_failed_iff (h : x.Coherent (· ≠ .looked true) inputs s)
    (hi : x.Complete s i) {o : Outcome N} (ho : o.report.tasks = closingReports s false) :
    o.Ended i .failed ↔ ∃ report, s.task i = .finished report ∧ report.status = .failed := by
  rcases hi with ⟨report, hi⟩ | ⟨hi, -⟩
  · obtain ⟨htask, -⟩ := h.succeeded_or_failed hi
    rw [ended_of_finished ho hi htask, hi]
    simp [eq_comm]
  · rw [ended_of_pending ho hi]
    simp [hi]

/-- A task that is finished in a run that was not cancelled ended as succeeded or failed. -/
theorem Coherent.ended_of_finished_cases (h : x.Coherent (· ≠ .looked true) inputs s)
    {o : Outcome N} (ho : o.report.tasks = closingReports s false) {report : TaskReport N}
    (hi : s.task i = .finished report) : o.Ended i .succeeded ∨ o.Ended i .failed := by
  obtain ⟨htask, hstatus⟩ := h.succeeded_or_failed hi
  rw [ended_of_finished ho hi htask, ended_of_finished ho hi htask]
  rcases hstatus with ⟨hstatus, -⟩ | hstatus
  · exact .inl hstatus.symm
  · exact .inr hstatus.symm

/-- **Failures are contained exactly.** In a run that was not cancelled and returned an outcome,
each task was skipped without being started, or was started once and then succeeded or failed. The
skipped tasks are those that require an input that was not given, or the result of a task that
failed or was skipped; that is, those downstream of a missing input or of a failed task. -/
theorem failures_contained {p : Pipeline} {tools : Tools} {settings : ExecutionSettings}
    {x : Executor} (hx : ofPipeline p tools settings = .ok x) {schedule : Schedule}
    {inputs : Bindings String} {history : List (Event N)} {o : Outcome N}
    (hrun : (x.execute schedule inputs).Reaches history (.done (.ok o)))
    (hset : .looked true ∉ history) (i : p.TaskIndex) :
    (o.Ended i .skipped ∧ history.countP (Event.starts (p.taskAt i)) = 0 ∨
      (o.Ended i .succeeded ∨ o.Ended i .failed) ∧
        history.countP (Event.starts (p.taskAt i)) = 1) ∧
    (o.Ended i .skipped ↔ ∃ name ∈ (p.taskAt i).required, p.Lacks inputs name ∨
      ∃ j, (p.taskAt j).result = name ∧ (o.Ended j .failed ∨ o.Ended j .skipped)) ∧
    (o.Ended i .skipped ↔ ∃ j,
      (ReflTransGen p.Feeds j i ∧ ∃ name ∈ (p.taskAt j).required, p.Lacks inputs name) ∨
        (TransGen p.Feeds j i ∧ o.Ended j .failed)) := by
  obtain ⟨order, rfl, hx⟩ := accepted_of_ofPipeline hx
  obtain ⟨past, s, hreached, hsub, hcomplete, ho, hcount⟩ := exists_complete hx hrun hset
  have htasks : o.report.tasks = closingReports s false := by
    rw [ho]
    rfl
  have hcoherent := hreached.coherent (E := (· ≠ .looked true))
    fun e he heq => hset (hsub _ (heq ▸ he))
  have hlocal (i : p.TaskIndex) : o.Ended i .skipped ↔
      ∃ name ∈ (p.taskAt i).required, p.Lacks inputs name ∨
        ∃ j, (p.taskAt j).result = name ∧ (o.Ended j .failed ∨ o.Ended j .skipped) := by
    refine (hcoherent.ended_skipped_iff (hcomplete i) htasks).trans ?_
    rw [hcoherent.pending_iff hx hcomplete]
    refine exists_congr fun name => and_congr_right fun _ => or_congr_right ?_
    refine exists_congr fun j => and_congr_right fun _ => ?_
    exact or_congr (hcoherent.ended_failed_iff (hcomplete j) htasks).symm
      (hcoherent.ended_skipped_iff (hcomplete j) htasks).symm
  refine ⟨?_, hlocal i, ?_⟩
  · rw [hcount i, starts]
    rcases hcomplete i with ⟨report, hi⟩ | ⟨hi, -⟩
    · exact .inr ⟨hcoherent.ended_of_finished_cases htasks hi, by rw [hi]; rfl⟩
    · exact .inl ⟨(hcoherent.ended_skipped_iff (hcomplete i) htasks).mpr hi, by rw [hi]; rfl⟩
  · refine Pipeline.skipped_iff_downstream hx.wellFormed.graph_acyclic
      (Pipeline.adj_graph_eq_feeds hx.wellFormed.results_nodup) (fun i => (hlocal i).trans ?_) i
    constructor
    · rintro ⟨name, hname, hlacks | ⟨j, rfl, hj⟩⟩
      · exact .inl ⟨name, hname, hlacks⟩
      · exact .inr ⟨j, hname, hj⟩
    · rintro (⟨name, hname, hlacks⟩ | ⟨j, hji, hj⟩)
      · exact ⟨name, hname, .inl hlacks⟩
      · exact ⟨_, hji, .inr ⟨j, rfl, hj⟩⟩

/-- Without a city, the small pipeline skips the farewell and never starts it. -/
theorem greetings_failures_contained :
    ∃ (x : Executor) (history : List (Event Nat)) (o : Outcome Nat),
      ofPipeline .greetings .none {} = .ok x ∧
      (x.execute .firstTask (.ofList [("name", "Ada")])).Reaches history (.done (.ok o)) ∧
      .looked true ∉ history ∧ ∃ i : Pipeline.greetings.TaskIndex,
        (Pipeline.greetings.taskAt i).name = "part" ∧ o.Ended i .skipped := by
  obtain ⟨x, hx⟩ : ∃ x, ofPipeline .greetings .none {} = .ok x := ⟨_, by cbv⟩
  obtain ⟨history, hreaches, hobeys⟩ := Activity.exists_reaches_evaluate (N := Nat) Call.refuse
    (x.execute .firstTask (.ofList [("name", "Ada")]))
  obtain ⟨order, rfl, haccepted⟩ := accepted_of_ofPipeline hx
  obtain ⟨o, ho⟩ := exists_outcome haccepted
    (fun i => Pipeline.greetings_closed _ (Pipeline.taskAt_mem i)) hreaches
    fun e he => (hobeys e he).kept Call.kept_refuse
  rw [ho] at hreaches
  have hset := looked_true_notMem hobeys
  have hlacks : Pipeline.greetings.Lacks (.ofList [("name", "Ada")]) "city" :=
    ⟨⟨{ name := "city", isInput := true }, by simp [Pipeline.greetings], rfl, rfl⟩, by decide⟩
  obtain ⟨-, hskipped, -⟩ := failures_contained hx hreaches hset ⟨1, by decide⟩
  exact ⟨_, history, o, hx, hreaches, hset, ⟨1, by decide⟩, rfl,
    hskipped.mpr ⟨"city", by decide, .inl hlacks⟩⟩

end Executor

end PromptPipeline
