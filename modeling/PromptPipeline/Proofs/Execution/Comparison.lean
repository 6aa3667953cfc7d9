import PromptPipeline.Proofs.Execution.Success
import PromptPipeline.Proofs.Execution.Trace

/-!
# Two runs of a pipeline

Two runs of the same pipeline on the same inputs, with different tools. If the tasks of the first
run all succeed, and the work on each task comes to the same in the second run whenever it is given
the same values, then the second run succeeds as well (`exists_outcome_of_alike`).

As for runs with the same tools, no steps are compared: by induction along the task graph, whatever
work is done in the second run is given the values that it is given in the first one
(`Traced.ending_eq`).
-/

namespace PromptPipeline.Executor

open RunState

variable {N : Type} [Zero N] [Add N]

/-- The executor with other tools, which may take up the tasks in another order. -/
abbrev retooled (x : Executor) (tools : Tools) (order : List x.pipeline.TaskIndex) : Executor :=
  { x with tools, order }

variable {x : Executor} {tools : Tools} {order : List x.pipeline.TaskIndex}
  {inputs : Bindings String} {s s' : RunState N x.pipeline} {i : x.pipeline.TaskIndex}
  {trace trace' : Trace N x.pipeline}

/-- The state gives the task the same values as the other one. -/
def SameValues (x : Executor) (s s' : RunState N x.pipeline) (i : x.pipeline.TaskIndex) : Prop :=
  ∀ name ∈ (x.pipeline.taskAt i).required, s.resolved.get? name = s'.resolved.get? name

omit [Zero N] [Add N] in
theorem SameValues.symm (h : x.SameValues s s' i) : x.SameValues s' s i :=
  fun name hname => (h name hname).symm

omit [Zero N] [Add N] in
/-- With the same values, the assignments differ in the tools only. -/
theorem SameValues.assignment_eq (h : x.SameValues s s' i) :
    (x.retooled tools order).assignment s' i = { x.assignment s i with tools } := by
  rw [assignment_congr h]
  rfl

/-- The task is finished with the work that the trace tells of. -/
structure Finished (x : Executor) (trace : Trace N x.pipeline) (s : RunState N x.pipeline)
    (i : x.pipeline.TaskIndex) (run : TaskRun N) : Prop where
  worked : x.Worked s i (eventsOf trace i) (.done run)
  task : s.task i = .finished (run.settled (x.pipeline.taskAt i))

theorem Traced.exists_finished (h : x.Traced inputs trace s) {status : TaskStatus}
    (hi : s.FinishedAs i status) :
    ∃ run, x.Finished trace s i run ∧ (run.settled (x.pipeline.taskAt i)).status = status := by
  obtain ⟨report, hi, hstatus⟩ := hi
  obtain ⟨run, hworked, rfl, -⟩ := h.exists_run hi
  exact ⟨run, ⟨hworked, hi⟩, hstatus⟩

/-- In the second run, what is done on the same values ends like what is finished in the first
one. -/
def Alike (x : Executor) (tools : Tools) (order : List x.pipeline.TaskIndex)
    (trace : Trace N x.pipeline) (s : RunState N x.pipeline) (trace' : Trace N x.pipeline)
    (s' : RunState N x.pipeline) : Prop :=
  ∀ i run run', x.Finished trace s i run → x.SameValues s s' i →
    (x.retooled tools order).Worked s' i (eventsOf trace' i) (.done run') →
    run'.ending = run.ending

/-- **Whatever work is done in the second run** is given the values of the first run and ends like
the work that was done there. -/
theorem Traced.ending_eq (hx : x.Accepted) (h : x.Traced inputs trace s)
    (hall : ∀ i, ∃ run, x.Finished trace s i run)
    (h' : (x.retooled tools order).Traced inputs trace' s')
    (halike : x.Alike tools order trace s trace' s') {run' : TaskRun N}
    (hworked : (x.retooled tools order).Worked s' i (eventsOf trace' i) (.done run')) :
    x.SameValues s s' i ∧ ∃ run, x.Finished trace s i run ∧ run'.ending = run.ending := by
  have hcoherent := h.reached.coherent (E := fun _ => True) fun _ _ => trivial
  have hcoherent' := h'.reached.coherent (E := fun _ => True) fun _ _ => trivial
  induction i using hx.wellFormed.graph_acyclic.induction generalizing run' with
  | step i ih =>
    have hsame : x.SameValues s s' i := by
      intro name hname
      obtain ⟨value, hvalue⟩ := Bindings.contains_iff.mp (hworked.supplied name hname)
      rw [hvalue, hcoherent.resolved]
      rcases (hcoherent'.resolved name value).mp hvalue with
        hinput | ⟨j, report', hj, rfl, hreport'⟩
      · exact .inl hinput
      · -- The value is that of a task which feeds this one, and that task ended alike.
        obtain ⟨run₂, hworked₂, rfl, -⟩ := h'.exists_run hj
        have hadj : x.pipeline.graph.Adj j i :=
          (Pipeline.adj_graph_iff_feeds hx.wellFormed.results_nodup).mpr hname
        obtain ⟨-, run₁, hfinished, hending⟩ := ih j hadj hworked₂
        refine .inr ⟨j, _, hfinished.task, rfl, ?_⟩
        rw [TaskRun.settled_value?_eq_some_iff] at hreport' ⊢
        rw [← hending, hreport']
    obtain ⟨run, hfinished⟩ := hall i
    exact ⟨hsame, run, hfinished, halike i run run' hfinished hsame hworked⟩

/-- The work on a task that is finished with success ended with a value. -/
theorem Finished.exists_value {run : TaskRun N} (h : x.Finished trace s i run)
    (hi : s.FinishedAs i .succeeded) : ∃ value, run.ending = .succeeded value := by
  obtain ⟨report, hreport, hstatus⟩ := hi
  have htask := h.task
  rw [hreport] at htask
  cases htask
  obtain ⟨value, hvalue⟩ := TaskRun.settled_value?_of_succeeded hstatus
  exact ⟨value, TaskRun.settled_value?_eq_some_iff.mp hvalue⟩

/-- **If all tasks of the first run succeed and the second run goes alike**, then it returns an
outcome, and all of its tasks succeed. -/
theorem exists_outcome_of_alike (hx : x.Accepted) (hx' : (x.retooled tools order).Accepted)
    (h : x.Traced inputs trace s) (hinputs : x.pipeline.Supplied inputs)
    (hall : ∀ i, s.FinishedAs i .succeeded) {schedule : Schedule} {history : List (Event N)}
    {r : Result (Outcome N)}
    (hrun : ((x.retooled tools order).execute schedule inputs).Reaches history (.done r))
    (hset : .looked true ∉ history)
    (halike : ∀ trace' s' rest, history = trace'.map (·.2) ++ rest →
      (x.retooled tools order).Traced inputs trace' s' → x.Alike tools order trace s trace' s') :
    ∃ trace' s' rest, history = trace'.map (·.2) ++ rest ∧
      (x.retooled tools order).Traced inputs trace' s' ∧ s'.running = [] ∧
      r = .ok ((x.retooled tools order).outcome s' false
        (closingReports (x := x.retooled tools order) s' false)) ∧
      ∀ i, s'.FinishedAs i .succeeded := by
  obtain ⟨trace', rest, s', rfl, htraced, hends⟩ := exists_traced hrun
  have hset' : .looked true ∉ trace'.map (·.2) := fun hmem => hset (List.mem_append_left _ hmem)
  have hcoherent := htraced.reached.coherent (E := (· ≠ .looked true)) fun e he heq =>
    hset' (heq ▸ he)
  have hfinished (i : x.pipeline.TaskIndex) : ∃ run, x.Finished trace s i run := by
    obtain ⟨run, hrun, -⟩ := h.exists_finished (hall i)
    exact ⟨run, hrun⟩
  have hvalue {i : x.pipeline.TaskIndex} {run : TaskRun N}
      (hworked : (x.retooled tools order).Worked s' i (eventsOf trace' i) (.done run)) :
      ∃ value, run.ending = .succeeded value := by
    obtain ⟨-, run₁, hrun₁, hending⟩ :=
      h.ending_eq hx hfinished htraced (halike trace' s' rest rfl htraced) hworked
    rw [hending]
    exact hrun₁.exists_value (hall i)
  cases hends with
  | @fail i run _ hi hjoin =>
    have hlogged := htraced.logged i
    rw [hi] at hlogged
    rcases join_eq_error hjoin with ⟨fault, hfault, -⟩ | hbound
    · obtain ⟨value, hending⟩ := hvalue hlogged.worked
      rw [hfault] at hending
      cases hending
    · have hunbound := hcoherent.result_not_contains hx' (i := i) (by rw [hi]; rfl)
      rw [hbound] at hunbound
      cases hunbound
  | close hidle hclose =>
    obtain ⟨cancelled, rfl, rfl⟩ := reaches_close hclose
    cases cancelled with
    | true => exact absurd (List.mem_append_right _ List.mem_cons_self) hset
    | false =>
      refine ⟨trace', s', _, rfl, htraced, hidle, rfl, ?_⟩
      refine hcoherent.succeeded_of_complete hx' (complete_of_idle hx' htraced.reached hset' hidle)
        hinputs fun i hfailed => ?_
      obtain ⟨run, hrun, hstatus⟩ := htraced.exists_finished hfailed
      obtain ⟨value, hending⟩ := hvalue hrun.worked
      rw [TaskReport.status_of_value? (TaskRun.settled_value?_eq_some_iff.mpr hending)] at hstatus
      cases hstatus

end PromptPipeline.Executor
