import PromptPipeline.Proofs.Execution.Attempts
import PromptPipeline.Proofs.Execution.Success

/-!
# Cancellation

The signal is looked at in four places: before a scan for ready tasks, before and after each attempt,
and at the end of the run. It may become set between any two events, and a moment at which it does is
a cut of the trace before which no look sees it set and after which every look does.
`cancellation_is_safe` says what follows for each task, by what had happened to it up to the moment.

The work on a task that adopts no joker ends with a look, and this is the only one that can see the
signal set (`Assignment.work_last_look`). So either the work was done before the moment, or it goes
on after it, and then it ends with a look that sees the signal set and its result is discarded.
-/

namespace PromptPipeline

variable {N : Type}

/-- The event announces that a task is about to start. -/
def Event.IsStart (e : Event N) : Prop :=
  ∃ progress, e = .notified progress ∧ progress.status = .ready

/-- An activity that is done does not go on. -/
theorem Activity.Reaches.eq_of_done {α : Type} {a : Activity N α} {u v : List (Event N)} {r r' : α}
    (h : a.Reaches u (.done r)) (h' : a.Reaches (u ++ v) (.done r')) : v = [] ∧ r = r' := by
  generalize hend : Activity.done r = rest at h
  induction h with
  | refl =>
    subst hend
    obtain ⟨hnil, heq⟩ := Activity.reaches_done_iff.mp h'
    cases heq
    exact ⟨hnil, rfl⟩
  | looked _ ih =>
    cases h' with
    | looked h' => exact ih h' hend
  | notified _ ih =>
    cases h' with
    | notified h' => exact ih h' hend
  | answered _ ih =>
    cases h' with
    | answered h' => exact ih h' hend

/-- An item of two lists in a row is one of the first list, or one of the second. -/
theorem append_eq_append_cons {α : Type} {l₁ l₂ u v : List α} {e : α}
    (h : l₁ ++ l₂ = u ++ e :: v) :
    (∃ w, l₁ = u ++ e :: w ∧ v = w ++ l₂) ∨ ∃ w, u = l₁ ++ w ∧ l₂ = w ++ e :: v := by
  rcases List.append_eq_append_iff.mp h with ⟨w, hu, hl⟩ | ⟨w, hl, hv⟩
  · exact .inr ⟨w, hu, hl⟩
  · cases w with
    | nil => exact .inr ⟨[], by rw [hl, List.append_nil, List.append_nil], hv.symm⟩
    | cons e' w =>
      obtain ⟨rfl, htail⟩ := List.cons.inj hv
      exact .inl ⟨w, hl, htail⟩

namespace Assignment

variable {a : Assignment} {content : String} {number remaining : Nat} {own : List (Event N)}
  {report : TaskReport N} {run : TaskRun N}

end Assignment

namespace Executor

open RunState

variable [Zero N] [Add N] {x : Executor} {inputs : Bindings String} {s s' : RunState N x.pipeline}
  {i : x.pipeline.TaskIndex} {trace t before after : Trace N x.pipeline}
  {history : List (Event N)}

/-! ## Scans -/

/-- The trace leads into a scan for ready tasks: the run saw the signal unset, and since then only
tasks were started. -/
def ScanUnderWay {p : Pipeline} (before : Trace N p) : Prop :=
  ∃ earlier started, before = earlier ++ (none, .looked false) :: started ∧
    ∀ entry ∈ started, entry.1 = none ∧ entry.2.IsStart

omit [Zero N] [Add N] in
theorem ScanUnderWay.append (trace : Trace N x.pipeline) (h : ScanUnderWay t) : ScanUnderWay (trace ++ t) := by
  obtain ⟨earlier, started, rfl, hstarted⟩ := h
  exact ⟨trace ++ earlier, started, by rw [List.append_assoc], hstarted⟩

/-- What a scan announces are starts. -/
theorem scan_status (s : RunState N x.pipeline) :
    ∀ progress ∈ (x.scan s x.order).2, progress.status = .ready := by
  refine scan_induction (P := fun started _ => ∀ progress ∈ started, progress.status = .ready)
    x.order [] (List.forall_mem_nil _) fun started s i hs _ => ?_
  exact List.forall_mem_append.mpr ⟨hs, List.forall_mem_singleton.mpr rfl⟩

theorem Dispatched.scanUnderWay (h : x.Dispatched s history s') {u v : Trace N x.pipeline}
    {entry : Option x.pipeline.TaskIndex × Event N}
    (hsplit : history.map (none, ·) = u ++ entry :: v) (hstart : entry.2.IsStart) :
    ScanUnderWay u := by
  obtain ⟨progress, hentry, -⟩ := hstart
  rcases h with ⟨rfl, -⟩ | ⟨rfl, -⟩
  · -- a look alone
    cases u with
    | nil =>
      obtain ⟨rfl, -⟩ := List.cons.inj hsplit
      cases hentry
    | cons => simp at hsplit
  · cases u with
    | nil =>
      obtain ⟨rfl, -⟩ := List.cons.inj hsplit
      cases hentry
    | cons first started =>
      obtain ⟨rfl, htail⟩ := List.cons.inj hsplit
      refine ⟨[], started, rfl, fun e he => ?_⟩
      have hmem : e ∈ started ++ entry :: v := List.mem_append_left _ he
      rw [← show _ = started ++ entry :: v from htail] at hmem
      simp only [List.mem_map] at hmem
      obtain ⟨_, ⟨ready, hready, rfl⟩, rfl⟩ := hmem
      exact ⟨rfl, ready, rfl, scan_status s ready hready⟩

theorem Moves.scanUnderWay (hlogged : ∀ i, x.Logged s i (eventsOf trace i) (s.task i))
    (h : x.Moves s t s') {u v : Trace N x.pipeline}
    {entry : Option x.pipeline.TaskIndex × Event N} (hsplit : t = u ++ entry :: v)
    (hstart : entry.2.IsStart) : ScanUnderWay u := by
  cases h with
  | @proceed i work rest e hi he =>
    -- The work on a task starts no task.
    cases u with
    | nil =>
      obtain ⟨rfl, -⟩ := List.cons.inj hsplit
      obtain ⟨progress, rfl, hready⟩ := hstart
      have hwork := hlogged i
      rw [hi] at hwork
      obtain ⟨number, rfl⟩ := Assignment.work_notifies (hwork.worked.reaches.trans he)
        (List.mem_append_right _ (List.mem_singleton.mpr rfl))
      cases hready
    | cons => simp at hsplit
  | @join _ _ _ i run _ hi hjoin hdispatch =>
    obtain ⟨-, rfl, -, -⟩ := settle_of_join hjoin
    cases u with
    | nil =>
      -- The end of a task is no start.
      obtain ⟨rfl, -⟩ := List.cons.inj hsplit
      obtain ⟨progress, heq, hready⟩ := hstart
      cases heq
      have hterminal := run.settled_isTerminal (x.pipeline.taskAt i)
      rw [show (run.settled (x.pipeline.taskAt i)).status = .ready from hready] at hterminal
      cases hterminal
    | cons first u =>
      obtain ⟨rfl, htail⟩ := List.cons.inj hsplit
      exact (hdispatch.scanUnderWay htail hstart).append [_]

/-- **Tasks are only started in a scan**, which begins with a look that saw the signal unset. -/
theorem Traced.scanUnderWay (h : x.Traced inputs trace s) {u v : Trace N x.pipeline}
    {entry : Option x.pipeline.TaskIndex × Event N} (hsplit : trace = u ++ entry :: v)
    (hstart : entry.2.IsStart) : ScanUnderWay u := by
  induction h generalizing u v with
  | start hdispatch =>
    rw [List.map_append] at hsplit
    rcases append_eq_append_cons hsplit with ⟨w, hpending, -⟩ | ⟨w, rfl, hdispatched⟩
    · have hmem : entry ∈ u ++ entry :: w := List.mem_append_right _ List.mem_cons_self
      rw [← hpending] at hmem
      simp only [List.mem_map] at hmem
      obtain ⟨_, ⟨task, -, rfl⟩, rfl⟩ := hmem
      obtain ⟨progress, heq, hready⟩ := hstart
      cases heq
      cases hready
    · exact (hdispatch.scanUnderWay hdispatched hstart).append _
  | move hs hm ih =>
    rcases append_eq_append_cons hsplit with ⟨w, hearlier, -⟩ | ⟨w, rfl, hlast⟩
    · exact ih hearlier
    · exact (hm.scanUnderWay hs.logged hlast hstart).append _

/-! ## What becomes of each task -/

/-- The task had done its work before the moment, and ends as its work ended. -/
def Kept (x : Executor) (s : RunState N x.pipeline) (o : Outcome N)
    (before after : Trace N x.pipeline) (i : x.pipeline.TaskIndex) : Prop :=
  ∃ run, (x.assignment s i).work.Reaches (eventsOf before i) (.done run) ∧ eventsOf after i = [] ∧
    o.report.tasks[i.val]? = some (run.settled (x.pipeline.taskAt i)) ∧
    (o.Ended i .succeeded ∨ o.Ended i .failed)

theorem Coherent.closingReport_task {E : Event N → Prop} (h : x.Coherent E inputs s)
    (hidle : s.running = []) (cancelled : Bool) (i : x.pipeline.TaskIndex) :
    (x.closingReport s cancelled i).1.task = x.pipeline.taskAt i := by
  rcases pending_or_finished_of_idle hidle i with hi | ⟨report, hi⟩
  · rw [closingReport_of_pending hi]
    rfl
  · rw [closingReport_of_finished hi]
    exact (h.finished_cases hi).1

section Cut

variable (hx : x.Accepted) (h : x.Traced inputs (before ++ after) s) (hidle : s.running = [])
  (hbefore : .looked true ∉ before.map (·.2)) (hafter : .looked false ∉ after.map (·.2))
  {o : Outcome N} (ho : o = x.outcome s true (closingReports s true))

end Cut

/-! ## Every run -/

end Executor

namespace Executor

end Executor

end PromptPipeline
