import PromptPipeline.Proofs.Execution.Attempts

/-!
# What is heard of a task

A run announces each task when it is pending and when it starts, the work on the task announces its
attempts, and its end is announced by the run: when the work is done, or at the end of the run if the
task was never started. Here these parts are put together. In each state that a run goes through,
what was heard of a task is determined by the state of the task and by the events of the work on it
(`Traced.heard`), so that at the end exactly one of two sequences was heard of each task
(`notifications_follow_protocol`), and the end of each task exactly once.
-/

namespace PromptPipeline

variable {N : Type}

/-- The notifications about the task, in order. -/
def Task.heardIn (t : Task) (history : List (Event N)) : List Progress :=
  (history.filterMap Event.notification?).filter (·.taskName == t.name)

/-- What is heard of a task in a whole run, where it ends with the report. -/
inductive TaskReport.Heard (r : TaskReport N) (t : Task) : List Progress → Prop
  | unstarted (hstatus : r.status = .skipped ∨ r.status = .cancelled) (hused : r.attemptsUsed = 0) :
      Heard r t [.about t .pending 0, .about t r.status 0]
  | started {message : Option String}
      (hstatus : r.status = .succeeded ∨ r.status = .failed ∨ r.status = .cancelled)
      (hmessage : message.isSome = true ↔ r.status = .failed) :
      Heard r t (.about t .pending 0 :: .about t .ready 0 ::
        ((List.range' 1 r.attemptsUsed).map (Progress.about t .dispatching ·) ++
          [.about t r.status r.attemptsUsed message]))

/-- What has been heard so far of a task in a state, where `own` are the announcements of the work
on it. -/
inductive TaskState.Heard (t : Task) : List Progress → TaskState N → List Progress → Prop
  | pending : Heard t [] .pending [.about t .pending 0]
  | running {own : List Progress} {work : Activity N (TaskRun N)} :
      Heard t own (.running work) (.about t .pending 0 :: .about t .ready 0 :: own)
  | finished {own : List Progress} {report : TaskReport N} :
      Heard t own (.finished report)
        (.about t .pending 0 :: .about t .ready 0 :: (own ++ [report.lastProgress t]))

/-- The end of a task is heard once. -/
theorem TaskReport.Heard.countP_terminal {r : TaskReport N} {t : Task} {heard : List Progress}
    (h : r.Heard t heard) : heard.countP (·.status.isTerminal) = 1 := by
  cases h with
  | unstarted hstatus => rcases hstatus with h | h <;> simp [h, Progress.about, TaskStatus.isTerminal]
  | started hstatus =>
    rw [List.countP_cons_of_neg (by simp [Progress.about, TaskStatus.isTerminal]),
      List.countP_cons_of_neg (by simp [Progress.about, TaskStatus.isTerminal]), List.countP_append]
    have hattempts : ((List.range' 1 r.attemptsUsed).map (Progress.about t .dispatching ·)).countP
        (·.status.isTerminal) = 0 := by
      simp [List.countP_eq_zero, Progress.about, TaskStatus.isTerminal]
    rw [hattempts]
    rcases hstatus with h | h | h <;> simp [h, Progress.about, TaskStatus.isTerminal]

/-! ## Lists in which one item counts -/

/-- If all items but one contribute nothing, then this one contributes everything. -/
theorem flatMap_eq_of_eq_nil_off {α β : Type} {l : List α} {a : α} {f : α → List β}
    (hnodup : l.Nodup) (ha : a ∈ l) (hoff : ∀ b, b ≠ a → f b = []) : l.flatMap f = f a := by
  obtain ⟨l₁, l₂, rfl⟩ := List.append_of_mem ha
  obtain ⟨-, hnodup₂, hdisjoint⟩ := List.nodup_append.mp hnodup
  have h₁ : l₁.flatMap f = [] := by
    refine List.flatMap_eq_nil_iff.mpr fun b hb => hoff b ?_
    exact hdisjoint b hb a List.mem_cons_self
  have h₂ : l₂.flatMap f = [] := by
    refine List.flatMap_eq_nil_iff.mpr fun b hb => hoff b ?_
    rintro rfl
    exact (List.nodup_cons.mp hnodup₂).1 hb
  rw [List.flatMap_append, List.flatMap_cons, h₁, h₂, List.nil_append, List.append_nil]

/-- If each item is in one part, then a count is the sum of the counts in the parts. -/
theorem countP_eq_sum_countP_filter {α ι : Type} [Fintype ι] [DecidableEq ι] {l : List α}
    {q : α → Bool} (part : ι → α → Bool) (h : ∀ a ∈ l, ∃ i, ∀ j, part j a = true ↔ j = i) :
    l.countP q = ∑ i, (l.filter (part i)).countP q := by
  induction l with
  | nil => simp
  | cons a l ih =>
    obtain ⟨⟨i, hi⟩, hl⟩ := List.forall_mem_cons.mp h
    have hcons (j : ι) : ((a :: l).filter (part j)).countP q =
        (l.filter (part j)).countP q + if j = i then (if q a then 1 else 0) else 0 := by
      rw [List.filter_cons]
      by_cases hj : j = i
      · rw [if_pos ((hi j).mpr hj), if_pos hj, List.countP_cons]
      · rw [if_neg (fun h => hj ((hi j).mp h)), if_neg hj, Nat.add_zero]
    simp only [hcons, Finset.sum_add_distrib, Finset.sum_ite_eq', Finset.mem_univ, if_true]
    rw [List.countP_cons, ih hl]

namespace Task

variable {t t' : Task} {history h' : List (Event N)}

theorem heardIn_append : t.heardIn (history ++ h') = t.heardIn history ++ t.heardIn h' := by
  unfold heardIn
  rw [List.filterMap_append, List.filter_append]

theorem heardIn_looked (b : Bool) : t.heardIn (.looked b :: history) = t.heardIn history :=
  rfl

theorem heardIn_notified (progress : List Progress) :
    t.heardIn (progress.map (.notified (N := N))) = progress.filter (·.taskName == t.name) := by
  unfold heardIn
  rw [List.filterMap_map]
  exact congrArg _ List.filterMap_some

end Task

namespace TaskState.Heard

variable {t : Task} {own heard : List Progress} {work : Activity N (TaskRun N)}

theorem of_pending (h : Heard (N := N) t own .pending heard) :
    own = [] ∧ heard = [.about t .pending 0] := by
  cases h
  exact ⟨rfl, rfl⟩

theorem of_running (h : Heard t own (.running work) heard) :
    heard = .about t .pending 0 :: .about t .ready 0 :: own := by
  cases h
  rfl

theorem of_finished {report : TaskReport N} (h : Heard t own (.finished report) heard) :
    heard = .about t .pending 0 :: .about t .ready 0 :: (own ++ [report.lastProgress t]) := by
  cases h
  rfl

end TaskState.Heard

namespace Executor

open RunState

variable [Zero N] [Add N] {x : Executor} {inputs : Bindings String} {s s' : RunState N x.pipeline}
  {i j : x.pipeline.TaskIndex} {trace t : Trace N x.pipeline} {history : List (Event N)}

/-! ## In every state -/

section Names

variable (hnames : ∀ i j, (x.pipeline.taskAt i).name = (x.pipeline.taskAt j).name → i = j)

include hnames

omit [Zero N] [Add N] in
/-- What is said about a task is heard of this task and of no other. -/
theorem filter_about (status : TaskStatus) (attempt : Nat) (message : Option String) :
    [Progress.about (x.pipeline.taskAt i) status attempt message].filter
        (·.taskName == (x.pipeline.taskAt j).name) =
      if i = j then [.about (x.pipeline.taskAt i) status attempt message] else [] := by
  by_cases hij : i = j
  · simp [hij, Progress.about]
  · have hname : (x.pipeline.taskAt i).name ≠ (x.pipeline.taskAt j).name :=
      fun heq => hij (hnames i j heq)
    simp [hij, Progress.about, hname]

/-- A dispatch announces the tasks that it starts, and these were pending. -/
theorem Dispatched.heard {own heard : x.pipeline.TaskIndex → List Progress}
    (h : ∀ i, TaskState.Heard (x.pipeline.taskAt i) (own i) (s.task i) (heard i))
    (hd : x.Dispatched s history s') (i : x.pipeline.TaskIndex) :
    TaskState.Heard (x.pipeline.taskAt i) (own i) (s'.task i)
      (heard i ++ (x.pipeline.taskAt i).heardIn history) := by
  rcases hd with ⟨rfl, rfl⟩ | ⟨rfl, rfl⟩
  · rw [Task.heardIn_looked]
    exact (List.append_nil (heard i)).symm ▸ h i
  · rw [Task.heardIn_looked, Task.heardIn_notified]
    refine scan_induction (P := fun started s => ∀ i,
      TaskState.Heard (x.pipeline.taskAt i) (own i) (s.task i) (heard i ++
        started.filter (·.taskName == (x.pipeline.taskAt i).name))) x.order [] ?_ ?_ i
    · exact fun i => (List.append_nil (heard i)).symm ▸ h i
    · intro started s j hs hready i
      have hi := hs i
      rw [List.filter_append, filter_about hnames, ← List.append_assoc, start]
      by_cases hji : j = i
      · subst hji
        obtain ⟨hpending, -⟩ := isReady_iff.mp hready
        rw [hpending] at hi
        obtain ⟨hown, hheard⟩ := hi.of_pending
        rw [if_pos rfl, setTask_task_self, hheard, hown]
        exact .running
      · rw [if_neg hji, List.append_nil, setTask_task_of_ne hji]
        exact hi

omit [Zero N] [Add N] in
/-- At first each task is announced once. -/
theorem heardIn_pending (i : x.pipeline.TaskIndex) :
    (x.pipeline.taskAt i).heardIn
      (x.pipeline.tasks.map fun task => Event.notified (N := N) (.about task .pending 0)) =
        [.about (x.pipeline.taskAt i) .pending 0] := by
  have htasks : x.pipeline.tasks.map (fun task => Event.notified (N := N) (.about task .pending 0)) =
      ((List.finRange _).flatMap fun j =>
        [Progress.about (x.pipeline.taskAt j) .pending 0]).map .notified := by
    have hall : (List.finRange _).map x.pipeline.taskAt = x.pipeline.tasks :=
      List.map_get_finRange x.pipeline.tasks
    rw [← List.map_eq_flatMap, List.map_map]
    conv_lhs => rw [← hall, List.map_map]
    rfl
  rw [htasks, Task.heardIn_notified, List.filter_flatMap,
    flatMap_eq_of_eq_nil_off (List.nodup_finRange _) (List.mem_finRange i) fun j hj => ?_]
  · rw [filter_about hnames, if_pos rfl]
  · rw [filter_about hnames, if_neg hj]

omit [Zero N] [Add N] in
/-- The end of the work on a task is heard of this task. -/
theorem settled_heard {own heard : List Progress} {run : TaskRun N}
    (hi : s.task i = .running (.done run))
    (h : TaskState.Heard (x.pipeline.taskAt j) own (s.task j) heard) :
    TaskState.Heard (x.pipeline.taskAt j) own
      ((s.settle i (run.settled (x.pipeline.taskAt i))).task j)
      (heard ++ (x.pipeline.taskAt j).heardIn [Event.notified (N := N)
        ((run.settled (x.pipeline.taskAt i)).lastProgress (x.pipeline.taskAt i))]) := by
  have hlast : (x.pipeline.taskAt j).heardIn [Event.notified (N := N)
      ((run.settled (x.pipeline.taskAt i)).lastProgress (x.pipeline.taskAt i))] =
        if i = j then [(run.settled (x.pipeline.taskAt i)).lastProgress (x.pipeline.taskAt i)]
        else [] :=
    filter_about hnames _ _ _
  rw [hlast]
  by_cases hij : i = j
  · subst hij
    rw [hi] at h
    rw [if_pos rfl, settle_task_self, h.of_running]
    exact .finished
  · rw [if_neg hij, List.append_nil, settle_task_of_ne hij]
    exact h

/-- A move adds to what was heard of a task what the work on it announces, or its end. -/
theorem Moves.heard
    (hlogged : ∀ i, x.Logged s i (eventsOf trace i) (s.task i))
    (h : ∀ i, TaskState.Heard (x.pipeline.taskAt i)
      ((eventsOf trace i).filterMap Event.notification?) (s.task i)
      ((x.pipeline.taskAt i).heardIn (trace.map (·.2))))
    (hm : x.Moves s t s') (j : x.pipeline.TaskIndex) :
    TaskState.Heard (x.pipeline.taskAt j)
      ((eventsOf (trace ++ t) j).filterMap Event.notification?) (s'.task j)
      ((x.pipeline.taskAt j).heardIn ((trace ++ t).map (·.2))) := by
  rw [eventsOf_append, List.filterMap_append, List.map_append, Task.heardIn_append]
  cases hm with
  | @proceed i work rest e hi he =>
    have hwork := hlogged i
    rw [hi] at hwork
    -- Whatever the work announces is about its own task.
    have hfilter : (x.pipeline.taskAt j).heardIn [e] =
        if i = j then [e].filterMap Event.notification? else [] := by
      cases e with
      | looked b => exact (ite_self []).symm
      | answered c answer => exact (ite_self []).symm
      | notified p =>
        obtain ⟨number, rfl⟩ := Assignment.work_notifies (hwork.worked.reaches.trans he) (p := p)
          (by simp)
        exact filter_about hnames _ _ _
    have hj := h j
    by_cases hij : i = j
    · subst hij
      have hlast : eventsOf (x := x) [(some i, e)] i = [e] := by simp [eventsOf]
      rw [hi] at hj
      rw [List.map_singleton, hfilter, if_pos rfl, hlast, setTask_task_self, hj.of_running]
      exact .running
    · have hnone : eventsOf (x := x) [(some i, e)] j = [] := by simp [eventsOf, hij]
      rw [List.map_singleton, hfilter, if_neg hij, hnone, setTask_task_of_ne hij,
        List.filterMap_nil, List.append_nil, List.append_nil]
      exact hj
  | @join events s' _ i run progress hi hjoin hdispatch =>
    obtain ⟨rfl, rfl, -, -⟩ := settle_of_join hjoin
    have hsettled (k : x.pipeline.TaskIndex) := settled_heard hnames hi (h k)
    have hheard := hdispatch.heard hnames hsettled j
    rw [List.append_assoc, ← Task.heardIn_append] at hheard
    rw [eventsOf_own, List.filterMap_nil, List.append_nil, List.map_map]
    simpa [Function.comp_def] using hheard

/-- **In every state that a run goes through**, the state of a task and the events of the work on it
determine what was heard of it. -/
theorem Traced.heard (h : x.Traced inputs trace s) (i : x.pipeline.TaskIndex) :
    TaskState.Heard (x.pipeline.taskAt i) ((eventsOf trace i).filterMap Event.notification?)
      (s.task i) ((x.pipeline.taskAt i).heardIn (trace.map (·.2))) := by
  induction h generalizing i with
  | start hdispatch =>
    have hinitial (i : x.pipeline.TaskIndex) : TaskState.Heard (N := N) (x.pipeline.taskAt i) []
        ((x.initialState inputs).task i) [.about (x.pipeline.taskAt i) .pending 0] := by
      rw [initialState_task]
      exact .pending
    have hheard := hdispatch.heard hnames hinitial i
    have hfirst := heardIn_pending (N := N) hnames i
    rw [eventsOf_own, List.filterMap_nil, List.map_map]
    simpa [Function.comp_def, Task.heardIn_append, hfirst] using hheard
  | move hs hm ih => exact hm.heard hnames hs.logged ih i

omit [Add N] in
/-- At the end of a run each task is announced on its own. -/
theorem filter_closings (cancelled : Bool) (i : x.pipeline.TaskIndex) :
    (closings s cancelled).filter (·.taskName == (x.pipeline.taskAt i).name) =
      (x.closingReport s cancelled i).2 := by
  have hpart (j : x.pipeline.TaskIndex) :
      (x.closingReport s cancelled j).2.filter (·.taskName == (x.pipeline.taskAt i).name) =
        if j = i then (x.closingReport s cancelled j).2 else [] := by
    unfold closingReport
    split
    next => exact (ite_self []).symm
    next => exact filter_about hnames _ _ _
  unfold closings
  rw [List.filter_flatMap,
    flatMap_eq_of_eq_nil_off (List.nodup_finRange _) (List.mem_finRange i) fun j hj => ?_]
  · rw [hpart, if_pos rfl]
  · rw [hpart, if_neg hj]

/-- When no task is running, what was heard of a task is what is heard in a whole run. -/
theorem Traced.heard_closed (h : x.Traced inputs trace s) (hidle : s.running = [])
    (cancelled : Bool) (i : x.pipeline.TaskIndex) :
    (x.closingReport s cancelled i).1.Heard (x.pipeline.taskAt i)
      ((x.pipeline.taskAt i).heardIn
        (trace.map (·.2) ++ .looked cancelled :: (closings s cancelled).map .notified)) := by
  have hheard := h.heard hnames i
  rw [Task.heardIn_append, Task.heardIn_looked, Task.heardIn_notified, filter_closings hnames]
  rcases pending_or_finished_of_idle hidle i with hi | ⟨report, hi⟩
  · -- never started
    rw [hi] at hheard
    rw [closingReport_of_pending hi, hheard.of_pending.2]
    exact .unstarted (by cases cancelled <;> simp) rfl
  · -- started, and done
    obtain ⟨run, hworked, rfl, -⟩ := h.exists_run hi
    have htask := (Assignment.work_ensures (E := fun _ => True) hworked.reaches
      fun _ _ => trivial).1
    have hannounced := (Assignment.work_tells hworked.reaches).1.announced
    rw [hi] at hheard
    rw [closingReport_of_finished hi, hheard.of_finished, hannounced, htask, List.append_nil,
      ← run.settled_attemptsUsed (x.pipeline.taskAt i)]
    refine .started ?_ ?_
    · have hcases := run.settled_cases (x.pipeline.taskAt i)
      exact hcases.imp (·.1) (Or.imp (·.1) (·.1))
    · rw [Option.isSome_map]
      exact run.settled_failure?_isSome_iff (x.pipeline.taskAt i)

end Names

/-! ## Every notification is about a task -/

/-- Whether the event, if it is a notification, is about a task of the pipeline. -/
def Concerns (x : Executor) (e : Event N) : Prop :=
  ∀ progress, e = .notified progress →
    ∃ i : x.pipeline.TaskIndex, progress.taskName = (x.pipeline.taskAt i).name

omit [Zero N] [Add N] in
theorem concerns_about (i : x.pipeline.TaskIndex) (status : TaskStatus) (attempt : Nat)
    (message : Option String) :
    x.Concerns (N := N) (.notified (.about (x.pipeline.taskAt i) status attempt message)) := by
  intro progress h
  cases h
  exact ⟨i, rfl⟩

omit [Zero N] [Add N] in
theorem concerns_looked (b : Bool) : x.Concerns (N := N) (.looked b) :=
  fun _ h => nomatch h

theorem Dispatched.concerns (h : x.Dispatched s history s') : ∀ e ∈ history, x.Concerns e := by
  rcases h with ⟨rfl, -⟩ | ⟨rfl, -⟩
  · exact List.forall_mem_singleton.mpr (concerns_looked true)
  · refine List.forall_mem_cons.mpr ⟨concerns_looked false, ?_⟩
    refine scan_induction (P := fun started _ => ∀ e ∈ started.map Event.notified,
      x.Concerns (N := N) e) x.order [] (List.forall_mem_nil _) fun started s i hs _ => ?_
    rw [List.map_append]
    exact List.forall_mem_append.mpr
      ⟨hs, List.forall_mem_singleton.mpr (concerns_about i .ready 0 none)⟩

theorem Moves.concerns (hlogged : ∀ i, x.Logged s i (eventsOf trace i) (s.task i))
    (h : x.Moves s t s') : ∀ e ∈ t.map (·.2), x.Concerns e := by
  cases h with
  | @proceed i work rest e hi he =>
    refine List.forall_mem_singleton.mpr fun p heq => ?_
    have hwork := hlogged i
    rw [hi] at hwork
    have hmem : .notified p ∈ eventsOf trace i ++ [e] :=
      List.mem_append_right _ (List.mem_singleton.mpr heq.symm)
    obtain ⟨number, rfl⟩ := Assignment.work_notifies (hwork.worked.reaches.trans he) hmem
    exact ⟨i, rfl⟩
  | @join events _ _ i run progress hi hjoin hdispatch =>
    obtain ⟨-, rfl, -, -⟩ := settle_of_join hjoin
    rw [List.map_map, Function.comp_def, List.map_id']
    exact List.forall_mem_cons.mpr ⟨concerns_about i _ _ _, hdispatch.concerns⟩

theorem Traced.concerns (h : x.Traced inputs trace s) : ∀ e ∈ trace.map (·.2), x.Concerns e := by
  induction h with
  | start hdispatch =>
    rw [List.map_map, Function.comp_def, List.map_id']
    refine List.forall_mem_append.mpr ⟨fun e he => ?_, hdispatch.concerns⟩
    obtain ⟨task, htask, rfl⟩ := List.mem_map.mp he
    obtain ⟨k, rfl⟩ := List.get_of_mem htask
    exact concerns_about k .pending 0 none
  | move hs hm ih =>
    rw [List.map_append]
    exact List.forall_mem_append.mpr ⟨ih, hm.concerns hs.logged⟩

omit [Add N] in
theorem closings_concern (s : RunState N x.pipeline) (cancelled : Bool) :
    ∀ e ∈ (closings s cancelled).map Event.notified, x.Concerns (N := N) e := by
  intro e he
  obtain ⟨progress, hmem, rfl⟩ := List.mem_map.mp he
  obtain ⟨i, -, hmem⟩ := List.mem_flatMap.mp hmem
  unfold closingReport at hmem
  split at hmem
  next => cases hmem
  next =>
    rw [List.mem_singleton.mp hmem]
    exact concerns_about i _ 0 none

/-! ## In a whole run -/

/-- **What is heard of each task** in a run that returned an outcome: that it is pending and at once
that it was skipped or cancelled; or that it is pending, that it is ready, each of its attempts in
turn, and how it ended, with a message if and only if it failed. The end of each task is heard
exactly once, and the ends of all tasks are all the ends that are heard. -/
theorem notifications_follow_protocol {p : Pipeline} {tools : Tools} {settings : ExecutionSettings}
    {x : Executor} (hx : ofPipeline p tools settings = .ok x) {schedule : Schedule}
    {inputs : Bindings String} {history : List (Event N)} {o : Outcome N}
    (hrun : (x.execute schedule inputs).Reaches history (.done (.ok o))) :
    (∀ i : p.TaskIndex, ∃ r, o.report.tasks[i.val]? = some r ∧
      r.Heard (p.taskAt i) ((p.taskAt i).heardIn history) ∧
      ((p.taskAt i).heardIn history).countP (·.status.isTerminal) = 1) ∧
    (history.filterMap Event.notification?).countP (·.status.isTerminal) = p.tasks.length := by
  obtain ⟨order, rfl, hx⟩ := accepted_of_ofPipeline hx
  obtain ⟨trace, cancelled, s, rfl, htraced, hidle, rfl⟩ := exists_closed hrun
  have hnames (i j : p.TaskIndex) (h : (p.taskAt i).name = (p.taskAt j).name) : i = j :=
    hx.wellFormed.name_injective h
  have hheard := htraced.heard_closed hnames hidle cancelled
  have honce (i : p.TaskIndex) := (hheard i).countP_terminal
  refine ⟨fun i => ⟨_, closingReports_getElem? s cancelled i, hheard i, honce i⟩, ?_⟩
  rw [countP_eq_sum_countP_filter fun (i : p.TaskIndex) progress =>
    progress.taskName == (p.taskAt i).name]
  · exact (Finset.sum_congr rfl fun i _ => honce i).trans (by simp)
  · intro progress hmem
    obtain ⟨e, he, heq⟩ := List.mem_filterMap.mp hmem
    have hnotified : e = .notified progress := by
      cases e <;> cases heq
      rfl
    have hall := List.forall_mem_append.mpr ⟨htraced.concerns,
      List.forall_mem_cons.mpr ⟨concerns_looked cancelled, closings_concern s cancelled⟩⟩
    obtain ⟨i, hi⟩ := hall e he progress hnotified
    refine ⟨i, fun j => ?_⟩
    rw [hi, beq_iff_eq]
    exact ⟨fun h => (hnames i j h).symm, fun h => by rw [h]⟩

/-- Of the two tasks of the small pipeline two ends are heard, one of each, although one of them
lacks an input. -/
theorem greetings_end_twice :
    ∃ (x : Executor) (history : List (Event Nat)) (o : Outcome Nat),
      ofPipeline .greetings .none {} = .ok x ∧
      (x.execute .firstTask (.ofList [("name", "Ada")])).Reaches history (.done (.ok o)) ∧
      (∀ i : Pipeline.greetings.TaskIndex,
        ((Pipeline.greetings.taskAt i).heardIn history).countP (·.status.isTerminal) = 1) ∧
      (history.filterMap Event.notification?).countP (·.status.isTerminal) = 2 := by
  obtain ⟨x, hx⟩ : ∃ x, ofPipeline .greetings .none {} = .ok x := ⟨_, by cbv⟩
  obtain ⟨history, o, hreaches, -⟩ := exists_refused (N := Nat) hx Pipeline.greetings_closed
    .firstTask (.ofList [("name", "Ada")])
  obtain ⟨heach, hall⟩ := notifications_follow_protocol hx hreaches
  refine ⟨x, history, o, hx, hreaches, fun i => ?_, hall⟩
  obtain ⟨r, -, -, honce⟩ := heach i
  exact honce

end Executor

end PromptPipeline
