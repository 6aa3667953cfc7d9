import PromptPipeline.Proofs.Execution.Coherent

/-!
# Invariants of a run

What holds of every reached state, whatever the schedule, the tools and the bound on parallel tasks:

* `Reached.coherent`: it is coherent.
* `Reached.stocked`: as long as the signal is not set, either no more tasks may run or no task is
  ready, so no task is left behind.
* `Reached.countP_starts`: a task was started once, or it is pending.
-/

namespace PromptPipeline

/-- Whether the event announces that the task is about to start. -/
def Event.starts {N : Type} (t : Task) : Event N → Bool
  | .notified p => p.status == .ready && p.taskName == t.name
  | _ => false

namespace Executor

open RunState

variable {N : Type} [Zero N] [Add N] {x : Executor} {E : Event N → Prop} {inputs : Bindings String}
  {s s' : RunState N x.pipeline} {i j : x.pipeline.TaskIndex} {history : List (Event N)}

/-! ## Coherence -/

/-- A scan starts tasks that are supplied. -/
theorem Coherent.dispatch (h : x.Coherent E inputs s) (hd : x.Dispatched s history s') :
    x.Coherent E inputs s' := by
  rcases hd with ⟨-, rfl⟩ | ⟨-, rfl⟩
  · exact h
  · refine scan_induction (P := fun _ s => x.Coherent E inputs s) x.order [] h ?_
    intro _ s i hs hready
    obtain ⟨hpending, hsupplied⟩ := isReady_iff.mp hready
    have hreport : (s.task i).report? = none := by
      rw [hpending]
      rfl
    exact hs.setTask_running hreport ⟨hsupplied, [], .refl _, List.forall_mem_nil _⟩

/-- The work on a running task goes on. -/
theorem Coherent.proceed {work rest : Activity N (TaskRun N)} {e : Event N}
    (h : x.Coherent E inputs s) (hi : s.task i = .running work) (hrest : work.Reaches [e] rest)
    (he : E e) : x.Coherent E inputs (s.setTask i (.running rest)) := by
  obtain ⟨hsupplied, past, hpast, hE⟩ := h.running i work hi
  refine h.setTask_running (by rw [hi]; rfl) ⟨hsupplied, past ++ [e], hpast.trans hrest, ?_⟩
  exact List.forall_mem_append.mpr ⟨hE, List.forall_mem_singleton.mpr he⟩

/-- The end of the work on a running task becomes part of the run. -/
theorem Coherent.join {run : TaskRun N} {progress : Progress} (h : x.Coherent E inputs s)
    (hi : s.task i = .running (.done run)) (hjoin : x.join s i run = .ok (s', progress)) :
    x.Coherent E inputs s' := by
  obtain ⟨rfl, -, hordinary, hnew⟩ := settle_of_join hjoin
  refine h.settle (by rw [hi]; rfl) (h.running i _ hi) hordinary fun value hvalue => ?_
  exact hnew value (TaskRun.settled_value?_eq_some_iff.mp hvalue)

/-- **Every reached state is coherent.** -/
theorem Reached.coherent (h : x.Reached inputs history s) (hE : ∀ e ∈ history, E e) :
    x.Coherent E inputs s := by
  induction h with
  | start hdispatch => exact (initialState_coherent x E inputs).dispatch hdispatch
  | proceed _ hi he ih =>
    obtain ⟨hpast, hlast⟩ := List.forall_mem_append.mp hE
    exact (ih hpast).proceed hi he (List.forall_mem_singleton.mp hlast)
  | join _ hi hjoin hdispatch ih =>
    obtain ⟨hpast, -⟩ := List.forall_mem_append.mp hE
    exact ((ih hpast).join hi hjoin).dispatch hdispatch

/-! ## No task is left behind -/

/-- No more tasks may run, or no task is ready to. -/
def Stocked (x : Executor) (s : RunState N x.pipeline) : Prop :=
  x.settings.maxParallel ≤ s.inFlight ∨ ∀ i, x.isReady s i = false

omit [Zero N] [Add N] in
/-- To move a task that is running makes no task ready. -/
theorem isReady_of_setTask_running {work : Activity N (TaskRun N)}
    (h : x.isReady (s.setTask i (.running work)) j = true) : x.isReady s j = true := by
  obtain ⟨hpending, hsupplied⟩ := isReady_iff.mp h
  have hij : i ≠ j := by
    rintro rfl
    rw [setTask_task_self] at hpending
    cases hpending
  rw [setTask_task_of_ne hij] at hpending
  exact isReady_iff.mpr ⟨hpending, hsupplied⟩

theorem isReady_of_scan {is : List x.pipeline.TaskIndex}
    (h : x.isReady (x.scan s is).1 j = true) : x.isReady s j = true := by
  refine scan_induction (P := fun _ s' => x.isReady s' j = true → x.isReady s j = true) is [] id
    ?_ h
  intro _ s' i hs' _ hj
  exact hs' (isReady_of_setTask_running hj)

/-- A scan ends when no more tasks may run, or when none of the given tasks is ready. -/
theorem scan_stocked (s : RunState N x.pipeline) (is : List x.pipeline.TaskIndex) :
    x.settings.maxParallel ≤ (x.scan s is).1.inFlight ∨
      ∀ i ∈ is, x.isReady (x.scan s is).1 i = false := by
  induction is generalizing s with
  | nil => exact .inr fun _ hi => nomatch hi
  | cons i rest ih =>
    unfold scan
    split
    next hfull => exact .inl hfull
    next =>
      -- The head is not ready after the scan of the rest, since a scan makes no task ready.
      have hhead {s' : RunState N x.pipeline} (hi : x.isReady s' i = false) :
          x.settings.maxParallel ≤ (x.scan s' rest).1.inFlight ∨
            ∀ j ∈ i :: rest, x.isReady (x.scan s' rest).1 j = false := by
        refine (ih s').imp id fun hrest => List.forall_mem_cons.mpr ⟨?_, hrest⟩
        rw [Bool.eq_false_iff] at hi ⊢
        exact fun hready => hi (isReady_of_scan hready)
      split
      next =>
        refine hhead ?_
        rw [Bool.eq_false_iff]
        intro hready
        obtain ⟨hpending, -⟩ := isReady_iff.mp hready
        rw [start, setTask_task_self] at hpending
        cases hpending
      next hi => exact hhead (Bool.eq_false_iff.mpr hi)

omit [Zero N] [Add N] in
/-- One task moves on, and all others are running or not as before. -/
theorem inFlight_setTask (s : RunState N x.pipeline) (i : x.pipeline.TaskIndex)
    (state : TaskState N) :
    (s.setTask i state).inFlight + (s.task i).isRunning.toNat =
      s.inFlight + state.isRunning.toNat := by
  have hlt : i.val < s.tasks.toList.length := by simp
  have hget : s.tasks.toList[i.val] = s.task i := Vector.getElem_toList hlt
  unfold inFlight setTask
  rw [Vector.toList_set, List.countP_set hlt, hget]
  have hpos (hrunning : (s.task i).isRunning = true) : 0 < s.tasks.toList.countP (·.isRunning) :=
    List.countP_pos_iff.mpr ⟨_, List.getElem_mem hlt, by rw [hget, hrunning]⟩
  generalize s.tasks.toList.countP (·.isRunning) = n at hpos ⊢
  cases hrunning : (s.task i).isRunning with
  | false => cases state.isRunning <;> simp
  | true =>
    have hn : 0 < n := hpos hrunning
    cases state.isRunning <;> simp <;> omega

omit [Zero N] [Add N] in
/-- As many tasks are running after one of them has moved. -/
theorem inFlight_setTask_running {work rest : Activity N (TaskRun N)}
    (hi : s.task i = .running work) : (s.setTask i (.running rest)).inFlight = s.inFlight := by
  have hcount := inFlight_setTask s i (.running rest)
  rw [hi] at hcount
  exact Nat.add_right_cancel hcount

omit [Zero N] [Add N] in
/-- To move a task that is running makes no room and no task ready. -/
theorem Stocked.setTask_running {work rest : Activity N (TaskRun N)} (h : x.Stocked s)
    (hi : s.task i = .running work) : x.Stocked (s.setTask i (.running rest)) := by
  refine h.imp (fun hfull => ?_) fun hnone j => ?_
  · rwa [inFlight_setTask_running hi]
  · rw [Bool.eq_false_iff]
    intro hready
    exact Bool.eq_false_iff.mp (hnone j) (isReady_of_setTask_running hready)

/-- **No task is left behind**: as long as the signal is not set, a task that is ready waits only
because no more tasks may run. -/
theorem Reached.stocked (horder : ∀ i, i ∈ x.order) (h : x.Reached inputs history s)
    (hset : .looked true ∉ history) : x.Stocked s := by
  have hdispatched {h : List (Event N)} {s s' : RunState N x.pipeline}
      (hd : x.Dispatched s h s') (hset : .looked true ∉ h) : x.Stocked s' := by
    rcases hd with ⟨rfl, -⟩ | ⟨-, rfl⟩
    · exact absurd (List.mem_singleton.mpr rfl) hset
    · exact (scan_stocked s x.order).imp id fun hall i => hall i (horder i)
  induction h with
  | start hdispatch =>
    exact hdispatched hdispatch fun hmem => hset (List.mem_append_right _ hmem)
  | proceed _ hi _ ih =>
    exact (ih fun hmem => hset (List.mem_append_left _ hmem)).setTask_running hi
  | join _ _ _ hdispatch _ =>
    refine hdispatched hdispatch fun hmem => hset ?_
    exact List.mem_append_right _ (List.mem_cons_of_mem _ hmem)

omit [Zero N] [Add N] in
/-- When no task is running and the signal was not set, no task is ready. -/
theorem Stocked.of_idle (h : x.Stocked s) (hparallel : 0 < x.settings.maxParallel)
    (hidle : s.running = []) (i : x.pipeline.TaskIndex) : x.isReady s i = false := by
  refine h.resolve_left (fun hfull => ?_) i
  obtain ⟨state, hmem, hrunning⟩ := List.countP_pos_iff.mp (Nat.lt_of_lt_of_le hparallel hfull)
  obtain ⟨k, hk, rfl⟩ := List.getElem_of_mem hmem
  have hk' : k < x.pipeline.tasks.length := by simpa using hk
  have hin : (⟨k, hk'⟩ : x.pipeline.TaskIndex) ∈ s.running := by
    rw [running, List.mem_filter]
    exact ⟨List.mem_finRange _, by simpa using hrunning⟩
  rw [hidle] at hin
  cases hin

/-! ## Each task starts once -/

/-- The number of times that a task has started so far. -/
def starts (s : RunState N x.pipeline) (i : x.pipeline.TaskIndex) : Nat :=
  if (s.task i).isPending then 0 else 1

omit [Zero N] [Add N] in
theorem starts_of_task_eq (h : s'.task i = s.task i) : starts s' i = starts s i := by
  unfold starts
  rw [h]

omit [Zero N] [Add N] in
/-- A task that has started stays so, whatever comes of it. -/
theorem starts_of_setTask {state : TaskState N} (h : s'.tasks = (s.setTask j state).tasks)
    (hj : (s.task j).isPending = false) (hstate : state.isPending = false) :
    starts s' i = starts s i := by
  have htask : s'.task i = (s.setTask j state).task i := by
    unfold task
    rw [h]
  unfold starts
  rw [htask]
  by_cases hji : j = i
  · subst hji
    rw [setTask_task_self, hj, hstate]
  · rw [setTask_task_of_ne hji]

omit [Zero N] [Add N] in
theorem countP_starts_eq_zero (t : Task) {ps : List Progress}
    (h : ∀ p ∈ ps, p.status ≠ .ready) :
    (ps.map Event.notified).countP (Event.starts (N := N) t) = 0 := by
  rw [List.countP_eq_zero]
  intro e he
  obtain ⟨p, hp, rfl⟩ := List.mem_map.mp he
  simp [Event.starts, h p hp]

/-- A dispatch announces the tasks that it starts. -/
theorem Dispatched.countP_starts
    (hnames : ∀ i j, (x.pipeline.taskAt i).name = (x.pipeline.taskAt j).name → i = j)
    (hd : x.Dispatched s history s') (i : x.pipeline.TaskIndex) :
    starts s i + history.countP (Event.starts (x.pipeline.taskAt i)) = starts s' i := by
  rcases hd with ⟨rfl, rfl⟩ | ⟨rfl, rfl⟩
  · rfl
  · rw [List.countP_cons_of_neg (by simp [Event.starts])]
    refine scan_induction (P := fun started s' => starts s i +
      (started.map Event.notified).countP (Event.starts (N := N) (x.pipeline.taskAt i)) =
        starts s' i) x.order [] rfl ?_
    intro started s' j hstarted hready
    obtain ⟨hpending, -⟩ := isReady_iff.mp hready
    rw [List.map_append, List.countP_append, ← Nat.add_assoc, hstarted]
    by_cases hij : j = i
    · subst hij
      unfold starts
      rw [Executor.start, setTask_task_self, hpending]
      simp [TaskState.isPending, Event.starts, Progress.about]
    · have hname : (x.pipeline.taskAt j).name ≠ (x.pipeline.taskAt i).name :=
        fun heq => hij (hnames j i heq)
      have hsame : starts (x.start s' j) i = starts s' i := by
        refine starts_of_task_eq ?_
        rw [Executor.start, setTask_task_of_ne hij]
      rw [hsame]
      simp [Event.starts, Progress.about, hname]

/-- **A reached task was started once, or it is pending.** -/
theorem Reached.countP_starts
    (hnames : ∀ i j, (x.pipeline.taskAt i).name = (x.pipeline.taskAt j).name → i = j)
    (h : x.Reached inputs history s) (i : x.pipeline.TaskIndex) :
    history.countP (Event.starts (x.pipeline.taskAt i)) = starts s i := by
  induction h with
  | start hdispatch =>
    have hpending : starts (x.initialState (N := N) inputs) i = 0 := by
      rw [starts, initialState_task]
      rfl
    have hstatus : ∀ p ∈ x.pipeline.tasks.map (Progress.about · .pending 0), p.status ≠ .ready := by
      simp [Progress.about]
    have hannounced := countP_starts_eq_zero (N := N) (x.pipeline.taskAt i) hstatus
    rw [List.map_map] at hannounced
    have hd := hdispatch.countP_starts hnames i
    rw [hpending, Nat.zero_add] at hd
    rw [List.countP_append, hd]
    exact Nat.add_eq_right.mpr hannounced
  | @proceed past s j work rest e hs hj he ih =>
    -- The work on a task never announces that a task is about to start.
    have hquiet : ¬Event.starts (x.pipeline.taskAt i) e = true := by
      have hcoherent := hs.coherent (E := fun _ => True) fun _ _ => trivial
      obtain ⟨-, h, hwork, -⟩ := hcoherent.running j _ hj
      cases e with
      | looked => simp [Event.starts]
      | answered => simp [Event.starts]
      | notified p =>
        obtain ⟨number, rfl⟩ := Assignment.work_notifies (hwork.trans he) (p := p) (by simp)
        simp [Event.starts, Progress.about]
    have hsame : starts (s.setTask j (.running rest)) i = starts s i :=
      starts_of_setTask rfl (by rw [hj]; rfl) rfl
    rw [List.countP_append, ih, List.countP_cons_of_neg hquiet, hsame]
    rfl
  | @join past h s s' s'' j run progress hs hj hjoin hdispatch ih =>
    obtain ⟨rfl, rfl, -, -⟩ := settle_of_join hjoin
    -- Nor does its end, which is announced with the status that the task comes to.
    have hquiet : ¬Event.starts (N := N) (x.pipeline.taskAt i) (.notified
        ((run.settled (x.pipeline.taskAt j)).lastProgress (x.pipeline.taskAt j))) = true := by
      have hterminal := run.settled_isTerminal (x.pipeline.taskAt j)
      intro hstarts
      simp only [Event.starts, TaskReport.lastProgress, Progress.about, Bool.and_eq_true,
        beq_iff_eq] at hstarts
      rw [hstarts.1] at hterminal
      cases hterminal
    have hsame : starts (s.settle j (run.settled (x.pipeline.taskAt j))) i = starts s i :=
      starts_of_setTask rfl (by rw [hj]; rfl) rfl
    have hd := hdispatch.countP_starts hnames i
    rw [List.countP_append, ih, List.countP_cons_of_neg hquiet, ← hd, hsame]

end Executor

end PromptPipeline
