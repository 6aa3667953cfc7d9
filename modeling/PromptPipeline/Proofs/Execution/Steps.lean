import PromptPipeline.Proofs.Execution.Outcome

/-!
# Step by step

A tick of a run may do much at once: record the end of one task, look at the signal and start
several others. Here it is cut into steps, of which there are four (`Step`): a look at the signal,
the start of one task, one interaction of the work on a task, and the end of the work on one. So
there is a state after each start, and what must never happen in a run is seen not to happen in
between either.

A list of acts leads from the initial state to a state (`Steps`). What each act keeps, together with
the acts so far, all of them keep (`Steps.induction`).

* `Steps.bounded`: no more tasks are running than may.
* `Steps.count_started`, `Steps.count_joined`: a task was started once if it is not pending, and its
  end was recorded once if it is finished.
* `Steps.exists_start`: a task was started on the values of the parameters that it requires, and
  whatever was done on it since is the work on these.

A run waits only after a scan of all tasks and its answer from the tasks that are running (`Waits`),
so no task is ready that might run as well (`Waits.stocked`).

Main statement: `scheduler_safe`.
-/

namespace PromptPipeline

/-- What a run does at one moment. -/
inductive Act (N : Type) (p : Pipeline) where
  /-- It looks at the signal. -/
  | look (cancelled : Bool)
  | start (i : p.TaskIndex)
  /-- One of the interactions with the outside that the work on a task consists of. -/
  | work (i : p.TaskIndex) (e : Event N)
  /-- It records the end of the work on a task. -/
  | join (i : p.TaskIndex) (progress : Progress)

namespace Act

variable {N : Type} {p : Pipeline}

/-- The event that shows the act outside, with the task in whose work it happens. -/
def entry : Act N p → Option p.TaskIndex × Event N
  | look cancelled => (none, .looked cancelled)
  | start i => (none, .notified (.about (p.taskAt i) .ready 0))
  | work i e => (some i, e)
  | join _ progress => (none, .notified progress)

/-- The task that the act starts. -/
def started? : Act N p → Option p.TaskIndex
  | start i => some i
  | _ => none

/-- The task of which the act records the end. -/
def joined? : Act N p → Option p.TaskIndex
  | join i _ => some i
  | _ => none

/-- The event, if it belongs to the work on the task. -/
def workOn? (i : p.TaskIndex) : Act N p → Option (Event N)
  | work j e => if j = i then some e else none
  | _ => none

/-- The tasks that the acts start, in order. -/
def started (acts : List (Act N p)) : List p.TaskIndex :=
  acts.filterMap started?

/-- The tasks of which the acts record the end, in order. -/
def joined (acts : List (Act N p)) : List p.TaskIndex :=
  acts.filterMap joined?

/-- The events of the work on a task. -/
def workOn (i : p.TaskIndex) (acts : List (Act N p)) : List (Event N) :=
  acts.filterMap (workOn? i)

end Act

namespace Executor

open RunState Act

variable {N : Type} [Zero N] [Add N] {x : Executor} {inputs : Bindings String}
  {s s' s'' : RunState N x.pipeline} {i j : x.pipeline.TaskIndex} {act : Act N x.pipeline}
  {acts acts' : List (Act N x.pipeline)}

/-- One step of a run. -/
inductive Step (x : Executor) (s : RunState N x.pipeline) :
    Act N x.pipeline → RunState N x.pipeline → Prop
  | look (cancelled : Bool) : Step x s (.look cancelled) s
  | start {i : x.pipeline.TaskIndex} (hroom : s.inFlight < x.settings.maxParallel)
    (hready : x.isReady s i = true) : Step x s (.start i) (x.start s i)
  | work {i : x.pipeline.TaskIndex} {work rest : Activity N (TaskRun N)} {e : Event N}
    (hi : s.task i = .running work) (he : work.Reaches [e] rest) :
    Step x s (.work i e) (s.setTask i (.running rest))
  | join {i : x.pipeline.TaskIndex} {run : TaskRun N} {s' : RunState N x.pipeline}
    {progress : Progress} (hi : s.task i = .running (.done run))
    (hjoin : x.join s i run = .ok (s', progress)) : Step x s (.join i progress) s'

/-- The acts lead from one state to the other. -/
inductive Steps (x : Executor) :
    RunState N x.pipeline → List (Act N x.pipeline) → RunState N x.pipeline → Prop
  | nil {s : RunState N x.pipeline} : Steps x s [] s
  | cons {s s' s'' : RunState N x.pipeline} {act : Act N x.pipeline}
    {acts : List (Act N x.pipeline)} (hstep : x.Step s act s') (hrest : Steps x s' acts s'') :
    Steps x s (act :: acts) s''

namespace Steps

theorem single (h : x.Step s act s') : x.Steps s [act] s' :=
  .cons h .nil

theorem trans (h : x.Steps s acts s') (h' : x.Steps s' acts' s'') :
    x.Steps s (acts ++ acts') s'' := by
  induction h with
  | nil => exact h'
  | cons hstep _ ih => exact .cons hstep (ih h')

/-- Between two parts of the acts there is a state. -/
theorem exists_between (h : x.Steps s (acts ++ acts') s'') :
    ∃ s', x.Steps s acts s' ∧ x.Steps s' acts' s'' := by
  induction acts generalizing s with
  | nil => exact ⟨s, .nil, h⟩
  | cons act acts ih =>
    cases h with
    | cons hstep hrest =>
      obtain ⟨s', hacts, hacts'⟩ := ih hrest
      exact ⟨s', .cons hstep hacts, hacts'⟩

/-- **What each step keeps of the acts so far and the state, all steps keep.** -/
theorem induction {P : List (Act N x.pipeline) → RunState N x.pipeline → Prop}
    (hstep : ∀ past s act s', P past s → x.Step s act s' → P (past ++ [act]) s')
    (past : List (Act N x.pipeline)) (hs : P past s) (h : x.Steps s acts s') :
    P (past ++ acts) s' := by
  induction h generalizing past with
  | nil => rwa [List.append_nil]
  | cons hfirst _ ih =>
    have hall := ih _ (hstep _ _ _ _ hs hfirst)
    rwa [List.append_assoc] at hall

end Steps

/-! ## The bound -/

/-- A step leaves no more tasks running than may. -/
theorem Step.bounded (h : x.Step s act s') (hs : s.inFlight ≤ x.settings.maxParallel) :
    s'.inFlight ≤ x.settings.maxParallel := by
  cases h with
  | look => exact hs
  | @start i hroom hready =>
    have hcount : (x.start s i).inFlight + (s.task i).isRunning.toNat = s.inFlight + 1 :=
      inFlight_setTask s i _
    omega
  | work hi =>
    rw [inFlight_setTask_running hi]
    exact hs
  | @join i run _ _ hi hjoin =>
    obtain ⟨rfl, -⟩ := settle_of_join hjoin
    have hcount : (s.settle i (run.settled (x.pipeline.taskAt i))).inFlight +
        (s.task i).isRunning.toNat = s.inFlight + 0 := inFlight_setTask s i _
    omega

omit [Zero N] [Add N] in
theorem initialState_inFlight : (x.initialState (N := N) inputs).inFlight = 0 := by
  unfold inFlight initialState
  simp [TaskState.isRunning]

/-- **No more tasks are running than may.** -/
theorem Steps.bounded (h : x.Steps (x.initialState inputs) acts s) :
    s.inFlight ≤ x.settings.maxParallel := by
  refine Steps.induction (P := fun _ s => s.inFlight ≤ x.settings.maxParallel)
    (fun _ _ _ _ hs hstep => hstep.bounded hs) [] ?_ h
  rw [initialState_inFlight]
  exact Nat.zero_le _

/-! ## Starts and ends -/

omit [Zero N] [Add N] in
/-- The number of times that the work on a task has ended so far. -/
def ends (s : RunState N x.pipeline) (i : x.pipeline.TaskIndex) : Nat :=
  if (s.task i).report?.isSome then 1 else 0

omit [Zero N] [Add N] in
theorem ends_of_task_eq (h : s'.task i = s.task i) : ends s' i = ends s i := by
  unfold ends
  rw [h]

omit [Zero N] [Add N] in
/-- What moves from one running state to another one does not end. -/
theorem ends_of_setTask {state : TaskState N} (hj : (s.task j).report? = none)
    (hstate : state.report? = none) : ends (s.setTask j state) i = ends s i := by
  unfold ends
  by_cases hji : j = i
  · subst hji
    rw [setTask_task_self, hj, hstate]
  · rw [setTask_task_of_ne hji]

/-- A start is that of a task that was pending, and only a start makes a task not pending. -/
theorem Step.starts_eq (h : x.Step s act s') (i : x.pipeline.TaskIndex) :
    starts s' i = starts s i + (started [act]).count i := by
  cases h with
  | look => rfl
  | work hi => exact starts_of_setTask rfl (by rw [hi]; rfl) rfl
  | join hi hjoin =>
    obtain ⟨rfl, -⟩ := settle_of_join hjoin
    exact starts_of_setTask rfl (by rw [hi]; rfl) rfl
  | @start j hroom hready =>
    obtain ⟨hpending, -⟩ := isReady_iff.mp hready
    have hstarted : started [(Act.start j : Act N x.pipeline)] = [j] := rfl
    rw [hstarted]
    by_cases hji : j = i
    · subst hji
      unfold starts
      rw [Executor.start, setTask_task_self, hpending, List.count_singleton_self]
      rfl
    · have hsame : starts (x.start s j) i = starts s i :=
        starts_of_task_eq (setTask_task_of_ne hji)
      rw [hsame, List.count_singleton, if_neg (by simpa using hji), Nat.add_zero]

/-- An end is that of a task that was running, and only an end makes a task finished. -/
theorem Step.ends_eq (h : x.Step s act s') (i : x.pipeline.TaskIndex) :
    ends s' i = ends s i + (joined [act]).count i := by
  cases h with
  | look => rfl
  | start _ hready =>
    obtain ⟨hpending, -⟩ := isReady_iff.mp hready
    exact ends_of_setTask (by rw [hpending]; rfl) rfl
  | work hi => exact ends_of_setTask (by rw [hi]; rfl) rfl
  | @join j run _ progress hi hjoin =>
    obtain ⟨rfl, -⟩ := settle_of_join hjoin
    have hjoined : joined [(Act.join j progress : Act N x.pipeline)] = [j] := rfl
    rw [hjoined]
    by_cases hji : j = i
    · subst hji
      unfold ends
      rw [settle_task_self, hi, List.count_singleton_self]
      rfl
    · have hsame : ends (s.settle j (run.settled (x.pipeline.taskAt j))) i = ends s i :=
        ends_of_task_eq (settle_task_of_ne hji)
      rw [hsame, List.count_singleton, if_neg (by simpa using hji), Nat.add_zero]

/-- Acts of a kind are counted by what they make of the state, if each step counts its own act. -/
theorem Steps.count_filterMap {f : Act N x.pipeline → Option x.pipeline.TaskIndex}
    {m : RunState N x.pipeline → Nat} (hinitial : m (x.initialState inputs) = 0)
    (hstep : ∀ {s act s'}, x.Step s act s' → m s' = m s + ([act].filterMap f).count i)
    (h : x.Steps (x.initialState inputs) acts s) : (acts.filterMap f).count i = m s := by
  refine Steps.induction (P := fun acts s => (acts.filterMap f).count i = m s)
    (fun past s act s' hs hnext => ?_) [] hinitial.symm h
  rw [List.filterMap_append, List.count_append, hs, hstep hnext]

/-- **A task was started once, or it is pending.** -/
theorem Steps.count_started (h : x.Steps (x.initialState inputs) acts s)
    (i : x.pipeline.TaskIndex) : (started acts).count i = starts s i := by
  have hinitial : starts (x.initialState (N := N) inputs) i = 0 := by
    unfold starts
    rw [initialState_task]
    rfl
  exact count_filterMap (m := fun s => starts s i) hinitial (fun hstep => hstep.starts_eq i) h

/-- **The end of a task was recorded once if it is finished**, and else never. -/
theorem Steps.count_joined (h : x.Steps (x.initialState inputs) acts s)
    (i : x.pipeline.TaskIndex) : (joined acts).count i = ends s i := by
  have hinitial : ends (x.initialState (N := N) inputs) i = 0 := by
    unfold ends
    rw [initialState_task]
    rfl
  exact count_filterMap (m := fun s => ends s i) hinitial (fun hstep => hstep.ends_eq i) h

theorem Steps.started_nodup (h : x.Steps (x.initialState inputs) acts s) :
    (started acts).Nodup := by
  refine List.nodup_iff_count_le_one.mpr fun i => ?_
  rw [h.count_started i]
  unfold starts
  split <;> omega

theorem Steps.joined_nodup (h : x.Steps (x.initialState inputs) acts s) :
    (joined acts).Nodup := by
  refine List.nodup_iff_count_le_one.mpr fun i => ?_
  rw [h.count_joined i]
  unfold ends
  split <;> omega

/-- The end of a task that is running was not recorded. -/
theorem Steps.not_mem_joined (h : x.Steps (x.initialState inputs) acts s)
    {work : Activity N (TaskRun N)} (hi : s.task i = .running work) : i ∉ joined acts := by
  rw [← List.count_eq_zero, h.count_joined i]
  unfold ends
  rw [hi]
  rfl

/-! ## The work on a task -/

omit [Zero N] [Add N] in
theorem workOn_append : workOn i (acts ++ acts') = workOn i acts ++ workOn i acts' :=
  List.filterMap_append

/-- The events are the beginning of the work on a task, and the task is where they lead to: it has
the rest of the work before it, or it is finished with the result of the whole work. -/
def Underway (x : Executor) (i : x.pipeline.TaskIndex) (work : Activity N (TaskRun N))
    (own : List (Event N)) (state : TaskState N) : Prop :=
  ∃ rest, work.Reaches own rest ∧
    (state = .running rest ∨
      ∃ run, rest = .done run ∧ state = .finished (run.settled (x.pipeline.taskAt i)))

omit [Zero N] [Add N] in
/-- A task of which the work is underway is not pending. -/
theorem Underway.ne_pending {work : Activity N (TaskRun N)} {own : List (Event N)}
    (h : x.Underway i work own (s.task i)) : s.task i ≠ .pending := by
  obtain ⟨rest, -, hi | ⟨run, -, hi⟩⟩ := h
  · rw [hi]
    nofun
  · rw [hi]
    nofun

/-- A step of a run takes the work on a task on by its events. -/
theorem Underway.step {work : Activity N (TaskRun N)} {own : List (Event N)}
    (h : x.Underway i work own (s.task i)) (hstep : x.Step s act s') :
    x.Underway i work (own ++ workOn i [act]) (s'.task i) := by
  cases hstep with
  | look cancelled =>
    have hnone : workOn i [(Act.look cancelled : Act N x.pipeline)] = [] := rfl
    rwa [hnone, List.append_nil]
  | @start j _ hready =>
    have hji : j ≠ i := by
      rintro rfl
      exact h.ne_pending (isReady_iff.mp hready).1
    have hnone : workOn i [(Act.start j : Act N x.pipeline)] = [] := rfl
    rwa [hnone, List.append_nil, Executor.start, setTask_task_of_ne hji]
  | @work j work' rest' e hj he =>
    by_cases hji : j = i
    · -- the task goes on
      subst hji
      have hown : workOn j [(Act.work j e : Act N x.pipeline)] = [e] := by simp [workOn, workOn?]
      obtain ⟨rest, hreaches, hi | ⟨run, -, hi⟩⟩ := h
      · cases hi.symm.trans hj
        rw [hown, setTask_task_self]
        exact ⟨rest', hreaches.trans he, .inl rfl⟩
      · cases hi.symm.trans hj
    · -- another task goes on
      have hnone : workOn i [(Act.work j e : Act N x.pipeline)] = [] := by
        simp [workOn, workOn?, hji]
      rwa [hnone, List.append_nil, setTask_task_of_ne hji]
  | @join j run _ progress hj hjoin =>
    obtain ⟨rfl, -⟩ := settle_of_join hjoin
    have hnone : workOn i [(Act.join j progress : Act N x.pipeline)] = [] := rfl
    rw [hnone, List.append_nil]
    by_cases hji : j = i
    · subst hji
      obtain ⟨rest, hreaches, hi | ⟨run', -, hi⟩⟩ := h
      · cases hi.symm.trans hj
        rw [settle_task_self]
        exact ⟨_, hreaches, .inr ⟨run, rfl, rfl⟩⟩
      · cases hi.symm.trans hj
    · rwa [settle_task_of_ne hji]

/-- A task may start: it is pending, there is room for it, and the parameters that it requires have
values. And what it is given are these parameters with their values, and no others. -/
structure CanStart (x : Executor) (s : RunState N x.pipeline) (i : x.pipeline.TaskIndex) : Prop where
  pending : s.task i = .pending
  room : s.inFlight < x.settings.maxParallel
  resolved : ∀ name ∈ (x.pipeline.taskAt i).required, ∃ value, s.resolved.get? name = some value
  given : ∀ name, (x.assignment s i).parameters.get? name =
    if name ∈ (x.pipeline.taskAt i).required then s.resolved.get? name else none

omit [Zero N] [Add N] in
/-- A task is given what the state has for the parameters that it requires, and nothing else. -/
theorem get?_assignment (s : RunState N x.pipeline) (i : x.pipeline.TaskIndex) (name : String) :
    (x.assignment s i).parameters.get? name =
      if name ∈ (x.pipeline.taskAt i).required then s.resolved.get? name else none := by
  refine Option.ext fun value => ?_
  unfold assignment
  dsimp only
  rw [Bindings.get?_filter_eq_some_iff, decide_eq_true_iff]
  split
  next hname => exact and_iff_left hname
  next hname => simp [hname]

omit [Zero N] [Add N] in
theorem canStart_of_isReady (hroom : s.inFlight < x.settings.maxParallel)
    (hready : x.isReady s i = true) : x.CanStart s i := by
  obtain ⟨hpending, hsupplied⟩ := isReady_iff.mp hready
  exact ⟨hpending, hroom, fun name hname => Bindings.contains_iff.mp (hsupplied name hname),
    get?_assignment s i⟩

/-- **A task is started on the values of the parameters that it requires**, and all the work on it
from then on is the work on these. -/
theorem Steps.exists_start (h : x.Steps s (acts ++ .start i :: acts') s'') :
    ∃ s', x.Steps s acts s' ∧ x.CanStart s' i ∧
      x.Underway i (x.assignment s' i).work (workOn i acts') (s''.task i) := by
  obtain ⟨s', hacts, hrest⟩ := h.exists_between
  cases hrest with
  | cons hstep hacts' =>
    cases hstep with
    | start hroom hready =>
      have hbegun : x.Underway i (x.assignment s' i).work [] ((x.start s' i).task i) := by
        rw [Executor.start, setTask_task_self]
        exact ⟨_, .refl _, .inl rfl⟩
      have hunderway := Steps.induction
        (P := fun past s => x.Underway i (x.assignment s' i).work (workOn i past) (s.task i))
        (fun past s act s'' hs hstep => by
          rw [workOn_append]
          exact hs.step hstep) [] hbegun hacts'
      exact ⟨s', hacts, canStart_of_isReady hroom hready, hunderway⟩

/-- No work is done on a task that has not started. -/
theorem Steps.workOn_eq_nil (h : x.Steps (x.initialState inputs) acts s) :
    s.task i = .pending → workOn i acts = [] := by
  refine Steps.induction (P := fun acts s => s.task i = .pending → workOn i acts = [])
    (fun past s act s' hs hstep hi => ?_) [] (fun _ => rfl) h
  rw [workOn_append]
  cases hstep with
  | look => rw [hs hi]; rfl
  | @start j =>
    by_cases hji : j = i
    · subst hji
      rw [Executor.start, setTask_task_self] at hi
      cases hi
    · rw [Executor.start, setTask_task_of_ne hji] at hi
      rw [hs hi]
      rfl
  | @work j =>
    by_cases hji : j = i
    · subst hji
      rw [setTask_task_self] at hi
      cases hi
    · rw [setTask_task_of_ne hji] at hi
      rw [hs hi]
      simp [workOn, workOn?, hji]
  | @join j run _ progress hj hjoin =>
    obtain ⟨rfl, -⟩ := settle_of_join hjoin
    by_cases hji : j = i
    · subst hji
      rw [settle_task_self] at hi
      cases hi
    · rw [settle_task_of_ne hji] at hi
      rw [hs hi]
      rfl

/-- **Whatever is done on a task is the work on it** since it was started. -/
theorem Steps.exists_start_of_work (h : x.Steps (x.initialState inputs) acts s)
    (hwork : workOn i acts ≠ []) :
    ∃ before after s₀, acts = before ++ .start i :: after ∧
      x.Steps (x.initialState inputs) before s₀ ∧ x.CanStart s₀ i ∧
      x.Underway i (x.assignment s₀ i).work (workOn i acts) (s.task i) := by
  have hcount := h.count_started i
  have hpending : (s.task i).isPending = false := by
    cases hi : s.task i with
    | pending => exact absurd (h.workOn_eq_nil hi) hwork
    | running work => rfl
    | finished report => rfl
  rw [starts, hpending] at hcount
  obtain ⟨act, hact, hstarted⟩ := List.mem_filterMap.mp
    (List.count_pos_iff.mp (hcount ▸ Nat.one_pos : 0 < (started acts).count i))
  cases act with
  | start j =>
    cases hstarted
    obtain ⟨before, after, rfl⟩ := List.append_of_mem hact
    obtain ⟨s₀, hbefore, hstart, hunderway⟩ := h.exists_start
    refine ⟨before, after, s₀, rfl, hbefore, hstart, ?_⟩
    rw [workOn_append, hbefore.workOn_eq_nil hstart.pending]
    exact hunderway
  | look => cases hstarted
  | work => cases hstarted
  | join => cases hstarted

/-! ## Where a run waits -/

/-- What a dispatch comes to, in steps; `cancelled` is what the look at the signal shows. -/
inductive Dispatches (x : Executor) (s : RunState N x.pipeline) :
    Bool → List (Act N x.pipeline) → RunState N x.pipeline → Prop
  | set : Dispatches x s true [.look true] s
  | clear {started : List x.pipeline.TaskIndex}
    (hstarted : (x.scan s x.order).2 =
      started.map fun i => .about (x.pipeline.taskAt i) .ready 0)
    (hsteps : x.Steps s (started.map .start) (x.scan s x.order).1) :
    Dispatches x s false (.look false :: started.map .start) (x.scan s x.order).1

/-- The states in which a run waits for its tasks, with the acts that led there; `cancelled` is what
its last look at the signal showed. -/
inductive Waits (x : Executor) (inputs : Bindings String) :
    List (Act N x.pipeline) → Bool → RunState N x.pipeline → Prop
  | dispatch {acts : List (Act N x.pipeline)} {cancelled : Bool} {s : RunState N x.pipeline}
    (h : x.Dispatches (x.initialState inputs) cancelled acts s) : Waits x inputs acts cancelled s
  | work {acts : List (Act N x.pipeline)} {cancelled : Bool} {s s' : RunState N x.pipeline}
    {i : x.pipeline.TaskIndex} {e : Event N} (hs : Waits x inputs acts cancelled s)
    (hstep : x.Step s (.work i e) s') : Waits x inputs (acts ++ [.work i e]) cancelled s'
  | join {acts acts' : List (Act N x.pipeline)} {cancelled cancelled' : Bool}
    {s s' s'' : RunState N x.pipeline} {i : x.pipeline.TaskIndex} {progress : Progress}
    (hs : Waits x inputs acts cancelled s) (hstep : x.Step s (.join i progress) s')
    (hdispatch : x.Dispatches s' cancelled' acts' s'') :
    Waits x inputs (acts ++ .join i progress :: acts') cancelled' s''

/-- A scan starts tasks one by one. -/
theorem scan_steps (s : RunState N x.pipeline) (is : List x.pipeline.TaskIndex) :
    ∃ started : List x.pipeline.TaskIndex,
      (x.scan s is).2 = started.map (fun i => .about (x.pipeline.taskAt i) .ready 0) ∧
        x.Steps s (started.map .start) (x.scan s is).1 := by
  induction is generalizing s with
  | nil => exact ⟨[], rfl, .nil⟩
  | cons i rest ih =>
    unfold scan
    split
    next => exact ⟨[], rfl, .nil⟩
    next hroom =>
      split
      next hready =>
        obtain ⟨started, hnotified, hsteps⟩ := ih (x.start s i)
        refine ⟨i :: started, ?_, .cons (.start (Nat.not_le.mp hroom) hready) hsteps⟩
        rw [List.map_cons, ← hnotified]
      next => exact ih s

theorem Dispatches.steps {cancelled : Bool} (h : x.Dispatches s cancelled acts s') :
    x.Steps s acts s' := by
  cases h with
  | set => exact .single (.look true)
  | clear _ hsteps => exact .cons (.look false) hsteps

theorem Waits.steps {cancelled : Bool} (h : x.Waits inputs acts cancelled s) :
    x.Steps (x.initialState inputs) acts s := by
  induction h with
  | dispatch h => exact h.steps
  | work _ hstep ih => exact ih.trans (.single hstep)
  | join _ hstep hdispatch ih => exact ih.trans (.cons hstep hdispatch.steps)

/-- A run that waits and has not seen the signal set waits because no more tasks may run, or since
no task is ready. -/
theorem Waits.stocked (horder : ∀ i, i ∈ x.order) {cancelled : Bool}
    (h : x.Waits inputs acts cancelled s) (hclear : cancelled = false) : x.Stocked s := by
  have hdispatched {cancelled : Bool} {acts : List (Act N x.pipeline)}
      {s s' : RunState N x.pipeline} (hd : x.Dispatches s cancelled acts s')
      (hclear : cancelled = false) : x.Stocked s' := by
    cases hd with
    | set => cases hclear
    | clear => exact (scan_stocked s x.order).imp id fun hall i => hall i (horder i)
  induction h with
  | dispatch h => exact hdispatched h hclear
  | work _ hstep ih =>
    cases hstep with
    | work hi => exact (ih hclear).setTask_running hi
  | join _ _ hdispatch => exact hdispatched hdispatch hclear

/-! ## Runs -/

/-- What a dispatch shows outside is that of its steps. -/
theorem Dispatched.dispatches {history : List (Event N)} (h : x.Dispatched s history s') :
    ∃ cancelled acts, x.Dispatches s cancelled acts s' ∧
      history.map (none, ·) = acts.map Act.entry := by
  rcases h with ⟨rfl, rfl⟩ | ⟨rfl, rfl⟩
  · exact ⟨true, _, .set, rfl⟩
  · obtain ⟨started, hnotified, hsteps⟩ := scan_steps s x.order
    refine ⟨false, _, .clear hnotified hsteps, ?_⟩
    rw [hnotified]
    simp [Act.entry, Function.comp_def]

/-- **A traced state is one in which the run waits**: the trace is that of the notifications at the
start and of the acts. -/
theorem Traced.waits {trace : Trace N x.pipeline} (h : x.Traced inputs trace s) :
    ∃ acts cancelled, x.Waits inputs acts cancelled s ∧
      trace = x.pipeline.tasks.map (fun task => (none, .notified (.about task .pending 0))) ++
        acts.map Act.entry := by
  induction h with
  | start hdispatch =>
    obtain ⟨cancelled, acts, hd, hentries⟩ := hdispatch.dispatches
    refine ⟨acts, cancelled, .dispatch hd, ?_⟩
    rw [List.map_append, hentries, List.map_map]
    rfl
  | move _ hmoves ih =>
    obtain ⟨acts, cancelled, hwaits, rfl⟩ := ih
    cases hmoves with
    | @proceed i _ _ e hi he =>
      refine ⟨_, cancelled, hwaits.work (.work hi he), ?_⟩
      rw [List.map_append, List.append_assoc]
      rfl
    | @join _ _ _ i _ progress hi hjoin hdispatch =>
      obtain ⟨cancelled', acts', hd, hentries⟩ := hdispatch.dispatches
      refine ⟨_, cancelled', hwaits.join (.join hi hjoin) hd, ?_⟩
      rw [List.map_append, List.map_cons, List.map_cons, hentries, List.append_assoc]
      rfl

/-- A run records the end of each task at most once, also counting an end that is an error. -/
theorem length_joined_le (h : x.Steps (x.initialState inputs) acts s) {history : List (Event N)}
    {r : Result (Outcome N)} (hends : x.Ends s history r) :
    (joined acts).length + (if r.isOk then 0 else 1) ≤ x.pipeline.tasks.length := by
  have hle {l : List x.pipeline.TaskIndex} (hnodup : l.Nodup) :
      l.length ≤ x.pipeline.tasks.length := by
    simpa using hnodup.length_le_card
  cases hends with
  | close => exact hle h.joined_nodup
  | fail hi =>
    -- the task whose end is an error is running, so its end was not recorded
    exact hle (List.nodup_cons.mpr ⟨h.not_mem_joined hi, h.joined_nodup⟩)

/-- **A run is safe and wastes no room.** Let the pipeline be accepted, with room for `m` tasks. In
every state that a run reaches, step by step, at most `m` tasks are running, and each task was
started at most once: in a state in which it was pending, there was room, and all parameters that it
requires had values; and it was given exactly these, and all work on it is the work on them. Where
the run waits for its tasks and its last look at the signal did not find it set, `m` tasks are
running, or each pending task lacks a value that it requires. A run that ends, whatever the
schedule, comes to its last state in this way and waits for the end of each task at most once; and
in every environment a run ends. -/
theorem scheduler_safe {p : Pipeline} {tools : Tools} {settings : ExecutionSettings} {x : Executor}
    (hx : ofPipeline p tools settings = .ok x) (inputs : Bindings String) :
    (∀ (acts : List (Act N x.pipeline)) (s : RunState N x.pipeline),
      x.Steps (x.initialState inputs) acts s →
        s.inFlight ≤ settings.maxParallel ∧ (started acts).Nodup ∧ (joined acts).Nodup ∧
        ∀ before i after, acts = before ++ .start i :: after →
          ∃ s₀, x.Steps (x.initialState inputs) before s₀ ∧ x.CanStart s₀ i ∧
            x.Underway i (x.assignment s₀ i).work (workOn i after) (s.task i)) ∧
    (∀ (acts : List (Act N x.pipeline)) (cancelled : Bool) (s : RunState N x.pipeline),
      x.Waits inputs acts cancelled s →
        x.Steps (x.initialState inputs) acts s ∧
        (cancelled = false → s.inFlight = settings.maxParallel ∨
          ∀ i, s.task i = .pending →
            ∃ name ∈ (x.pipeline.taskAt i).required, s.resolved.get? name = none)) ∧
    (∀ (schedule : Schedule) (history : List (Event N)) (r : Result (Outcome N)),
      (x.execute schedule inputs).Reaches history (.done r) →
        ∃ acts cancelled s closing,
          history = x.pipeline.tasks.map (fun task => .notified (.about task .pending 0)) ++
            acts.map (·.entry.2) ++ closing ∧
          x.Waits inputs acts cancelled s ∧ x.Ends s closing r ∧
          (joined acts).length + (if r.isOk then 0 else 1) ≤ x.pipeline.tasks.length) ∧
    ∀ (schedule : Schedule) {σ : Type} (env : Environment (StateM σ) N) (start : σ),
      ∃ history, (x.execute schedule inputs).Reaches history
        (.done (((x.execute schedule inputs).run env).run start).1) := by
  obtain ⟨order, rfl, haccepted⟩ := accepted_of_ofPipeline hx
  refine ⟨fun acts s hsteps => ?_, fun acts cancelled s hwaits => ?_,
    fun schedule history r hrun => ?_, fun schedule σ env start => ?_⟩
  · refine ⟨hsteps.bounded, hsteps.started_nodup, hsteps.joined_nodup, ?_⟩
    rintro before i after rfl
    exact hsteps.exists_start
  · refine ⟨hwaits.steps, fun hclear => ?_⟩
    rcases hwaits.stocked haccepted.order.mem hclear with hfull | hnone
    · exact .inl (Nat.le_antisymm hwaits.steps.bounded hfull)
    · refine .inr fun i hi => ?_
      by_contra hall
      push Not at hall
      have hready : isReady _ s i = true := isReady_iff.mpr ⟨hi, fun name hname =>
        Bindings.contains_iff.mpr (Option.ne_none_iff_exists'.mp (hall name hname))⟩
      rw [hnone i] at hready
      cases hready
  · obtain ⟨trace, closing, s, rfl, htraced, hends⟩ := exists_traced hrun
    obtain ⟨acts, cancelled, hwaits, rfl⟩ := htraced.waits
    refine ⟨acts, cancelled, s, closing, ?_, hwaits, hends, length_joined_le hwaits.steps hends⟩
    simp [Function.comp_def]
  · obtain ⟨history, hreaches, -⟩ :=
      Activity.exists_reaches_run env (execute ⟨p, tools, settings, order⟩ schedule inputs) start
    exact ⟨history, hreaches⟩

/-- Without a city and without tools, a run of the small pipeline stays below its bounds. -/
theorem greetings_scheduled :
    ∃ (x : Executor) (acts : List (Act Nat x.pipeline)) (cancelled : Bool)
      (s : RunState Nat x.pipeline),
      ofPipeline .greetings .none {} = .ok x ∧
      x.Waits (.ofList [("name", "Ada")]) acts cancelled s ∧ s.inFlight ≤ 5 ∧
      (joined acts).length ≤ 2 := by
  obtain ⟨x, hx⟩ : ∃ x, ofPipeline .greetings .none {} = .ok x := ⟨_, by cbv⟩
  obtain ⟨hstates, hwaiting, hruns, hends⟩ :=
    scheduler_safe (N := Nat) hx (.ofList [("name", "Ada")])
  obtain ⟨history, hreaches⟩ := hends .firstTask .refusing ()
  obtain ⟨acts, cancelled, s, _, -, hwaits, -, hjoined⟩ := hruns _ _ _ hreaches
  obtain ⟨hsteps, -⟩ := hwaiting acts cancelled s hwaits
  obtain ⟨hbounded, -⟩ := hstates acts s hsteps
  obtain ⟨order, rfl, -⟩ := accepted_of_ofPipeline hx
  exact ⟨_, acts, cancelled, s, hx, hwaits, hbounded, Nat.le_trans (Nat.le_add_right _ _) hjoined⟩

end Executor

end PromptPipeline
