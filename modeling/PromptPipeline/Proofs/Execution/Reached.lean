import PromptPipeline.Execution.Scheduler
import PromptPipeline.Proofs.Execution.History
import PromptPipeline.Proofs.Execution.Settlement

/-!
# The states that a run reaches

A run is an activity, and its ticks hide the states that it goes through. `Reached` brings them out:
the states at the ticks of some run, each with the history that led to it. There are three ways on:
the first dispatch, one interaction of a task, and the end of the work on a task with the dispatch
after it. The schedule is gone, since any running task may be the next.

`Traced` says the same with the tasks to which the events belong.

* `exists_traced`: every complete history of a run passes through a traced state after which only
  the end of the run follows.
* `scan_induction`: a scan starts ready tasks, one after the other, and does nothing else.
-/

namespace PromptPipeline

namespace Executor

variable {N : Type} [Zero N] [Add N] {x : Executor}

/-! ## Scans -/

omit [Zero N] [Add N] in
/-- A task is ready if it waits and every parameter that it requires has a value. -/
theorem isReady_iff {s : RunState N x.pipeline} {i : x.pipeline.TaskIndex} :
    x.isReady s i = true ↔
      s.task i = .pending ∧
        ∀ name ∈ (x.pipeline.taskAt i).required, s.resolved.contains name := by
  show ((s.task i).isPending && (x.pipeline.taskAt i).required.toList.all s.resolved.contains) =
    true ↔ _
  rw [Bool.and_eq_true, List.all_eq_true]
  cases s.task i <;> simp [TaskState.isPending, NameSet.mem_def]

/-- What holds before a scan and outlives the start of a ready task holds after the scan. -/
theorem scan_induction {P : List Progress → RunState N x.pipeline → Prop}
    {s : RunState N x.pipeline} (is : List x.pipeline.TaskIndex) (started : List Progress)
    (h : P started s)
    (hstart : ∀ started s i, P started s → x.isReady s i = true →
      P (started ++ [.about (x.pipeline.taskAt i) .ready 0]) (x.start s i)) :
    P (started ++ (x.scan s is).2) (x.scan s is).1 := by
  induction is generalizing s started with
  | nil => simpa [scan] using h
  | cons i rest ih =>
    unfold scan
    split
    next => simpa using h
    next =>
      split
      next hready =>
        have hrest := ih (started ++ [.about (x.pipeline.taskAt i) .ready 0])
          (hstart started s i h hready)
        rwa [List.append_assoc] at hrest
      next => exact ih started h

omit [Zero N] [Add N] in
/-- At first every task waits. -/
theorem initialState_task (inputs : Bindings String) (i : x.pipeline.TaskIndex) :
    (x.initialState (N := N) inputs).task i = .pending := by
  show (x.initialState (N := N) inputs).tasks[i] = .pending
  simp [initialState]

/-! ## Ticks -/

/-- What a dispatch comes to: nothing if the signal is set, else a scan of all tasks. -/
def Dispatched (x : Executor) (s : RunState N x.pipeline) (history : List (Event N))
    (s' : RunState N x.pipeline) : Prop :=
  (history = [.looked true] ∧ s' = s) ∨
    (history = .looked false :: (x.scan s x.order).2.map .notified ∧ s' = (x.scan s x.order).1)

theorem reaches_dispatch {α : Type} {s : RunState N x.pipeline}
    {next : {s' : RunState N x.pipeline // s' = s ∨ s'.Later s} → Activity N α}
    {history : List (Event N)} {r : α} (h : (x.dispatch s next).Reaches history (.done r)) :
    ∃ h₁ h₂ s', history = h₁ ++ h₂ ∧ x.Dispatched s h₁ s'.1 ∧ (next s').Reaches h₂ (.done r) := by
  unfold dispatch at h
  cases h with
  | @looked _ b _ _ h =>
    cases b with
    | true => exact ⟨[.looked true], _, ⟨s, .inl rfl⟩, rfl, .inl ⟨rfl, rfl⟩, h⟩
    | false =>
      obtain ⟨h₂, rfl, hrest⟩ := Activity.reaches_notifyAll_iff.mp h
      exact ⟨_ :: _, h₂, ⟨_, x.scan_later⟩, rfl, .inr ⟨rfl, rfl⟩, hrest⟩

/-- What a tick comes to: an interaction of a running task, the end of the work on one, an error
that ends the run, or the end of the run since no task is running. -/
inductive Ticked (x : Executor) (s : RunState N x.pipeline) :
    List (Event N) → x.Tick s → Prop
  | proceed {i : x.pipeline.TaskIndex} {work rest : Activity N (TaskRun N)} {e : Event N}
      (hi : s.task i = .running work) (he : work.Reaches [e] rest)
      (later : (s.setTask i (.running rest)).Later s) :
      Ticked x s [e] (.proceed _ later)
  | join {i : x.pipeline.TaskIndex} {run : TaskRun N} {s' s'' : RunState N x.pipeline}
      {progress : Progress} {history : List (Event N)} (hi : s.task i = .running (.done run))
      (hjoin : x.join s i run = .ok (s', progress)) (hdispatch : x.Dispatched s' history s'')
      (later : s''.Later s) :
      Ticked x s (.notified progress :: history) (.proceed s'' later)
  | fail {i : x.pipeline.TaskIndex} {run : TaskRun N} {e : PipelineError}
      (hi : s.task i = .running (.done run)) (hjoin : x.join s i run = .error e) :
      Ticked x s [] (.finished (.error e))
  | close {history : List (Event N)} {o : Outcome N} (hidle : s.running = [])
      (hclose : (x.close s).Reaches history (.done o)) :
      Ticked x s history (.finished (.ok o))

theorem tick_ticked {s : RunState N x.pipeline} {choice : Nat} {history : List (Event N)}
    {t : x.Tick s} (h : (x.tick s choice).Reaches history (.done t)) : x.Ticked s history t := by
  unfold tick at h
  split at h
  -- The schedule finds nobody to choose from.
  next hnone =>
    have hidle : s.running = [] := by
      refine Classical.byContradiction fun hne => ?_
      have hlt := Nat.mod_lt choice (List.length_pos_iff.mpr hne)
      rw [List.getElem?_eq_getElem hlt] at hnone
      cases hnone
    obtain ⟨h₁, h₂, o, rfl, hclose, hrest⟩ := Activity.reaches_bind_iff.mp h
    obtain ⟨rfl, heq⟩ := Activity.reaches_done_iff.mp hrest
    cases heq
    rw [List.append_nil]
    exact .close hidle hclose
  next i hsome =>
    obtain ⟨work, hwork⟩ := RunState.mem_running_iff.mp (List.mem_of_getElem? hsome)
    dsimp only at h
    split at h
    -- The work on the chosen task is done, or it waits for one of three things to happen.
    next run hi =>
      split at h
      next e hjoin =>
        obtain ⟨rfl, heq⟩ := Activity.reaches_done_iff.mp h
        cases heq
        exact .fail hi hjoin
      next s' progress hjoin =>
        cases h with
        | notified h =>
          obtain ⟨h₁, h₂, s'', rfl, hdispatch, hrest⟩ := reaches_dispatch h
          obtain ⟨rfl, heq⟩ := Activity.reaches_done_iff.mp hrest
          cases heq
          rw [List.append_nil]
          exact .join hi hjoin hdispatch _
    next next hi =>
      cases h with
      | looked h =>
        obtain ⟨rfl, heq⟩ := Activity.reaches_done_iff.mp h
        cases heq
        exact .proceed hi (.looked (.refl _)) _
    next p next hi =>
      cases h with
      | notified h =>
        obtain ⟨rfl, heq⟩ := Activity.reaches_done_iff.mp h
        cases heq
        exact .proceed hi (.notified (.refl _)) _
    next c next hi =>
      cases h with
      | answered h =>
        obtain ⟨rfl, heq⟩ := Activity.reaches_done_iff.mp h
        cases heq
        exact .proceed hi (.answered (.refl _)) _
    -- A task that is not running is not chosen.
    next hi => cases hwork.symm.trans hi
    next hi => cases hwork.symm.trans hi

/-! ## Runs -/

/-- The states at the ticks of a run on the inputs, with the history up to them. -/
inductive Reached (x : Executor) (inputs : Bindings String) :
    List (Event N) → RunState N x.pipeline → Prop
  | start {history : List (Event N)} {s : RunState N x.pipeline}
      (hdispatch : x.Dispatched (x.initialState inputs) history s) :
      Reached x inputs
        (x.pipeline.tasks.map (fun task => .notified (.about task .pending 0)) ++ history) s
  | proceed {history : List (Event N)} {s : RunState N x.pipeline} {i : x.pipeline.TaskIndex}
      {work rest : Activity N (TaskRun N)} {e : Event N} (hs : Reached x inputs history s)
      (hi : s.task i = .running work) (he : work.Reaches [e] rest) :
      Reached x inputs (history ++ [e]) (s.setTask i (.running rest))
  | join {history h : List (Event N)} {s s' s'' : RunState N x.pipeline}
      {i : x.pipeline.TaskIndex} {run : TaskRun N} {progress : Progress}
      (hs : Reached x inputs history s) (hi : s.task i = .running (.done run))
      (hjoin : x.join s i run = .ok (s', progress)) (hdispatch : x.Dispatched s' h s'') :
      Reached x inputs (history ++ .notified progress :: h) s''

/-- How a run ends after its last state: no task is running, or an error of the engine ends it. -/
inductive Ends (x : Executor) (s : RunState N x.pipeline) :
    List (Event N) → Result (Outcome N) → Prop
  | close {history : List (Event N)} {o : Outcome N} (hidle : s.running = [])
      (hclose : (x.close s).Reaches history (.done o)) : Ends x s history (.ok o)
  | fail {i : x.pipeline.TaskIndex} {run : TaskRun N} {e : PipelineError}
      (hi : s.task i = .running (.done run)) (hjoin : x.join s i run = .error e) :
      Ends x s [] (.error e)

/-- The events of a run, each with the task in whose work it happens; the others are the run's
own. -/
abbrev Trace (N : Type) (p : Pipeline) := List (Option p.TaskIndex × Event N)

/-- What a tick does that does not end the run: an interaction of a running task, or the end of the
work on one with the dispatch after it. -/
inductive Moves (x : Executor) (s : RunState N x.pipeline) :
    Trace N x.pipeline → RunState N x.pipeline → Prop
  | proceed {i : x.pipeline.TaskIndex} {work rest : Activity N (TaskRun N)} {e : Event N}
      (hi : s.task i = .running work) (he : work.Reaches [e] rest) :
      Moves x s [(some i, e)] (s.setTask i (.running rest))
  | join {h : List (Event N)} {s' s'' : RunState N x.pipeline} {i : x.pipeline.TaskIndex}
      {run : TaskRun N} {progress : Progress} (hi : s.task i = .running (.done run))
      (hjoin : x.join s i run = .ok (s', progress)) (hdispatch : x.Dispatched s' h s'') :
      Moves x s ((.notified progress :: h).map (none, ·)) s''

/-- The states at the ticks of a run on the inputs, with the trace up to them. -/
inductive Traced (x : Executor) (inputs : Bindings String) :
    Trace N x.pipeline → RunState N x.pipeline → Prop
  | start {history : List (Event N)} {s : RunState N x.pipeline}
      (hdispatch : x.Dispatched (x.initialState inputs) history s) :
      Traced x inputs
        ((x.pipeline.tasks.map (fun task => Event.notified (.about task .pending 0)) ++
          history).map (none, ·)) s
  | move {trace t : Trace N x.pipeline} {s s' : RunState N x.pipeline}
      (hs : Traced x inputs trace s) (h : x.Moves s t s') : Traced x inputs (trace ++ t) s'

/-- To forget the tasks leaves a history. -/
theorem Traced.reached {inputs : Bindings String} {trace : Trace N x.pipeline}
    {s : RunState N x.pipeline} (h : x.Traced inputs trace s) :
    x.Reached inputs (trace.map (·.2)) s := by
  induction h with
  | start hdispatch => simpa [Function.comp_def] using Reached.start hdispatch
  | move _ h ih =>
    rw [List.map_append]
    cases h with
    | proceed hi he => exact .proceed ih hi he
    | join hi hjoin hdispatch =>
      have hreached := Reached.join ih hi hjoin hdispatch
      simpa [Function.comp_def] using hreached

theorem exists_traced_of_ticks {inputs : Bindings String} {schedule : Schedule} {time : Nat}
    {s : RunState N x.pipeline} {past : Trace N x.pipeline} {history : List (Event N)}
    {r : Result (Outcome N)} (hs : x.Traced inputs past s)
    (h : (x.ticks schedule time s).Reaches history (.done r)) :
    ∃ t h₂ s', history = t.map (·.2) ++ h₂ ∧ x.Traced inputs (past ++ t) s' ∧ x.Ends s' h₂ r := by
  -- The recursion of `ticks` is on the order of states in which later ones are smaller.
  induction s using RunState.later_wellFounded.induction generalizing time past history with
  | _ s ih =>
    rw [ticks] at h
    obtain ⟨h₁, h₂, t, rfl, htick, hrest⟩ := Activity.reaches_bind_iff.mp h
    have hnext {t : Trace N x.pipeline} {s' : RunState N x.pipeline} (hmoves : x.Moves s t s')
        (later : s'.Later s)
        (hrest : (x.ticks schedule (time + 1) s').Reaches h₂ (.done r)) :
        ∃ t' h₃ s'', t.map (·.2) ++ h₂ = t'.map (·.2) ++ h₃ ∧ x.Traced inputs (past ++ t') s'' ∧
          x.Ends s'' h₃ r := by
      obtain ⟨t', h₃, s'', rfl, htraced, hends⟩ := ih s' later (.move hs hmoves) hrest
      refine ⟨t ++ t', h₃, s'', ?_, ?_, hends⟩
      · rw [List.map_append, List.append_assoc]
      · rwa [List.append_assoc] at htraced
    cases tick_ticked htick with
    | proceed hi he later => exact hnext (.proceed hi he) later hrest
    | join hi hjoin hdispatch later =>
      have hjoined := hnext (.join hi hjoin hdispatch) later hrest
      simpa [Function.comp_def] using hjoined
    | fail hi hjoin =>
      obtain ⟨rfl, heq⟩ := Activity.reaches_done_iff.mp hrest
      cases heq
      exact ⟨[], [], s, rfl, by rwa [List.append_nil], .fail hi hjoin⟩
    | close hidle hclose =>
      obtain ⟨rfl, heq⟩ := Activity.reaches_done_iff.mp hrest
      cases heq
      exact ⟨[], _, s, List.append_nil _, by rwa [List.append_nil], .close hidle hclose⟩

/-- **A run passes through traced states**: every complete history of a run leads to a traced state
and goes on from there with the end of the run. -/
theorem exists_traced {schedule : Schedule} {inputs : Bindings String} {history : List (Event N)}
    {r : Result (Outcome N)} (h : (x.execute schedule inputs).Reaches history (.done r)) :
    ∃ trace h₂ s, history = trace.map (·.2) ++ h₂ ∧ x.Traced inputs trace s ∧ x.Ends s h₂ r := by
  unfold execute at h
  obtain ⟨h', rfl, hrest⟩ := Activity.reaches_notifyAll_iff.mp h
  obtain ⟨h₁, h₂, s, rfl, hdispatch, hticks⟩ := reaches_dispatch hrest
  obtain ⟨t, h₃, s', rfl, htraced, hends⟩ := exists_traced_of_ticks (.start hdispatch) hticks
  refine ⟨_, h₃, s', ?_, htraced, hends⟩
  simp [List.map_map, Function.comp_def]

theorem exists_reached {schedule : Schedule} {inputs : Bindings String} {history : List (Event N)}
    {r : Result (Outcome N)} (h : (x.execute schedule inputs).Reaches history (.done r)) :
    ∃ h₁ h₂ s, history = h₁ ++ h₂ ∧ x.Reached inputs h₁ s ∧ x.Ends s h₂ r := by
  obtain ⟨trace, h₂, s, rfl, htraced, hends⟩ := exists_traced h
  exact ⟨_, h₂, s, rfl, htraced.reached, hends⟩

end Executor

end PromptPipeline
