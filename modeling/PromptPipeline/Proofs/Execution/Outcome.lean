import Mathlib
import PromptPipeline.Proofs.Document.Validation
import PromptPipeline.Proofs.Execution.Invariants

/-!
# What a run comes to

An executor is only built of a valid pipeline and of settings that can be used
(`accepted_of_ofPipeline`). Its runs end in one of two ways: with the reports of a last state in
which no task is running (`exists_final`), or with an internal error. In the last state of a run
that was not cancelled each task is finished, or waits for a parameter that gets no value
(`exists_complete`). With adapters that keep their promises the error is always that of a
placeholder (`exists_placeholder`): no parameter gets two values, and every task that starts is
attempted.
-/

namespace PromptPipeline

variable {N : Type}

namespace Executor

open RunState

variable [Zero N] [Add N] {x : Executor} {E : Event N → Prop} {inputs : Bindings String}
  {s s' : RunState N x.pipeline} {i j : x.pipeline.TaskIndex} {history : List (Event N)}

/-- What an executor rests on. -/
structure Accepted (x : Executor) : Prop where
  wellFormed : x.pipeline.WellFormed none
  attempts : 0 < x.settings.maxAttempts
  parallel : 0 < x.settings.maxParallel
  order : x.pipeline.graph.IsTopological x.order

/-- Whatever executor is built is one of the pipeline, the tools and the settings, and is
accepted. -/
theorem accepted_of_ofPipeline {p : Pipeline} {tools : Tools} {settings : ExecutionSettings}
    (h : ofPipeline p tools settings = .ok x) :
    ∃ order, x = ⟨p, tools, settings, order⟩ ∧ x.Accepted := by
  unfold ofPipeline at h
  obtain ⟨hsettings, h⟩ := then_eq_ok_iff.mp h
  obtain ⟨v, hvalid, h⟩ := bind_eq_ok_iff.mp h
  obtain ⟨order, horder, h⟩ := bind_eq_ok_iff.mp h
  cases h
  have hvalidate : p.validate none = .ok v := by
    cases hv : p.validate none with
    | error e => simp [hv, Except.mapError] at hvalid
    | ok v' => simpa [hv, Except.mapError] using hvalid
  have hexecution : p.executionOrder = .ok order := by
    cases ho : p.executionOrder with
    | error e => simp [ho, Except.mapError] at horder
    | ok order' => simpa [ho, Except.mapError] using horder
  have hcheck : settings.maxAttempts ≠ 0 ∧ settings.maxParallel ≠ 0 := by
    unfold ExecutionSettings.check at hsettings
    split at hsettings
    next => cases hsettings
    next hattempts =>
      split at hsettings
      next => cases hsettings
      next hparallel => exact ⟨hattempts, hparallel⟩
  exact ⟨order, rfl, .of_validate hvalidate, Nat.pos_of_ne_zero hcheck.1,
    Nat.pos_of_ne_zero hcheck.2, Pipeline.executionOrder_isTopological hexecution⟩

/-- The values that a run starts with are those of declared inputs. -/
theorem declaredInputs_get?_eq_some_iff {name value : String} :
    (x.declaredInputs inputs).get? name = some value ↔
      inputs.get? name = some value ∧
        ∃ q, x.pipeline.parameter? name = some q ∧ q.isInput = true := by
  unfold declaredInputs
  rw [Bindings.get?_filter_eq_some_iff]
  cases x.pipeline.parameter? name <;> simp

/-- Where names are unique, a name is that of an input if looking it up finds one. -/
theorem Accepted.any_inputs_iff (hx : x.Accepted) {name : String} :
    x.pipeline.inputs.any (·.name == name) = true ↔
      ∃ q, x.pipeline.parameter? name = some q ∧ q.isInput = true := by
  rw [List.any_eq_true, Pipeline.inputs]
  simp only [List.mem_filter, beq_iff_eq,
    Pipeline.parameter?_eq_some_iff hx.wellFormed.parameters_nodup]
  constructor
  · rintro ⟨q, ⟨hq, hin⟩, hname⟩
    exact ⟨q, ⟨hq, hname⟩, hin⟩
  · rintro ⟨q, ⟨hq, hname⟩, hin⟩
    exact ⟨q, ⟨hq, hin⟩, hname⟩

theorem Accepted.declaredInputs_eq (hx : x.Accepted) (inputs : Bindings String) :
    x.declaredInputs inputs =
      inputs.filter fun name _ => x.pipeline.inputs.any (·.name == name) := by
  refine Bindings.ext fun name => Option.ext fun value => ?_
  rw [declaredInputs_get?_eq_some_iff, Bindings.get?_filter_eq_some_iff, hx.any_inputs_iff]

/-! ## The end of a run -/

omit [Add N] in
theorem closingReport_of_finished {report : TaskReport N} {cancelled : Bool}
    (hi : s.task i = .finished report) : x.closingReport s cancelled i = (report, []) := by
  have hstate : s.tasks[i] = .finished report := hi
  unfold closingReport
  rw [hstate]

omit [Add N] in
theorem closingReport_of_pending {cancelled : Bool} (hi : s.task i = .pending) :
    x.closingReport s cancelled i =
      ({ TaskReport.ofTask (x.pipeline.taskAt i) with
          status := if cancelled then .cancelled else .skipped },
        [.about (x.pipeline.taskAt i) (if cancelled then .cancelled else .skipped) 0]) := by
  have hstate : s.tasks[i] = .pending := hi
  unfold closingReport
  rw [hstate]

/-- The reports of all tasks at the end of a run. -/
def closingReports (s : RunState N x.pipeline) (cancelled : Bool) : List (TaskReport N) :=
  (List.finRange _).map fun i => (x.closingReport s cancelled i).1

omit [Add N] in
theorem closingReports_getElem? (s : RunState N x.pipeline) (cancelled : Bool)
    (i : x.pipeline.TaskIndex) :
    (closingReports s cancelled)[i.val]? = some (x.closingReport s cancelled i).1 := by
  simp [closingReports]

/-- The outputs are the values of the declared outputs. -/
theorem outcome_outputs_get?_iff {cancelled : Bool} {reports : List (TaskReport N)}
    {name value : String} :
    (x.outcome s cancelled reports).report.outputs.get? name = some value ↔
      s.resolved.get? name = some value ∧
        ∃ q ∈ x.pipeline.parameters, q.name = name ∧ q.isOutput = true := by
  unfold outcome
  dsimp only
  rw [Bindings.get?_filter_eq_some_iff, List.contains_iff_mem, List.mem_map]
  simp only [Pipeline.outputs, List.mem_filter]
  refine and_congr_right fun _ => exists_congr fun q => ?_
  constructor
  · rintro ⟨⟨hq, hout⟩, hname⟩
    exact ⟨hq, hname, hout⟩
  · rintro ⟨hq, hname, hout⟩
    exact ⟨⟨hq, hout⟩, hname⟩

/-- What a run announces at its end. -/
def closings (s : RunState N x.pipeline) (cancelled : Bool) : List Progress :=
  (List.finRange _).flatMap fun i => (x.closingReport s cancelled i).2

omit [Add N] in
/-- The end of a run starts no task. -/
theorem closings_quiet (s : RunState N x.pipeline) (cancelled : Bool) :
    ∀ progress ∈ closings s cancelled, progress.status ≠ .ready := by
  intro p hp
  obtain ⟨i, -, hp⟩ := List.mem_flatMap.mp hp
  unfold closingReport at hp
  split at hp
  next => cases hp
  next =>
    rw [List.mem_singleton.mp hp]
    cases cancelled <;> simp [Progress.about]

/-- A run is closed with one look at the signal, and the announcements after it. -/
theorem reaches_close {o : Outcome N} (h : (x.close s).Reaches history (.done o)) :
    ∃ cancelled, history = .looked cancelled :: (closings s cancelled).map .notified ∧
      o = x.outcome s cancelled (closingReports s cancelled) := by
  unfold close at h
  cases h with
  | @looked _ cancelled _ _ h =>
    obtain ⟨h', rfl, hdone⟩ := Activity.reaches_notifyAll_iff.mp h
    obtain ⟨rfl, heq⟩ := Activity.reaches_done_iff.mp hdone
    cases heq
    refine ⟨cancelled, ?_, by rw [List.map_map]; rfl⟩
    rw [List.append_nil, List.flatMap_map]
    rfl

/-- **A run that returns an outcome** goes through traced states up to a last one in which no task
is running, looks at the signal once more and comes to the outcome of this state. -/
theorem exists_closed {schedule : Schedule} {o : Outcome N}
    (h : (x.execute schedule inputs).Reaches history (.done (.ok o))) :
    ∃ (trace : Trace N x.pipeline) (cancelled : Bool) (s : RunState N x.pipeline),
      history = trace.map (·.2) ++ .looked cancelled :: (closings s cancelled).map .notified ∧
      x.Traced inputs trace s ∧ s.running = [] ∧
      o = x.outcome s cancelled (closingReports s cancelled) := by
  obtain ⟨trace, h₂, s, rfl, htraced, hends⟩ := exists_traced h
  cases hends with
  | close hidle hclose =>
    obtain ⟨cancelled, rfl, ho⟩ := reaches_close hclose
    exact ⟨trace, cancelled, s, rfl, htraced, hidle, ho⟩

/-- What is announced at the end of a run is no start. -/
theorem exists_last {schedule : Schedule} {o : Outcome N}
    (h : (x.execute schedule inputs).Reaches history (.done (.ok o))) :
    ∃ (trace : Trace N x.pipeline) (cancelled : Bool) (s : RunState N x.pipeline)
      (closing : List Progress),
      history = trace.map (·.2) ++ .looked cancelled :: closing.map .notified ∧
      (∀ progress ∈ closing, progress.status ≠ .ready) ∧ x.Traced inputs trace s ∧
      s.running = [] ∧ o = x.outcome s cancelled (closingReports s cancelled) := by
  obtain ⟨trace, cancelled, s, hhistory, htraced, hidle, ho⟩ := exists_closed h
  exact ⟨trace, cancelled, s, _, hhistory, closings_quiet s cancelled, htraced, hidle, ho⟩

/-- The end of a run starts no task. -/
theorem Traced.countP_starts (hx : x.Accepted) {trace : Trace N x.pipeline}
    (h : x.Traced inputs trace s) {cancelled : Bool} {closing : List Progress}
    (hquiet : ∀ progress ∈ closing, progress.status ≠ .ready) (i : x.pipeline.TaskIndex) :
    List.countP (Event.starts (x.pipeline.taskAt i))
      (trace.map (·.2) ++ .looked cancelled :: closing.map .notified) = starts s i := by
  rw [List.countP_append, List.countP_cons_of_neg (by simp [Event.starts]),
    countP_starts_eq_zero _ hquiet]
  exact h.reached.countP_starts (fun _ _ => hx.wellFormed.name_injective) i

/-- A task was started once, or is pending in the last state. -/
theorem exists_final (hx : x.Accepted) {schedule : Schedule} {o : Outcome N}
    (h : (x.execute schedule inputs).Reaches history (.done (.ok o))) :
    ∃ (past : List (Event N)) (cancelled : Bool) (s : RunState N x.pipeline),
      x.Reached inputs past s ∧ s.running = [] ∧
      o = x.outcome s cancelled (closingReports s cancelled) ∧
      (∀ e ∈ past, e ∈ history) ∧ .looked cancelled ∈ history ∧
      ∀ i, history.countP (Event.starts (x.pipeline.taskAt i)) = starts s i := by
  obtain ⟨trace, cancelled, s, closing, rfl, hquiet, htraced, hidle, ho⟩ := exists_last h
  exact ⟨_, cancelled, s, htraced.reached, hidle, ho, fun e he => List.mem_append_left _ he,
    List.mem_append_right _ List.mem_cons_self, htraced.countP_starts hx hquiet⟩

omit [Zero N] [Add N] in
/-- In a state in which no task is running, a task waits or is finished. -/
theorem pending_or_finished_of_idle (hidle : s.running = []) (i : x.pipeline.TaskIndex) :
    s.task i = .pending ∨ ∃ report, s.task i = .finished report := by
  cases hi : s.task i with
  | pending => exact .inl rfl
  | finished report => exact .inr ⟨report, rfl⟩
  | running work =>
    have hmem := mem_running_iff.mpr ⟨work, hi⟩
    rw [hidle] at hmem
    cases hmem

omit [Add N] in
/-- When no task is running, the closing report of a task is the one that it is finished with, or
says that it did not succeed. -/
theorem closingReport_cases (hidle : s.running = []) (cancelled : Bool)
    (i : x.pipeline.TaskIndex) :
    s.task i = .finished (x.closingReport s cancelled i).1 ∨
      s.task i = .pending ∧ (x.closingReport s cancelled i).1.status ≠ .succeeded := by
  rcases pending_or_finished_of_idle hidle i with hi | ⟨report, hi⟩
  · refine .inr ⟨hi, ?_⟩
    rw [closingReport_of_pending hi]
    cases cancelled <;> simp
  · rw [closingReport_of_finished hi]
    exact .inl hi

/-- At the end of a run, a task that was started is finished, with the report that the outcome
gives back. -/
theorem Traced.exists_report (hx : x.Accepted) {trace : Trace N x.pipeline}
    (h : x.Traced inputs trace s) (hidle : s.running = []) {cancelled : Bool}
    {closing : List Progress} (hquiet : ∀ progress ∈ closing, progress.status ≠ .ready)
    (hstarted : 0 < List.countP (Event.starts (x.pipeline.taskAt i))
      (trace.map (·.2) ++ .looked cancelled :: closing.map .notified)) :
    ∃ report, s.task i = .finished report ∧
      (x.outcome s cancelled (closingReports s cancelled)).report.tasks[i.val]? = some report := by
  rw [h.countP_starts hx hquiet, starts] at hstarted
  rcases pending_or_finished_of_idle hidle i with hi | ⟨report, hi⟩
  · rw [hi] at hstarted
    exact absurd hstarted (Nat.lt_irrefl 0)
  · refine ⟨report, hi, ?_⟩
    show (closingReports s cancelled)[i.val]? = some report
    rw [closingReports_getElem?, closingReport_of_finished hi]

/-- The task is finished, or waits and cannot start. -/
def Complete (x : Executor) (s : RunState N x.pipeline) (i : x.pipeline.TaskIndex) : Prop :=
  (∃ report, s.task i = .finished report) ∨ (s.task i = .pending ∧ x.isReady s i = false)

/-- When no task is running and the signal was not set, every task is complete. -/
theorem complete_of_idle (hx : x.Accepted) (h : x.Reached inputs history s)
    (hset : .looked true ∉ history) (hidle : s.running = []) (i : x.pipeline.TaskIndex) :
    x.Complete s i := by
  rcases pending_or_finished_of_idle hidle i with hi | hi
  · exact .inr ⟨hi, (h.stocked hx.order.mem hset).of_idle hx.parallel hidle i⟩
  · exact .inl hi

/-- **A run that returns an outcome and was not cancelled** leaves every task complete. -/
theorem exists_complete (hx : x.Accepted) {schedule : Schedule} {o : Outcome N}
    (h : (x.execute schedule inputs).Reaches history (.done (.ok o)))
    (hset : .looked true ∉ history) :
    ∃ (past : List (Event N)) (s : RunState N x.pipeline),
      x.Reached inputs past s ∧ (∀ e ∈ past, e ∈ history) ∧ (∀ i, x.Complete s i) ∧
      o = x.outcome s false (closingReports s false) ∧
      ∀ i, history.countP (Event.starts (x.pipeline.taskAt i)) = starts s i := by
  obtain ⟨past, cancelled, s, hreached, hidle, ho, hsub, hlooked, hcount⟩ := exists_final hx h
  have hfalse : cancelled = false := by
    cases cancelled with
    | false => rfl
    | true => exact absurd hlooked hset
  subst hfalse
  exact ⟨past, s, hreached, hsub,
    complete_of_idle hx hreached (fun hmem => hset (hsub _ hmem)) hidle, ho, hcount⟩

/-! ## Internal errors -/

/-- The result of a task that is running has no value yet: it is no input, and no other task
produces it. -/
theorem Coherent.result_not_contains (hx : x.Accepted) (h : x.Coherent E inputs s)
    (hi : (s.task i).report? = none) :
    s.resolved.contains (x.pipeline.taskAt i).result = false := by
  rw [Bindings.not_contains_iff, Option.eq_none_iff_forall_ne_some]
  intro value hvalue
  rcases (h.resolved _ value).mp hvalue with hinput | ⟨j, report, hj, hresult, -⟩
  · obtain ⟨-, q, hq, hisInput⟩ := declaredInputs_get?_eq_some_iff.mp hinput
    rw [hx.wellFormed.result_not_input hq] at hisInput
    cases hisInput
  · obtain rfl := hx.wellFormed.result_injective hresult
    rw [hj] at hi
    cases hi

/-- A task that did not fail with an internal error is closed. -/
theorem Working.closed {run : TaskRun N} (h : x.Working E s i (.done run))
    (hordinary : ∀ fault, run.ending ≠ .failed (.unexpected fault)) :
    (x.pipeline.taskAt i).Closed := by
  obtain ⟨hsupplied, past, hpast, -⟩ := h
  refine (Assignment.content_isOk_iff (contains_assignment_iff hsupplied)).mp ?_
  cases hcontent : (x.assignment s i).content with
  | ok text => exact ⟨text, rfl⟩
  | error e =>
    obtain ⟨-, name, -, -, rfl⟩ := Assignment.exists_of_content_eq_error hcontent
    rw [Assignment.work_of_content_eq_error hcontent] at hpast
    obtain ⟨-, heq⟩ := Activity.reaches_done_iff.mp hpast
    cases heq
    exact absurd rfl (hordinary _)

/-- **A run that returns an error**, with adapters that keep their promises, was ended by a started
task with a placeholder for a parameter that it does not require, and this is the error. -/
theorem exists_placeholder (hx : x.Accepted) {schedule : Schedule} {e : PipelineError}
    (h : (x.execute schedule inputs).Reaches history (.done (.error e)))
    (hkept : ∀ e ∈ history, e.Kept) :
    ∃ i, history.countP (Event.starts (x.pipeline.taskAt i)) = 1 ∧
      (x.pipeline.taskAt i).executionType ≠ .script ∧
      ∃ name ∈ Template.parameters (x.pipeline.taskAt i).content,
        name ∉ (x.pipeline.taskAt i).required ∧ e = .unexpected (.unresolvedPlaceholder name) := by
  obtain ⟨past, h₂, s, rfl, hreached, hends⟩ := exists_reached h
  cases hends with
  | @fail i run _ hi hjoin =>
    rw [List.append_nil] at hkept ⊢
    have hcoherent := hreached.coherent hkept
    have hcount := hreached.countP_starts (fun _ _ => hx.wellFormed.name_injective) i
    rw [starts, hi] at hcount
    rcases join_eq_error hjoin with ⟨fault, hending, rfl⟩ | hbound
    · -- The work failed with an internal error, and only the content of a task leads to one.
      obtain ⟨hsupplied, work, hwork, hE⟩ := hcoherent.running i _ hi
      have hcontent := Assignment.work_ordinary (fun _ => id) hx.attempts hwork hE fault hending
      obtain ⟨hscript, name, hname, hunbound, heq⟩ := Assignment.exists_of_content_eq_error hcontent
      refine ⟨i, hcount, hscript, name, hname, fun hrequired => ?_, heq⟩
      rw [(contains_assignment_iff hsupplied name).mpr hrequired] at hunbound
      cases hunbound
    · -- No task has produced the result of one that is still running.
      have hunbound := hcoherent.result_not_contains hx (i := i) (by rw [hi]; rfl)
      rw [hbound] at hunbound
      cases hunbound

/-- Closed tasks leave no error that could end a run. -/
theorem exists_outcome (hx : x.Accepted) (hclosed : ∀ i, (x.pipeline.taskAt i).Closed)
    {schedule : Schedule} {r : Result (Outcome N)}
    (h : (x.execute schedule inputs).Reaches history (.done r)) (hkept : ∀ e ∈ history, e.Kept) :
    ∃ o, r = .ok o := by
  cases r with
  | ok o => exact ⟨o, rfl⟩
  | error e =>
    obtain ⟨i, -, hscript, name, hname, hrequired, -⟩ := exists_placeholder hx h hkept
    exact absurd (hclosed i hscript name hname) hrequired

end Executor

/-! ## A small pipeline -/

/-- A task that fills in a template. -/
def Task.fillIn (name content result : String) (dependencies : List String) : Task :=
  { name, title := name, description := none, executionType := .simpleTemplate
    dependencies := .ofList dependencies, modelRequirements := none, contentLanguage := none
    content, result, postprocessing := [], expectations := [], jokers := [] }

/-- Two templates, of which the second requires the result of the first and an input of its own. -/
def Pipeline.greetings : Pipeline :=
  { url := none, title := "Greetings", dialectVersion := "1.0.0", description := none
    parameters := [{ name := "name", isInput := true }, { name := "city", isInput := true },
      { name := "greeting", isOutput := true }, { name := "farewell", isOutput := true }]
    tasks := [.fillIn "greet" "Hi \x7bname\x7d" "greeting" ["name"],
      .fillIn "part" "\x7bgreeting\x7d, see you in \x7bcity\x7d" "farewell" ["city", "greeting"]]
    knowledge := [] }

theorem Pipeline.greetings_closed : ∀ t ∈ greetings.tasks, t.Closed := by
  have hall : greetings.tasks.all (fun t =>
      (Template.parameters t.content).toList.all t.required.toList.contains) = true := by cbv
  intro t ht _ name hname
  exact List.contains_iff_mem.mp (List.all_eq_true.mp (List.all_eq_true.mp hall t ht) name hname)

/-- No adapters at all. -/
def Tools.none : Tools :=
  { generators := [], runners := [], interfaces := 0 }

/-- The answer of an adapter that fails each call. -/
def Call.refuse : (c : Call) → c.Answer N
  | .listModels _ | .generate _ _ _ | .runScript _ _ _ _ | .applyFunction _ _ _ _ | .askUser _ _ =>
    .error (.execution (.reported "refused" true))

/-- The environment without adapters, in which nothing is cancelled. -/
def Environment.refusing : Environment (StateM Unit) Nat :=
  .ofAnswers Call.refuse

theorem Call.kept_refuse (c : Call) : c.Kept (N := N) c.refuse := by
  intro fault h
  cases c <;> cases h

/-- Without adapters, closed tasks still come to an outcome. -/
theorem Executor.exists_refused [Zero N] [Add N] {p : Pipeline} {settings : ExecutionSettings}
    {x : Executor} (hx : ofPipeline p .none settings = .ok x) (hclosed : ∀ t ∈ p.tasks, t.Closed)
    (schedule : Schedule) (inputs : Bindings String) :
    ∃ (history : List (Event N)) (o : Outcome N),
      (x.execute schedule inputs).Reaches history (.done (.ok o)) ∧
      ∀ e ∈ history, e.Obeys Call.refuse := by
  obtain ⟨order, rfl, hx⟩ := accepted_of_ofPipeline hx
  obtain ⟨history, hreaches, hobeys⟩ := Activity.exists_reaches_evaluate (N := N) Call.refuse
    (Executor.execute ⟨p, .none, settings, order⟩ schedule inputs)
  obtain ⟨o, ho⟩ := exists_outcome hx (fun i => hclosed _ (Pipeline.taskAt_mem i)) hreaches
    fun e he => (hobeys e he).kept Call.kept_refuse
  rw [ho] at hreaches
  exact ⟨history, o, hreaches, hobeys⟩

end PromptPipeline
