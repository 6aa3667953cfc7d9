import PromptPipeline.Proofs.Execution.Containment
import PromptPipeline.Proofs.Execution.Trace

/-!
# Results and jokers

There are two ways to the result of a task: a joker whose value meets the expectations, or an
attempt whose output met them after postprocessing. So the result of a task that succeeded always
meets its expectations. The first way is taken exactly if it is open, and then nothing else happens:
the value is adopted as it is, by the first joker that has one, without an attempt and without any
interaction with the outside.
-/

namespace PromptPipeline

variable {N : Type}

/-- The text meets all expectations of the task. -/
def Task.Meets (t : Task) (text : String) : Prop :=
  ∀ e ∈ t.expectations, e.holds text = true

/-- The parameter has a value that meets the expectations of the task. -/
def Task.Passes (t : Task) (values : Bindings String) (parameter : String) : Prop :=
  ∃ value, values.get? parameter = some value ∧ t.Meets value

/-- The task has adopted the joker: the first one that passes, with its value as the result, no
attempt, no cost and no events. -/
structure Task.Adopted [Zero N] (t : Task) (values : Bindings String) (own : List (Event N))
    (r : TaskReport N) (joker : String) : Prop where
  first : ∃ before after, t.jokers = before ++ joker :: after ∧ t.Passes values joker ∧
    ∀ other ∈ before, ¬t.Passes values other
  status : r.status = .succeeded
  result : r.result = values.get? joker
  attempts : r.attemptsUsed = 0 ∧ r.attempts = []
  usage : r.usage = 0
  events : own = []

/-- The report of a task that worked on the values, with the events of its work: a result meets the
expectations, and a joker is adopted if and only if one passes. -/
structure Task.Judged [Zero N] (t : Task) (values : Bindings String) (own : List (Event N))
    (r : TaskReport N) : Prop where
  task : r.task = t
  meets : r.status = .succeeded → ∃ value, r.result = some value ∧ t.Meets value
  adopts_iff : (∃ joker, r.jokerUsed = some joker) ↔ ∃ joker ∈ t.jokers, t.Passes values joker
  adopted : ∀ joker, r.jokerUsed = some joker → t.Adopted values own r joker

theorem Task.meets_iff {t : Task} {text : String} :
    t.Meets text ↔ Expectation.allHold t.expectations text = true :=
  List.all_eq_true.symm

open Activity

theorem Task.Adopted.mem [Zero N] {t : Task} {values : Bindings String} {own : List (Event N)}
    {r : TaskReport N} {joker : String} (h : t.Adopted values own r joker) : joker ∈ t.jokers := by
  obtain ⟨before, after, hsplit, -⟩ := h.first
  rw [hsplit]
  exact List.mem_append_right _ List.mem_cons_self

/-- Only the values of jokers matter. -/
theorem Task.Judged.congr [Zero N] {t : Task} {values values' : Bindings String}
    {own : List (Event N)} {r : TaskReport N}
    (heq : ∀ joker ∈ t.jokers, values.get? joker = values'.get? joker)
    (h : t.Judged values own r) : t.Judged values' own r := by
  have hpasses {joker : String} (hjoker : joker ∈ t.jokers) :
      t.Passes values joker ↔ t.Passes values' joker := by
    unfold Passes
    rw [heq joker hjoker]
  refine ⟨h.task, h.meets, h.adopts_iff.trans ?_, fun joker hused => ?_⟩
  · exact exists_congr fun joker => and_congr_right hpasses
  · have hadopted := h.adopted joker hused
    obtain ⟨before, after, hsplit, hpass, hbefore⟩ := hadopted.first
    have hjoker := hadopted.mem
    have hearlier {other : String} (hother : other ∈ before) : other ∈ t.jokers := by
      rw [hsplit]
      exact List.mem_append_left _ hother
    refine ⟨⟨before, after, hsplit, (hpasses hjoker).mp hpass, fun other hother hother' => ?_⟩,
      hadopted.status, hadopted.result.trans (heq joker hjoker), hadopted.attempts,
      hadopted.usage, hadopted.events⟩
    exact hbefore other hother ((hpasses (hearlier hother)).mpr hother')

/-! ## Attempts are checked -/

namespace Assignment

variable {a : Assignment} {E : Event N → Prop}

theorem judge_meets {number : Nat} {reply : Option (Reply N)} {output : Result String}
    {value : String} (h : (a.judge number reply output).2 = .ok value) : a.task.Meets value := by
  cases output with
  | error e => cases h
  | ok text =>
    unfold judge at h
    dsimp only at h
    split at h
    next hnone =>
      cases h
      exact Task.meets_iff.mpr (Expectation.firstFault?_eq_none_iff.mp hnone)
    next => cases h

/-- The check comes last, after all postprocessing. -/
theorem attempt_meets (content : String) (number : Nat) :
    (a.attempt (N := N) content number).Ensures E fun made =>
      ∀ value, made.2 = .ok value → a.task.Meets value := by
  refine Ensures.bind (ensures_true _) fun produced _ => ?_
  obtain ⟨reply, output⟩ := produced
  cases output with
  | error e => exact ensures_done fun _ h => judge_meets h
  | ok text => exact Ensures.bind (ensures_true _) fun _ _ => ensures_done fun _ h => judge_meets h

theorem Tried.meets {content : String} {number remaining : Nat} {own : List (Event N)}
    {report : TaskReport N} {run : TaskRun N} {value : String}
    (h : Tried a content number report remaining own run) (hending : run.ending = .succeeded value) :
    a.task.Meets value := by
  induction h with
  | succeeded hmade =>
    cases hending
    exact attempt_meets (E := fun _ => True) content _ hmade (fun _ _ => trivial) value rfl
  | retried _ _ _ _ ih => exact ih hending
  | exhausted => cases hending
  | stopped => cases hending
  | interrupted => cases hending
  | failed => cases hending

/-! ## The choice of a joker -/

/-- What the search makes of one joker. -/
theorem passing_eq_some_iff {joker joker' value : String} :
    ((a.parameters.get? joker).bind fun value =>
      if Expectation.allHold a.task.expectations value then some (joker, value) else none) =
        some (joker', value) ↔
      joker = joker' ∧ a.parameters.get? joker = some value ∧ a.task.Meets value := by
  rw [Option.bind_eq_some_iff]
  simp only [Option.ite_none_right_eq_some, Option.some.injEq, Prod.mk.injEq, ← Task.meets_iff]
  constructor
  · rintro ⟨text, htext, hmeets, hjoker, rfl⟩
    exact ⟨hjoker, htext, hmeets⟩
  · rintro ⟨hjoker, hvalue, hmeets⟩
    exact ⟨value, hvalue, hmeets, hjoker, rfl⟩

theorem passing_eq_none_iff {joker : String} :
    ((a.parameters.get? joker).bind fun value =>
      if Expectation.allHold a.task.expectations value then some (joker, value) else none) =
        none ↔ ¬a.task.Passes a.parameters joker := by
  rw [Option.eq_none_iff_forall_ne_some]
  constructor
  · rintro hnone ⟨value, hvalue, hmeets⟩
    exact hnone (joker, value) (passing_eq_some_iff.mpr ⟨rfl, hvalue, hmeets⟩)
  · rintro hnot ⟨joker', value⟩ heq
    obtain ⟨-, hvalue, hmeets⟩ := passing_eq_some_iff.mp heq
    exact hnot ⟨value, hvalue, hmeets⟩

/-- The search finds the first joker that passes. -/
theorem passingJoker?_eq_some_iff {joker value : String} :
    a.passingJoker? = some (joker, value) ↔
      ∃ before after, a.task.jokers = before ++ joker :: after ∧
        (a.parameters.get? joker = some value ∧ a.task.Meets value) ∧
        ∀ other ∈ before, ¬a.task.Passes a.parameters other := by
  unfold passingJoker?
  rw [List.findSome?_eq_some_iff]
  simp only [passing_eq_some_iff, passing_eq_none_iff]
  constructor
  · rintro ⟨before, joker', after, hsplit, ⟨rfl, hpasses⟩, hbefore⟩
    exact ⟨before, after, hsplit, hpasses, hbefore⟩
  · rintro ⟨before, after, hsplit, hpasses, hbefore⟩
    exact ⟨before, joker, after, hsplit, ⟨rfl, hpasses⟩, hbefore⟩

theorem passingJoker?_eq_none_iff :
    a.passingJoker? = none ↔ ∀ joker ∈ a.task.jokers, ¬a.task.Passes a.parameters joker := by
  unfold passingJoker?
  rw [List.findSome?_eq_none_iff]
  simp only [passing_eq_none_iff]

variable [Zero N] [Add N]

/-- With a joker that passes, the work on a task is done before it begins. -/
theorem work_of_passingJoker?_eq_some {content joker value : String}
    (hcontent : a.content = .ok content) (h : a.passingJoker? = some (joker, value)) :
    a.work (N := N) = .done
      { report := { TaskReport.ofTask a.task with
          substitutedContent := some content, jokerUsed := some joker }
        ending := .succeeded value } := by
  unfold work
  rw [hcontent]
  dsimp only
  rw [h]
  rfl

/-- Without one, its result is that of an attempt. -/
theorem work_ensures_of_passingJoker?_eq_none (h : a.passingJoker? = none) :
    (a.work (N := N)).Ensures E fun run => run.report.jokerUsed = none ∧
      ∀ value, run.ending = .succeeded value → a.task.Meets value := by
  unfold work
  dsimp only
  split
  next => exact ensures_done ⟨rfl, fun _ heq => nomatch heq⟩
  next content _ =>
    rw [h]
    refine Ensures.bind (makeAttempts_ensures fun own run hrun _ => ?_) fun _ => ensures_done
    refine ⟨?_, fun value => hrun.meets⟩
    show run.report.jokerUsed = none
    rw [hrun.report_eq]
    rfl

/-- **The work on a task leaves a report that is judged**, if it did not end with an internal
error. -/
theorem judged_of_work {own : List (Event N)} {run : TaskRun N}
    (h : a.work.Reaches own (.done run))
    (hordinary : ∀ fault, run.ending ≠ .failed (.unexpected fault)) :
    a.task.Judged a.parameters own (run.settled a.task) := by
  have htask : (run.settled a.task).task = a.task :=
    TaskRun.settled_task.trans (work_ensures (E := fun _ => True) h fun _ _ => trivial).1
  cases hcontent : a.content with
  | error e =>
    -- A fault of the content is an internal error.
    obtain ⟨-, name, -, -, rfl⟩ := exists_of_content_eq_error hcontent
    rw [work_of_content_eq_error hcontent] at h
    obtain ⟨-, heq⟩ := reaches_done_iff.mp h
    cases heq
    exact absurd rfl (hordinary _)
  | ok content =>
    cases hjoker : a.passingJoker? with
    | some found =>
      obtain ⟨joker, value⟩ := found
      obtain ⟨before, after, hsplit, ⟨hvalue, hmeets⟩, hbefore⟩ :=
        passingJoker?_eq_some_iff.mp hjoker
      have hpasses : a.task.Passes a.parameters joker := ⟨value, hvalue, hmeets⟩
      rw [work_of_passingJoker?_eq_some hcontent hjoker] at h
      obtain ⟨rfl, heq⟩ := reaches_done_iff.mp h
      cases heq
      refine ⟨htask, fun _ => ⟨value, rfl, hmeets⟩, ⟨fun _ => ⟨joker, ?_, hpasses⟩, ?_⟩, ?_⟩
      · rw [hsplit]
        exact List.mem_append_right _ List.mem_cons_self
      · exact fun _ => ⟨joker, rfl⟩
      · intro joker' heq
        cases heq
        exact ⟨⟨before, after, hsplit, hpasses, hbefore⟩, rfl, hvalue.symm, ⟨rfl, rfl⟩, rfl, rfl⟩
    | none =>
      have hnone := passingJoker?_eq_none_iff.mp hjoker
      obtain ⟨hunused, hmeets⟩ :=
        work_ensures_of_passingJoker?_eq_none (E := fun _ => True) hjoker h fun _ _ => trivial
      have hused : (run.settled a.task).jokerUsed = none := by
        rw [TaskRun.settled_jokerUsed, hunused]
      refine ⟨htask, fun hstatus => ?_, ?_, ?_⟩
      · obtain ⟨value, hvalue⟩ := TaskRun.settled_value?_of_succeeded hstatus
        exact ⟨value, TaskReport.result_of_value? hvalue,
          hmeets value (TaskRun.settled_value?_eq_some_iff.mp hvalue)⟩
      · rw [hused]
        constructor
        · rintro ⟨joker, heq⟩
          cases heq
        · rintro ⟨joker, hmem, hpasses⟩
          exact absurd hpasses (hnone joker hmem)
      · rw [hused]
        exact fun joker heq => nomatch heq

end Assignment

/-! ## Results in a run -/

namespace Executor

open RunState

variable [Zero N] [Add N] {x : Executor} {inputs : Bindings String} {s : RunState N x.pipeline}
  {i : x.pipeline.TaskIndex} {trace : Trace N x.pipeline}

omit [Zero N] [Add N] in
/-- A task is given its jokers with the values that they have in the run. -/
theorem assignment_get?_joker {joker : String} (hjoker : joker ∈ (x.pipeline.taskAt i).jokers) :
    (x.assignment s i).parameters.get? joker = s.resolved.get? joker := by
  have hrequired : joker ∈ (x.pipeline.taskAt i).required := Task.mem_required.mpr (.inr hjoker)
  refine Option.ext fun value => ?_
  simp only [assignment, Bindings.get?_filter_eq_some_iff, decide_eq_true_eq]
  exact and_iff_left hrequired

/-- **The report of every finished task is judged** on the values of the run and on the events of
the task. -/
theorem Traced.judged (h : x.Traced inputs trace s) {report : TaskReport N}
    (hi : s.task i = .finished report) :
    (x.pipeline.taskAt i).Judged s.resolved (eventsOf trace i) report := by
  obtain ⟨run, hworked, rfl, hordinary⟩ := h.exists_run hi
  have hjudged := Assignment.judged_of_work hworked.reaches hordinary
  exact hjudged.congr fun joker hjoker => assignment_get?_joker hjoker

/-- A task that requires nothing but inputs is started if they are given. -/
theorem started_of_inputs (hx : x.Accepted) {schedule : Schedule} {history : List (Event N)}
    {o : Outcome N} (hrun : (x.execute schedule inputs).Reaches history (.done (.ok o)))
    (hset : .looked true ∉ history)
    (hgiven : ∀ name ∈ (x.pipeline.taskAt i).required,
      (∃ q ∈ x.pipeline.parameters, q.name = name ∧ q.isInput = true) ∧
        inputs.contains name = true) :
    0 < history.countP (Event.starts (x.pipeline.taskAt i)) := by
  obtain ⟨past, s, hreached, hsub, hcomplete, -, hcount⟩ := exists_complete hx hrun hset
  have hcoherent := hreached.coherent (E := fun _ => True) fun _ _ => trivial
  rw [hcount i, starts]
  rcases hcomplete i with ⟨report, hi⟩ | ⟨hi, hnot⟩
  · rw [hi]
    exact Nat.one_pos
  · have hready : x.isReady s i = true := by
      refine isReady_iff.mpr ⟨hi, fun name hname => ?_⟩
      obtain ⟨⟨q, hq, rfl, hinput⟩, hcontains⟩ := hgiven name hname
      exact (hcoherent.contains_input_iff hx hq hinput).mpr hcontains
    rw [hnot] at hready
    cases hready

/-- **Results meet their expectations, and jokers are adopted as they are.** This holds of each task
as soon as it is finished. If a run returns an outcome, then it holds of every task that was
started, with the values that the outcome gives back. -/
theorem results_meet_expectations {p : Pipeline} {tools : Tools} {settings : ExecutionSettings}
    {x : Executor} (hx : ofPipeline p tools settings = .ok x) (inputs : Bindings String) :
    (∀ (trace : Trace N x.pipeline) (s : RunState N x.pipeline), x.Traced inputs trace s →
      ∀ i report, s.task i = .finished report →
        (x.pipeline.taskAt i).Judged s.resolved (eventsOf trace i) report) ∧
    ∀ (schedule : Schedule) (history : List (Event N)) (o : Outcome N),
      (x.execute schedule inputs).Reaches history (.done (.ok o)) →
        (∀ r ∈ o.report.tasks, r.status = .succeeded →
          ∃ value, r.result = some value ∧ r.task.Meets value) ∧
        ∃ (trace : Trace N x.pipeline) (s : RunState N x.pipeline) (cancelled : Bool)
          (closing : List Progress),
          x.Traced inputs trace s ∧
          history = trace.map (·.2) ++ .looked cancelled :: closing.map .notified ∧
          ∀ i, 0 < history.countP (Event.starts (x.pipeline.taskAt i)) →
            ∃ report, o.report.tasks[i.val]? = some report ∧
              (x.pipeline.taskAt i).Judged o.resolved (eventsOf trace i) report := by
  obtain ⟨-, -, hx⟩ := accepted_of_ofPipeline hx
  refine ⟨fun trace s htraced i report hi => htraced.judged hi, fun schedule history o hrun => ?_⟩
  obtain ⟨trace, cancelled, s, closing, rfl, hquiet, htraced, hidle, rfl⟩ := exists_last hrun
  constructor
  · intro r hr hstatus
    obtain ⟨i, -, rfl⟩ := List.mem_map.mp hr
    rcases closingReport_cases hidle cancelled i with hi | ⟨-, hnot⟩
    · have hjudged := htraced.judged hi
      rw [hjudged.task]
      exact hjudged.meets hstatus
    · exact absurd hstatus hnot
  · refine ⟨trace, s, cancelled, closing, htraced, rfl, fun i hstarted => ?_⟩
    rw [htraced.countP_starts hx hquiet, starts] at hstarted
    rcases pending_or_finished_of_idle hidle i with hi | ⟨report, hi⟩
    · rw [hi] at hstarted
      exact absurd hstarted (Nat.lt_irrefl 0)
    · refine ⟨report, ?_, htraced.judged hi⟩
      show (closingReports s cancelled)[i.val]? = some report
      rw [closingReports_getElem?, closingReport_of_finished hi]

end Executor

/-- A template that a draft may stand in for, if the draft has a word. -/
def Task.greetOrDraft : Task :=
  { Task.fillIn "greet" "Hi" "greeting" [] with
    expectations := [.amount .minimum .words 1], jokers := ["draft"] }

/-- A pipeline of this one task. -/
def Pipeline.draftedGreeting : Pipeline :=
  { url := none, title := "Greetings", dialectVersion := "1.0.0", description := none
    parameters := [{ name := "draft", isInput := true }, { name := "greeting", isOutput := true }]
    tasks := [.greetOrDraft]
    knowledge := [] }

namespace Executor

/-- The draft that is given becomes the greeting, as it is. -/
theorem draftedGreeting_adopts_draft :
    ∃ (x : Executor) (history : List (Event Nat)) (o : Outcome Nat) (report : TaskReport Nat),
      ofPipeline .draftedGreeting .none {} = .ok x ∧
      (x.execute .firstTask (.ofList [("draft", " Hello")])).Reaches history (.done (.ok o)) ∧
      o.report.tasks[0]? = some report ∧ report.jokerUsed = some "draft" ∧
      report.result = some " Hello" := by
  obtain ⟨x, hx⟩ : ∃ x, ofPipeline .draftedGreeting .none {} = .ok x := ⟨_, by cbv⟩
  have hclosed : ∀ t ∈ Pipeline.draftedGreeting.tasks, t.Closed := by
    have hnone : (Template.parameters "Hi").toList = [] := by cbv
    intro t ht _ name hname
    obtain rfl := List.mem_singleton.mp ht
    have hmem : name ∈ (Template.parameters "Hi").toList := hname
    rw [hnone] at hmem
    cases hmem
  obtain ⟨history, o, hreaches, hobeys⟩ := exists_refused (N := Nat) hx hclosed
    .firstTask (.ofList [("draft", " Hello")])
  have hset := looked_true_notMem hobeys
  have hresults := results_meet_expectations (N := Nat) hx (.ofList [("draft", " Hello")])
  obtain ⟨order, rfl, haccepted⟩ := accepted_of_ofPipeline hx
  obtain ⟨-, trace, -, -, -, -, -, hjudged⟩ := hresults.2 .firstTask history o hreaches
  -- The draft is an input, so that its value is the given one and the task is started.
  have hdraft : Pipeline.draftedGreeting.parameter? "draft" =
      some { name := "draft", isInput := true } := by decide
  have hvalue : o.resolved.get? "draft" = some " Hello" := by
    obtain ⟨past, s, hreached, -, -, rfl, -⟩ := exists_complete haccepted hreaches hset
    have hcoherent := hreached.coherent (E := fun _ => True) fun _ _ => trivial
    refine (hcoherent.resolved "draft" " Hello").mpr (.inl ?_)
    exact declaredInputs_get?_eq_some_iff.mpr ⟨by decide, _, hdraft, rfl⟩
  obtain ⟨i, hzero⟩ : ∃ i : Pipeline.draftedGreeting.TaskIndex, i.val = 0 := ⟨⟨0, by decide⟩, rfl⟩
  have htask : Pipeline.draftedGreeting.taskAt i = .greetOrDraft :=
    List.mem_singleton.mp (Pipeline.taskAt_mem i)
  have hstarted : 0 < history.countP (Event.starts (Pipeline.draftedGreeting.taskAt i)) := by
    refine started_of_inputs haccepted hreaches hset fun name hname => ?_
    obtain rfl : name = "draft" := by
      have hmem : name ∈ Task.greetOrDraft.required := htask ▸ hname
      simpa [Task.mem_required, Task.greetOrDraft, Task.fillIn] using hmem
    exact ⟨⟨_, List.mem_cons_self, rfl, rfl⟩, by decide⟩
  obtain ⟨report, hreport, hthis⟩ := hjudged i hstarted
  have hmeets : Task.greetOrDraft.Meets " Hello" := Task.meets_iff.mpr (by cbv)
  have hthis : Task.greetOrDraft.Judged o.resolved (eventsOf trace i) report := htask ▸ hthis
  obtain ⟨joker, hused⟩ := hthis.adopts_iff.mpr
    ⟨"draft", List.mem_singleton.mpr rfl, " Hello", hvalue, hmeets⟩
  have hadopted := hthis.adopted joker hused
  obtain rfl : joker = "draft" := List.mem_singleton.mp hadopted.mem
  exact ⟨_, history, o, report, hx, hreaches, hzero ▸ hreport, hused,
    hadopted.result.trans hvalue⟩

end Executor

end PromptPipeline
