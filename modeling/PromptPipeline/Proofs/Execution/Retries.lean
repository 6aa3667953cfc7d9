import PromptPipeline.Proofs.Execution.Attempts

/-!
# Retries

In a run that is not cancelled, a task that starts and adopts no joker is attempted at least once,
and again as long as its attempts fail with errors that are worth another attempt, up to the bound
of the settings (`started_tasks_retried`). The last attempt decides: its value is the result of the
task, or its error is the one that the task failed with. Nothing is assumed of the adapters, so this
holds of every sequence of outcomes that attempts may have.
-/

namespace PromptPipeline

variable {N : Type}

/-- The report of a task that was attempted up to `maxAttempts` times. -/
structure TaskReport.Retried (r : TaskReport N) (t : Task) (maxAttempts : Nat) : Prop where
  numbers : r.attempts.map (·.attempt) = List.range' 1 r.attemptsUsed
  used : r.attempts.length = r.attemptsUsed
  bounds : 1 ≤ r.attemptsUsed ∧ r.attemptsUsed ≤ maxAttempts
  /-- Without an error there is a result; with an error there is one only if it fails an
  expectation. -/
  recorded : ∀ made ∈ r.attempts, (made.error = none → ∃ value, made.result = some value) ∧
    ∀ e value, made.error = some e → made.result = some value →
      ¬t.Meets value ∧ ∃ fault, e = .expectation fault
  /-- All attempts but the last one were worth another attempt, and the last one decides. -/
  decided : ∃ earlier last, r.attempts = earlier ++ [last] ∧ (∀ made ∈ earlier, made.IsRetryable) ∧
    (r.status = .succeeded ↔ last.error = none) ∧
    (last.error = none → r.result = last.result) ∧
    (r.status = .failed ↔ ∃ e, last.error = some e) ∧
    ∀ e, last.error = some e → r.error = some { task := some t.name, error := e } ∧
      (r.attemptsUsed = maxAttempts ∨ e.isRetryable = false)
  /-- As long as errors are worth another attempt, there is one until the bound is reached. -/
  exhausted : (∀ made ∈ r.attempts, made.IsRetryable) → r.attemptsUsed = maxAttempts

/-- Attempts that were not given up settle as retried. -/
theorem TaskRun.Concluded.retried {run : TaskRun N} {t : Task} {maxAttempts : Nat}
    {earlier : List (AttemptReport N)} {last : AttemptReport N} {own : List (Event N)}
    (h : run.Concluded maxAttempts earlier last) (htells : run.report.Tells own)
    (hrecords : ∀ made ∈ run.report.attempts, ∃ number calls result,
      made.Records t number (calls : List (Event N)) result) :
    (run.settled t).Retried t maxAttempts := by
  have hattempts := run.settled_attempts t
  have hused := run.settled_attemptsUsed t
  have hlength : run.report.attempts.length = run.report.attemptsUsed := by
    simpa using congrArg List.length htells.numbers
  have hpos : 1 ≤ run.report.attemptsUsed := by
    rw [← hlength, h.attempts, List.length_append, List.length_singleton]
    exact Nat.le_add_left 1 _
  refine ⟨?_, ?_, ?_, ?_, ?_, ?_⟩
  · rw [hattempts, hused, htells.numbers]
  · rw [hattempts, hused, hlength]
  · rw [hused]
    exact ⟨hpos, h.used⟩
  · rw [hattempts]
    intro made hmade
    obtain ⟨number, calls, result, hthis⟩ := hrecords made hmade
    refine ⟨fun hnone => ?_, hthis.fault⟩
    cases result with
    | ok value =>
      obtain ⟨-, hvalue, -⟩ := hthis.value value rfl
      exact ⟨value, hvalue⟩
    | error e =>
      rw [hthis.error e rfl] at hnone
      cases hnone
  · refine ⟨earlier, last, hattempts.trans h.attempts, h.earlier, ?_⟩
    rw [hused]
    unfold settled
    rcases h.ending with ⟨hnone, value, hvalue, hending⟩ | ⟨e, he, hending, hlast⟩
    · rw [hending]
      simp [hnone, hvalue]
    · rw [hending]
      simp [he, hlast]
  · rw [hattempts, hused]
    intro hall
    rcases h.ending with ⟨hnone, -⟩ | ⟨e, he, -, hlast⟩
    · obtain ⟨e, he, -⟩ := hall last (by rw [h.attempts]; simp)
      rw [hnone] at he
      cases he
    · obtain ⟨e', he', hretry⟩ := hall last (by rw [h.attempts]; simp)
      rw [he] at he'
      cases he'
      exact hlast.resolve_right (by simp [hretry])

namespace Executor

variable [Zero N] [Add N]

/-- **Started tasks are retried as the settings say.** In a run that returned an outcome and was not
cancelled, a task that was started and adopted no joker was attempted until an attempt succeeded, an
error was final or the attempts were used up, and its report says so. The error that it failed with
is one of the run. -/
theorem started_tasks_retried {p : Pipeline} {tools : Tools} {settings : ExecutionSettings}
    {x : Executor} (hx : ofPipeline p tools settings = .ok x) {schedule : Schedule}
    {inputs : Bindings String} {history : List (Event N)} {o : Outcome N}
    (hrun : (x.execute schedule inputs).Reaches history (.done (.ok o)))
    (hset : .looked true ∉ history) (i : p.TaskIndex)
    (hstarted : 0 < history.countP (Event.starts (p.taskAt i))) :
    ∃ r, o.report.tasks[i.val]? = some r ∧
      (r.jokerUsed = none → r.Retried (p.taskAt i) settings.maxAttempts) ∧
      ∀ record, r.error = some record → record ∈ o.report.errors := by
  obtain ⟨order, rfl, hx⟩ := accepted_of_ofPipeline hx
  obtain ⟨trace, cancelled, s, closing, rfl, hquiet, htraced, hidle, rfl⟩ := exists_last hrun
  obtain ⟨r, hi, hr⟩ := htraced.exists_report hx hidle hquiet hstarted
  obtain ⟨run, hworked, rfl, hordinary⟩ := htraced.exists_run hi
  obtain ⟨htells, -, hnone, -⟩ := Assignment.work_tells hworked.reaches
  refine ⟨_, hr, fun hjoker => ?_, fun record herror => ?_⟩
  · have hunset : run.ending ≠ .cancelled := by
      intro hcancelled
      have hcases := Assignment.work_ensures (E := fun e => e ∈ eventsOf trace i) hworked.reaches
        fun _ => id
      exact hset (List.mem_append_left _ (mem_of_mem_eventsOf (hcases.2 hcancelled)))
    rw [TaskRun.settled_jokerUsed] at hjoker
    obtain ⟨earlier, last, hconcluded⟩ :=
      Assignment.work_concluded hworked.reaches hx.attempts hordinary hjoker hunset
    exact hconcluded.retried htells (Assignment.work_records hworked.reaches)
  · have hcoherent := htraced.reached.coherent (E := fun _ => True) fun _ _ => trivial
    rw [← TaskRun.settled_failure?_eq_error hnone] at herror
    exact List.mem_append_left _ (hcoherent.failure_mem hi herror)

end Executor

/-- A template that never has the two words that it is expected to have. -/
def Task.greetCurtly : Task :=
  { Task.fillIn "greet" "Hi" "greeting" [] with expectations := [.amount .minimum .words 2] }

/-- A pipeline of this one task. -/
def Pipeline.curtGreeting : Pipeline :=
  { url := none, title := "Greetings", dialectVersion := "1.0.0", description := none
    parameters := [{ name := "greeting", isOutput := true }]
    tasks := [.greetCurtly]
    knowledge := [] }

namespace Executor

/-- The curt greeting is attempted as often as the settings allow, and fails. -/
theorem curtGreeting_tried_thrice :
    ∃ (x : Executor) (history : List (Event Nat)) (o : Outcome Nat) (r : TaskReport Nat),
      ofPipeline .curtGreeting .none {} = .ok x ∧
      (x.execute .firstTask ∅).Reaches history (.done (.ok o)) ∧ .looked true ∉ history ∧
      0 < history.countP (Event.starts .greetCurtly) ∧ o.report.tasks[0]? = some r ∧
      r.jokerUsed = none ∧ r.attemptsUsed = 3 ∧ r.status = .failed ∧ r.Retried .greetCurtly 3 := by
  obtain ⟨x, hx⟩ : ∃ x, ofPipeline .curtGreeting .none {} = .ok x := ⟨_, by cbv⟩
  have hclosed : ∀ t ∈ Pipeline.curtGreeting.tasks, t.Closed := by
    have hnone : (Template.parameters "Hi").toList = [] := by cbv
    intro t ht _ name hname
    obtain rfl := List.mem_singleton.mp ht
    have hmem : name ∈ (Template.parameters "Hi").toList := hname
    rw [hnone] at hmem
    cases hmem
  obtain ⟨history, o, hreaches, hobeys⟩ := exists_refused (N := Nat) hx hclosed .firstTask ∅
  have hset := looked_true_notMem hobeys
  have hretried := started_tasks_retried hx hreaches hset ⟨0, Nat.one_pos⟩
  obtain ⟨order, rfl, haccepted⟩ := accepted_of_ofPipeline hx
  obtain ⟨trace, cancelled, s, closing, rfl, hquiet, htraced, hidle, rfl⟩ := exists_last hreaches
  have hrequired (name : String) : name ∉ Task.greetCurtly.required := by
    have hnone : Task.greetCurtly.required.toList = [] := by cbv
    rw [NameSet.mem_def, hnone]
    exact List.not_mem_nil
  let i : Pipeline.curtGreeting.TaskIndex := ⟨0, Nat.one_pos⟩
  have hstarted := started_of_inputs (x := ⟨.curtGreeting, .none, {}, order⟩) (i := i) haccepted
    hreaches hset fun name hname => absurd hname (hrequired name)
  obtain ⟨r, hr, hthis, -⟩ := hretried hstarted
  obtain ⟨r', hi, hr'⟩ := htraced.exists_report haccepted hidle hquiet hstarted
  -- The task requires nothing, so its report is that of the work on no parameters at all.
  have hassigned : Executor.assignment ⟨.curtGreeting, .none, {}, order⟩ s i =
      ⟨.greetCurtly, .none, ∅, 3⟩ := by
    have hparameters : (s.resolved.filter fun name _ =>
        decide (name ∈ Task.greetCurtly.required)) = ∅ := by
      refine Bindings.ext fun name => Option.ext fun value => ?_
      simp only [Bindings.get?_filter_eq_some_iff, hrequired, decide_false, Bool.false_eq_true,
        and_false, false_iff]
      intro h
      cases h
    show Assignment.mk _ _ (s.resolved.filter _) _ = _
    rw [← hparameters]
    rfl
  have hreport := htraced.report_eq_evaluate
    (fun e he => hobeys e (List.mem_append_left _ he)) hi
  rw [hassigned] at hreport
  obtain rfl : r = r' := Option.some.inj (hr.symm.trans hr')
  have hjoker : r.jokerUsed = none := by
    rw [hreport]
    cbv
  refine ⟨_, _, _, r, hx, hreaches, hset, hstarted, hr, hjoker, ?_, ?_, hthis hjoker⟩
  · rw [hreport]
    cbv
  · rw [hreport]
    cbv

end Executor

end PromptPipeline
