import PromptPipeline.Proofs.Adapter.Generator
import PromptPipeline.Proofs.Execution.Comparison

/-!
# Runs behind a cache

A generator behind a cache gives its first reply to a prompt again and again, also where the engine
rejected this reply and asks for another one. So a run behind an empty cache succeeds if and only if
the run without the cache succeeds and rejects no reply on its way (`cached_isSuccessful_iff`): an
attempt that fails after its reply is never made good behind a cache.
-/

namespace PromptPipeline

open TextGenerator

/-- No attempt but the last one has a reply, so that no reply was rejected and asked for anew. -/
def TaskReport.RejectsNoReply {N : Type} (r : TaskReport N) : Prop :=
  ∀ made ∈ r.attempts.dropLast, made.reply = none

theorem TaskRun.settled_rejectsNoReply_iff {N : Type} {run : TaskRun N} {t : Task} :
    (run.settled t).RejectsNoReply ↔ run.report.RejectsNoReply := by
  unfold TaskReport.RejectsNoReply
  rw [settled_attempts]

namespace Assignment

variable {a : Assignment} {answers : (c : Call) → c.Answer Binary64} {sheet : AnswerSheet}
  {cache : FileCache} {session : Session} {own own' : List (Event Binary64)}
  {run run' : TaskRun Binary64} {title title' : String}

/-! ## One task -/

theorem comesTo_cached_iff (a : Assignment) (hsheet : sheet.Storable)
    (hcache : cache.IsEmpty session.files) (hnow : session.now.IsProper) (value : String) :
    (a.comesTo ask answers (.cached (.prepared sheet) cache, session)).2 = some value ↔
      (a.comesTo ask answers (.prepared sheet, session)).2 = some value ∧
        ∀ answer ∈ (a.comesTo ask answers (.prepared sheet, session)).1.dropLast,
          answer.toOption = none := by
  unfold comesTo
  split
  next => simp
  next => simp
  next =>
    split
    next => simp
    next =>
      exact attemptsInTurn_cached_iff (fun _ => rfl) (fun r => judge_result ..) hsheet hcache hnow
        a.maxAttempts value

/-- A task that asks no generator rejects no reply. -/
theorem rejectsNoReply_of_quiet {N : Type} [Zero N] [Add N] {own : List (Event N)}
    {run : TaskRun N} (h : a.work.Reaches own (.done run))
    (hquiet : ∀ e ∈ own, e.asked? = none) : run.report.RejectsNoReply := by
  have hnone : run.report.attempts.filterMap (·.reply) = [] := by
    rw [← (work_tells h).1.replies, List.filterMap_eq_nil_iff]
    exact fun e he => Event.reply?_eq_none (hquiet e he)
  exact fun made hmade => List.filterMap_eq_nil_iff.mp hnone made (List.mem_of_mem_dropLast hmade)

/-- **Behind a cache, the work on a task succeeds if and only if it does so without the cache and
rejects no reply.** -/
theorem work_cached_iff (hsheet : sheet.Storable) (hcache : cache.IsEmpty session.files)
    (hnow : session.now.IsProper)
    (hbare : (a.withGenerator title).work.Reaches own (.done run))
    (hown : AnsweredInTurn ask answers (.prepared sheet, session) own)
    (hcached : (a.withGenerator title').work.Reaches own' (.done run'))
    (hown' : AnsweredInTurn ask answers (.cached (.prepared sheet) cache, session) own')
    (value : String) :
    run'.ending = .succeeded value ↔
      run.ending = .succeeded value ∧ run.report.RejectsNoReply := by
  by_cases htype : a.task.executionType = .promptTemplate
  · obtain ⟨hvalue, hreplies⟩ :=
      work_inTurn (a := a.withGenerator title) htype hbare hown value
    rw [(work_inTurn (a := a.withGenerator title') htype hcached hown' value).1,
      comesTo_withGenerator a title' title, comesTo_cached_iff _ hsheet hcache hnow, hvalue]
    refine and_congr_right fun hsucceeds => ?_
    have hdropped := congrArg List.dropLast (hreplies (hvalue.mpr hsucceeds))
    rw [← List.map_dropLast, ← List.map_dropLast] at hdropped
    have hmap {β : Type} {l : List β} {f : β → Option (Reply Binary64)} :
        (∀ b ∈ l, f b = none) ↔ ∀ reply ∈ l.map f, reply = none := by
      rw [List.forall_mem_map]
    unfold TaskReport.RejectsNoReply
    rw [hmap (f := Except.toOption), hmap (f := AttemptReport.reply), hdropped]
  · have hquiet : ∀ e ∈ own, e.asked? = none :=
      (work_asks_nothing (a := a.withGenerator title) htype).of_reaches hbare
    have hquiet' : ∀ e ∈ own', e.asked? = none :=
      (work_asks_nothing (a := a.withGenerator title') htype).of_reaches hcached
    have hnone := rejectsNoReply_of_quiet hbare hquiet
    rw [work_withGenerator a _ htype] at hbare hcached
    have hrun := hbare.eq_evaluate fun e he => hown.others e he (hquiet e he)
    have hrun' := hcached.eq_evaluate fun e he => hown'.others e he (hquiet' e he)
    rw [hrun', ← hrun]
    exact (and_iff_left hnone).symm

end Assignment

/-! ## Runs -/

namespace Executor

open RunState

/-- Runs the pipeline with the generator in its session. All calls but those to the generator have
one answer. -/
def runWith (x : Executor) (g : TextGenerator) (session : Session)
    (answers : (c : Call) → c.Answer Binary64) (schedule : Schedule) (inputs : Bindings String) :
    Result (Outcome Binary64) :=
  (((x.execute schedule inputs).run (.asking ask answers)).run (g, session)).1

theorem exists_reaches_runWith (x : Executor) (g : TextGenerator) (session : Session)
    (answers : (c : Call) → c.Answer Binary64) (schedule : Schedule) (inputs : Bindings String) :
    ∃ history, (x.execute schedule inputs).Reaches history
        (.done (x.runWith g session answers schedule inputs)) ∧
      AnsweredInTurn ask answers (g, session) history :=
  Activity.exists_reaches_asking ask answers (x.execute schedule inputs) (g, session)

/-- The executor with one generator, which may take up the tasks in another order. -/
abbrev withGenerator (x : Executor) (g : TextGenerator) (order : List x.pipeline.TaskIndex) :
    Executor :=
  x.retooled (x.tools.withGenerator g.title) order

variable {x : Executor} {answers : (c : Call) → c.Answer Binary64} {sheet : AnswerSheet}
  {cache : FileCache} {session : Session} {inputs : Bindings String}
  {order order' : List x.pipeline.TaskIndex} {m : x.pipeline.TaskIndex}
  {trace trace' : Trace Binary64 x.pipeline} {s s' : RunState Binary64 x.pipeline}

/-- What is done on a task with the same values in the two runs. -/
theorem Traced.ending_cached_iff
    (hm : ∀ i, i ≠ m → (x.pipeline.taskAt i).executionType ≠ .promptTemplate)
    (hsheet : sheet.Storable) (hcache : cache.IsEmpty session.files) (hnow : session.now.IsProper)
    (hbare : (x.withGenerator (.prepared sheet) order).Traced inputs trace s)
    (hturn : AnsweredInTurn ask answers (.prepared sheet, session) (trace.map (·.2)))
    (hcached : (x.withGenerator (.cached (.prepared sheet) cache) order').Traced inputs trace' s')
    (hturn' : AnsweredInTurn ask answers (.cached (.prepared sheet) cache, session)
      (trace'.map (·.2)))
    {i : x.pipeline.TaskIndex} (hsame : x.SameValues s s' i) {run run' : TaskRun Binary64}
    (hworked : (x.withGenerator (.prepared sheet) order).Worked s i (eventsOf trace i) (.done run))
    (hworked' : (x.withGenerator (.cached (.prepared sheet) cache) order').Worked s' i
      (eventsOf trace' i) (.done run')) (value : String) :
    run'.ending = .succeeded value ↔ run.ending = .succeeded value ∧ run.report.RejectsNoReply := by
  have hreaches := hworked'.reaches
  rw [hsame.assignment_eq] at hreaches
  exact Assignment.work_cached_iff (a := x.assignment s i) hsheet hcache hnow hworked.reaches
    (hbare.answeredInTurn hm hturn i) hreaches (hcached.answeredInTurn hm hturn' i) value

/-- The last state of a successful run: all inputs were given, and all tasks succeeded. -/
theorem exists_succeeded (hx : x.Accepted) {schedule : Schedule} {history : List (Event Binary64)}
    {o : Outcome Binary64} (hrun : (x.execute schedule inputs).Reaches history (.done (.ok o)))
    (hset : .looked true ∉ history) (hsuccess : o.report.isSuccessful = true) :
    ∃ trace s rest, history = trace.map (·.2) ++ rest ∧ x.Traced inputs trace s ∧
      s.running = [] ∧ o = x.outcome s false (closingReports s false) ∧
      x.pipeline.Supplied inputs ∧ ∀ i, s.FinishedAs i .succeeded := by
  obtain ⟨trace, cancelled, s, closing, rfl, -, htraced, hidle, rfl⟩ := exists_last hrun
  cases cancelled with
  | true => exact absurd (List.mem_append_right _ List.mem_cons_self) hset
  | false =>
    have hset' : .looked true ∉ trace.map (·.2) := fun hmem => hset (List.mem_append_left _ hmem)
    obtain ⟨hinputs, hall⟩ := (htraced.isSuccessful_iff hx hidle fun _ => hset').mp hsuccess
    exact ⟨trace, s, _, rfl, htraced, hidle, rfl, hinputs, hall⟩

/-- The reports of a run whose tasks all succeeded are those of the finished tasks. -/
theorem mem_closingReports_iff (hall : ∀ i, s.FinishedAs i .succeeded)
    {r : TaskReport Binary64} :
    r ∈ closingReports s false ↔ ∃ i, s.task i = .finished r := by
  unfold closingReports
  rw [List.mem_map]
  constructor
  · rintro ⟨i, -, rfl⟩
    obtain ⟨report, hi, -⟩ := hall i
    exact ⟨i, by rw [closingReport_of_finished hi, hi]⟩
  · rintro ⟨i, hi⟩
    exact ⟨i, List.mem_finRange i, by rw [closingReport_of_finished hi]⟩

section Cached

variable (hm : ∀ i, i ≠ m → (x.pipeline.taskAt i).executionType ≠ .promptTemplate)
  (hsheet : sheet.Storable) (hcache : cache.IsEmpty session.files) (hnow : session.now.IsProper)
  (hx : (x.withGenerator (.prepared sheet) order).Accepted)
  (hx' : (x.withGenerator (.cached (.prepared sheet) cache) order').Accepted)
  {schedule : Schedule} (schedule' : Schedule) {o : Outcome Binary64}

include hm hsheet hcache hnow hx hx'

/-- What succeeds without a cache and rejects no reply succeeds behind the cache. -/
theorem succeeds_cached (ho : (x.withGenerator (.prepared sheet) order).runWith (.prepared sheet)
      session answers schedule inputs = .ok o) (hsuccess : o.report.isSuccessful = true)
    (hrejects : ∀ r ∈ o.report.tasks, r.RejectsNoReply) :
    ∃ o', (x.withGenerator (.cached (.prepared sheet) cache) order').runWith
        (.cached (.prepared sheet) cache) session answers schedule' inputs = .ok o' ∧
      o'.report.isSuccessful = true := by
  obtain ⟨history, hrun, hturn⟩ := exists_reaches_runWith
    (x.withGenerator (.prepared sheet) order) (.prepared sheet) session answers schedule inputs
  obtain ⟨history', hrun', hturn'⟩ := exists_reaches_runWith
    (x.withGenerator (.cached (.prepared sheet) cache) order') (.cached (.prepared sheet) cache)
    session answers schedule' inputs
  rw [ho] at hrun
  obtain ⟨trace, s, rest, rfl, htraced, -, rfl, hinputs, hall⟩ :=
    exists_succeeded hx hrun hturn.looked_true_notMem hsuccess
  obtain ⟨trace', s', rest', rfl, htraced', hidle', ho', hall'⟩ :=
    exists_outcome_of_alike hx hx' htraced hinputs hall hrun' hturn'.looked_true_notMem <| by
      rintro trace' s' rest' rfl htraced' i run run' hfinished hsame hworked'
      obtain ⟨value, hvalue⟩ := hfinished.exists_value (hall i)
      have hreport := hrejects _ ((mem_closingReports_iff hall).mpr ⟨i, hfinished.task⟩)
      rw [hvalue]
      exact (htraced.ending_cached_iff hm hsheet hcache hnow hturn.of_append htraced'
        hturn'.of_append hsame hfinished.worked hworked' value).mpr
          ⟨hvalue, TaskRun.settled_rejectsNoReply_iff.mp hreport⟩
  have hset' : .looked true ∉ trace'.map (·.2) := hturn'.of_append.looked_true_notMem
  exact ⟨_, ho', (htraced'.isSuccessful_iff hx' hidle' fun _ => hset').mpr ⟨hinputs, hall'⟩⟩

/-- What succeeds behind a cache succeeds without it, and rejects no reply. -/
theorem succeeds_bare (ho : (x.withGenerator (.cached (.prepared sheet) cache) order').runWith
      (.cached (.prepared sheet) cache) session answers schedule' inputs = .ok o)
    (hsuccess : o.report.isSuccessful = true) (schedule : Schedule) :
    ∃ o', (x.withGenerator (.prepared sheet) order).runWith (.prepared sheet) session answers
        schedule inputs = .ok o' ∧
      o'.report.isSuccessful = true ∧ ∀ r ∈ o'.report.tasks, r.RejectsNoReply := by
  obtain ⟨history, hrun, hturn⟩ := exists_reaches_runWith
    (x.withGenerator (.prepared sheet) order) (.prepared sheet) session answers schedule inputs
  obtain ⟨history', hrun', hturn'⟩ := exists_reaches_runWith
    (x.withGenerator (.cached (.prepared sheet) cache) order') (.cached (.prepared sheet) cache)
    session answers schedule' inputs
  rw [ho] at hrun'
  obtain ⟨trace', s', rest', rfl, htraced', -, rfl, hinputs, hall'⟩ :=
    exists_succeeded hx' hrun' hturn'.looked_true_notMem hsuccess
  have halike : ∀ trace s rest, history = trace.map (·.2) ++ rest →
      (x.withGenerator (.prepared sheet) order).Traced inputs trace s →
      (x.withGenerator (.cached (.prepared sheet) cache) order').Alike
        (x.tools.withGenerator (prepared sheet).title) order trace' s' trace s := by
    rintro trace s rest rfl htraced i run' run hfinished' hsame hworked
    obtain ⟨value, hvalue⟩ := hfinished'.exists_value (hall' i)
    rw [hvalue]
    exact ((htraced.ending_cached_iff hm hsheet hcache hnow hturn.of_append htraced'
      hturn'.of_append hsame.symm hworked hfinished'.worked value).mp hvalue).1
  obtain ⟨trace, s, rest, rfl, htraced, hidle, ho, hall⟩ :=
    exists_outcome_of_alike hx' hx htraced' hinputs hall' hrun hturn.looked_true_notMem halike
  have hset : .looked true ∉ trace.map (·.2) := hturn.of_append.looked_true_notMem
  refine ⟨_, ho, (htraced.isSuccessful_iff hx hidle fun _ => hset).mpr ⟨hinputs, hall⟩,
    fun r hr => ?_⟩
  obtain ⟨i, hi⟩ := (mem_closingReports_iff hall).mp hr
  obtain ⟨run, hworked, rfl, -⟩ := htraced.exists_run hi
  have hfinished (j : x.pipeline.TaskIndex) : ∃ run,
      (x.withGenerator (.cached (.prepared sheet) cache) order').Finished trace' s' j run := by
    obtain ⟨run, hrun, -⟩ := htraced'.exists_finished (hall' j)
    exact ⟨run, hrun⟩
  obtain ⟨hsame, run', hfinished', -⟩ := htraced'.ending_eq hx' hfinished htraced
    (halike trace s rest rfl htraced) hworked
  obtain ⟨value, hvalue⟩ := hfinished'.exists_value (hall' i)
  exact TaskRun.settled_rejectsNoReply_iff.mpr
    ((htraced.ending_cached_iff hm hsheet hcache hnow hturn.of_append htraced' hturn'.of_append
      hsame.symm hworked hfinished'.worked value).mp hvalue).2

end Cached

/-- **A run behind an empty cache succeeds if and only if the run without the cache does and rejects
no reply.** -/
theorem cached_isSuccessful_iff {p : Pipeline} {tools : Tools} {settings : ExecutionSettings}
    {x x' : Executor} {m : p.TaskIndex} {sheet : AnswerSheet} {cache : FileCache}
    {session : Session}
    (hx : ofPipeline p (tools.withGenerator (prepared sheet).title) settings = .ok x)
    (hx' : ofPipeline p (tools.withGenerator (cached (.prepared sheet) cache).title) settings =
      .ok x')
    (hm : ∀ i, i ≠ m → (p.taskAt i).executionType ≠ .promptTemplate) (hsheet : sheet.Storable)
    (hcache : cache.IsEmpty session.files) (hnow : session.now.IsProper)
    (answers : (c : Call) → c.Answer Binary64) (inputs : Bindings String)
    (schedule schedule' : Schedule) :
    (∃ o, x'.runWith (.cached (.prepared sheet) cache) session answers schedule' inputs = .ok o ∧
        o.report.isSuccessful = true) ↔
      ∃ o, x.runWith (.prepared sheet) session answers schedule inputs = .ok o ∧
        o.report.isSuccessful = true ∧ ∀ r ∈ o.report.tasks, r.RejectsNoReply := by
  obtain ⟨order, rfl, hx⟩ := accepted_of_ofPipeline hx
  obtain ⟨order', rfl, hx'⟩ := accepted_of_ofPipeline hx'
  let base : Executor := ⟨p, tools, settings, order⟩
  constructor
  · rintro ⟨o, ho, hsuccess⟩
    exact succeeds_bare (x := base) hm hsheet hcache hnow hx hx' schedule' ho hsuccess schedule
  · rintro ⟨o, ho, hsuccess, hrejects⟩
    exact succeeds_cached (x := base) hm hsheet hcache hnow hx hx' schedule' ho hsuccess hrejects

end Executor

/-! ## A reply that does not do -/

/-- A prompt for an answer of two words. -/
def Task.sayHello : Task :=
  { Task.fillIn "greet" "Say hello" "greeting" [] with
    executionType := .promptTemplate, expectations := [.amount .minimum .words 2] }

/-- A pipeline of this one task. -/
def Pipeline.hello : Pipeline :=
  { url := none, title := "Greetings", dialectVersion := "1.0.0", description := none
    parameters := [{ name := "greeting", isOutput := true }]
    tasks := [.sayHello]
    knowledge := [] }

/-- First an answer of one word, then one of two. -/
def AnswerSheet.hello : AnswerSheet :=
  { title := "Scripted", models := .ok [], usage := 0, isStrict := false, cancelOnCall := none
    answers := ["Hi", "Hello there"].map fun content =>
      { answer := .ok { content, modelName := "scripted", usage := 0, rawResponse := .null } } }

/-- A session with an empty directory for the cache. -/
def Session.fresh : Session :=
  { files := { entries := [(["cache"], .directory)] } }

theorem Session.fresh_isEmpty : FileCache.IsEmpty ⟨["cache"]⟩ fresh.files :=
  FileCache.isEmpty_singleton "cache"

theorem AnswerSheet.hello_storable : hello.Storable := by
  refine ⟨fun prepared hprepared r hr => ?_, Usage.zero_survives⟩
  obtain ⟨content, -, rfl⟩ := List.mem_map.mp hprepared
  cases hr
  exact ⟨Usage.zero_survives, trivial⟩

namespace Executor

/-- What runs the pipeline with a generator. -/
def hello (g : TextGenerator) : Executor :=
  ⟨.hello, Tools.none.withGenerator g.title, {}, [⟨0, Nat.one_pos⟩]⟩

theorem ofPipeline_hello (g : TextGenerator) :
    ofPipeline .hello (Tools.none.withGenerator g.title) {} = .ok (hello g) := by
  cbv

/-- Without a cache, the first reply is rejected and the second one does. -/
theorem exists_hello_rejects_reply :
    ∃ o, (hello (.prepared .hello)).runWith (.prepared .hello) .fresh Call.refuse .firstTask ∅ =
        .ok o ∧
      o.report.isSuccessful = true ∧ ¬∀ r ∈ o.report.tasks, r.RejectsNoReply := by
  have hsummary : ((hello (.prepared .hello)).runWith (.prepared .hello) .fresh Call.refuse
      .firstTask ∅).map (fun o => (o.report.isSuccessful,
        o.report.tasks.all fun r => r.attempts.dropLast.all (·.reply.isNone))) =
          .ok (true, false) := by
    cbv
  cases hrun : (hello (.prepared .hello)).runWith (.prepared .hello) .fresh Call.refuse
      .firstTask ∅ with
  | error e =>
    rw [hrun] at hsummary
    cases hsummary
  | ok o =>
    rw [hrun] at hsummary
    injection hsummary with hpair
    refine ⟨o, rfl, congrArg Prod.fst hpair, fun hnone => ?_⟩
    have hall : (o.report.tasks.all fun r => r.attempts.dropLast.all (·.reply.isNone)) = true := by
      simp only [List.all_eq_true, Option.isNone_iff_eq_none]
      exact hnone
    have htrue : true = false := hall.symm.trans (congrArg Prod.snd hpair)
    cases htrue

/-- The greeting succeeds at the second attempt, but not behind a cache. -/
theorem hello_fails_behind_cache :
    (∃ o, (hello (.prepared .hello)).runWith (.prepared .hello) .fresh Call.refuse .firstTask ∅ =
        .ok o ∧ o.report.isSuccessful = true) ∧
      ¬∃ o, (hello (.cached (.prepared .hello) ⟨["cache"]⟩)).runWith
        (.cached (.prepared .hello) ⟨["cache"]⟩) .fresh Call.refuse .firstTask ∅ = .ok o ∧
          o.report.isSuccessful = true := by
  obtain ⟨o, ho, hsuccess, hrejects⟩ := exists_hello_rejects_reply
  refine ⟨⟨o, ho, hsuccess⟩, fun hcached => ?_⟩
  have hm (i : Pipeline.hello.TaskIndex) (hi : i ≠ ⟨0, Nat.one_pos⟩) :
      (Pipeline.hello.taskAt i).executionType ≠ .promptTemplate :=
    absurd (Subsingleton.elim (α := Fin 1) i ⟨0, Nat.one_pos⟩) hi
  obtain ⟨o', ho', -, hnone⟩ := (cached_isSuccessful_iff (ofPipeline_hello _) (ofPipeline_hello _)
    hm AnswerSheet.hello_storable Session.fresh_isEmpty ⟨by decide, by decide⟩ Call.refuse ∅
    .firstTask .firstTask).mp hcached
  rw [ho] at ho'
  cases ho'
  exact hrejects hnone

end Executor

end PromptPipeline
