import PromptPipeline.Proofs.Execution.Asking
import PromptPipeline.Proofs.Execution.Caching
import PromptPipeline.Proofs.Execution.Notifications
import PromptPipeline.Proofs.Execution.Rounds
import PromptPipeline.Proofs.Usage

/-!
# What a run cost

An attempt costs what the generator says that answered in it, whatever becomes of the answer, and
else nothing. Nothing of this is lost on the way to the total of a run, and nothing is counted
twice:

* `AttemptReport.Billed`: what the calls of an attempt make it cost.
* `Executor.Traced.closingReport_billed`: at the end of a run, the attempts of a task are those of
  its rounds.
* `Executor.filterMap_perm_eventsOf`: what generators reply in a run they reply to its tasks.

Main statement: `usage_accounted`.
-/

namespace PromptPipeline

variable {N : Type}

/-- The attempt costs what the generator says that answered one of the calls, or exactly nothing if
none did. -/
def AttemptReport.Billed [Zero N] (made : AttemptReport N) (calls : List (Event N)) : Prop :=
  (∃ reply, calls.filterMap Event.reply? = [reply] ∧ made.usage = reply.usage) ∨
    calls.filterMap Event.reply? = [] ∧ made.usage = 0

/-- The attempts of the report are those of the rounds that the events consist of, and each of them
is billed for its calls. -/
def TaskReport.Billed [Zero N] (r : TaskReport N) (t : Task) (own : List (Event N)) : Prop :=
  ∃ (rounds : List (Round N)) (rest : List (Event N)),
    own = rounds.flatMap t.roundEvents ++ rest ∧ (rest = [] ∨ rest = [.looked true]) ∧
    r.attempts = rounds.map (·.made) ∧ ∀ round ∈ rounds, round.made.Billed round.calls

/-! ## Attempts -/

section Attempts

variable [Zero N] {made : AttemptReport N} {calls : List (Event N)}

/-- A record that keeps the reply of a generator is billed for it. -/
theorem AttemptReport.billed_of_replies
    (h : calls.filterMap Event.reply? = made.reply.toList) : made.Billed calls := by
  unfold Billed usage
  rw [h]
  cases made.reply with
  | none => exact .inr ⟨rfl, rfl⟩
  | some reply => exact .inl ⟨reply, rfl, rfl⟩

theorem AttemptReport.usage_isSum [Add N] (made : AttemptReport N) :
    made.usage.IsSum (made.reply.toList.map (·.usage)) := by
  unfold usage
  cases made.reply with
  | none => exact Usage.zero_isSum_nil
  | some reply => exact Usage.isSum_singleton reply.usage

/-- A total over attempts is the sum of what generators said. -/
theorem total_isSum_replies [Add N] (attempts : List (AttemptReport N)) :
    (Usage.total (attempts.map (·.usage))).IsSum ((attempts.filterMap (·.reply)).map (·.usage)) := by
  have hsum := (Usage.total_isSum (attempts.map (·.usage))).flatMap
    fun made _ => made.usage_isSum
  rwa [List.filterMap_eq_flatMap_toList, List.map_flatMap]

end Attempts

namespace Executor

open RunState

variable {x : Executor} {inputs : Bindings String} {s : RunState N x.pipeline}
  {trace : Trace N x.pipeline}

/-! ## Tasks -/

/-- Of a trace, what is taken from the events of all tasks is what is taken from the whole, if there
is nothing to take from the run's own events. -/
theorem filterMap_perm_eventsOf {β : Type} {f : Event N → Option β}
    (h : ∀ e, (none, e) ∈ trace → f e = none) :
    ((trace.map (·.2)).filterMap f).Perm
      ((List.finRange _).flatMap fun i => (eventsOf trace i).filterMap f) := by
  induction trace with
  | nil => simp [eventsOf]
  | cons entry rest ih =>
    have hrest := ih fun e he => h e (List.mem_cons_of_mem _ he)
    have hsplit (i : x.pipeline.TaskIndex) : (eventsOf (entry :: rest) i).filterMap f =
        (eventsOf [entry] i).filterMap f ++ (eventsOf rest i).filterMap f := by
      rw [← List.filterMap_append, ← eventsOf_append]
      rfl
    have hfirst : (List.finRange _).flatMap (fun i => (eventsOf [entry] i).filterMap f) =
        [entry.2].filterMap f := by
      obtain ⟨tag, e⟩ := entry
      cases tag with
      | none =>
        simp [eventsOf, h e List.mem_cons_self]
      | some i =>
        rw [flatMap_eq_of_eq_nil_off (List.nodup_finRange _) (List.mem_finRange i)]
        · simp [eventsOf]
        · intro j hj
          simp [eventsOf, hj.symm]
    simp only [hsplit]
    refine .trans ?_ (List.flatMap_append_perm _ _ _)
    rw [hfirst, List.map_cons, ← List.singleton_append, List.filterMap_append]
    exact hrest.append_left ([entry.2].filterMap f)

variable [Zero N] [Add N]

/-- **At the end of a run, the attempts of each task are those of its rounds**, and each is billed
for its calls. -/
theorem Traced.closingReport_billed (h : x.Traced inputs trace s) (hidle : s.running = [])
    (cancelled : Bool) (i : x.pipeline.TaskIndex) :
    (x.closingReport s cancelled i).1.Billed (x.pipeline.taskAt i) (eventsOf trace i) := by
  rcases pending_or_finished_of_idle hidle i with hi | ⟨report, hi⟩
  · have hlogged := h.logged i
    rw [hi] at hlogged
    rw [closingReport_of_pending hi, hlogged.eq_nil]
    exact ⟨[], [], rfl, .inl rfl, rfl, List.forall_mem_nil _⟩
  · obtain ⟨run, hworked, rfl, -⟩ := h.exists_run hi
    obtain ⟨content, rounds, hrounds, hattempts, -⟩ := Assignment.work_rounds hworked.reaches
    obtain ⟨rest, hevents, hrest⟩ := hrounds.events
    rw [closingReport_of_finished hi]
    refine ⟨rounds, rest, hevents, hrest, ?_, fun round hround => ?_⟩
    · rw [TaskRun.settled_attempts, hattempts]
    · have hrecords := Assignment.attempt_records (hrounds.attempted round hround)
      exact AttemptReport.billed_of_replies hrecords.replies

/-- At the end of a run, the usage of a task is the total of its attempts, and these have all replies
of generators that the task was given. -/
theorem Traced.closingReport_usage (h : x.Traced inputs trace s) (hidle : s.running = [])
    (cancelled : Bool) (i : x.pipeline.TaskIndex) :
    (x.closingReport s cancelled i).1.usage =
        Usage.total ((x.closingReport s cancelled i).1.attempts.map (·.usage)) ∧
      (eventsOf trace i).filterMap Event.reply? =
        (x.closingReport s cancelled i).1.attempts.filterMap (·.reply) := by
  rcases pending_or_finished_of_idle hidle i with hi | ⟨report, hi⟩
  · have hlogged := h.logged i
    rw [hi] at hlogged
    rw [closingReport_of_pending hi, hlogged.eq_nil]
    exact ⟨rfl, rfl⟩
  · obtain ⟨run, hworked, rfl, -⟩ := h.exists_run hi
    obtain ⟨htells, husage, -⟩ := Assignment.work_tells hworked.reaches
    rw [closingReport_of_finished hi, TaskRun.settled_usage, TaskRun.settled_attempts]
    exact ⟨husage, htells.replies⟩

/-! ## Runs -/

theorem Traced.replies_perm (h : x.Traced inputs trace s) :
    ((trace.map (·.2)).filterMap Event.reply?).Perm
      ((List.finRange _).flatMap fun i => (eventsOf trace i).filterMap Event.reply?) :=
  filterMap_perm_eventsOf fun _ he => Event.reply?_eq_none (h.asks_nothing he)

/-- The total of a run is the sum of what all generators said that replied in it. -/
theorem Traced.total_isSum_replies (h : x.Traced inputs trace s) (hidle : s.running = [])
    (cancelled : Bool) :
    (Usage.total ((closingReports s cancelled).map (·.usage))).IsSum
      (((trace.map (·.2)).filterMap Event.reply?).map (·.usage)) := by
  have htasks : (Usage.total ((closingReports s cancelled).map (·.usage))).IsSum
      ((List.finRange _).map fun i => (x.closingReport s cancelled i).1.usage) := by
    have htotal := Usage.total_isSum ((closingReports s cancelled).map (·.usage))
    rwa [closingReports, List.map_map] at htotal ⊢
  have hreplies : (Usage.total ((closingReports s cancelled).map (·.usage))).IsSum
      ((List.finRange _).flatMap fun i =>
        ((eventsOf trace i).filterMap Event.reply?).map (·.usage)) := by
    refine htasks.flatMap fun i _ => ?_
    obtain ⟨husage, hreplies⟩ := h.closingReport_usage hidle cancelled i
    rw [husage, hreplies]
    exact PromptPipeline.total_isSum_replies _
  rw [← List.map_flatMap] at hreplies
  exact hreplies.perm (h.replies_perm.symm.map _)

/-- **Usage is accounted for.** In a run that returned an outcome, under every schedule, the usage of
the outcome is that of its report. The usage of each task is the sum of its attempts, and that of the
run is the sum of all attempts, which is the sum of what generators said in all their replies. Each
attempt is one of the rounds of its task, and it costs what the generator said that replied in the
round, and exactly nothing if none did, whatever came of the reply. -/
theorem usage_accounted {schedule : Schedule} {history : List (Event N)} {o : Outcome N}
    (hrun : (x.execute schedule inputs).Reaches history (.done (.ok o))) :
    o.usage = o.report.usage ∧
    (∀ r ∈ o.report.tasks, r.usage.IsSum (r.attempts.map (·.usage))) ∧
    o.usage.IsSum ((o.report.tasks.flatMap (·.attempts)).map (·.usage)) ∧
    o.usage.IsSum ((history.filterMap Event.reply?).map (·.usage)) ∧
    ∃ (trace : Trace N x.pipeline) (closing : List (Event N)),
      history = trace.map (·.2) ++ closing ∧ (∀ e ∈ closing, e.reply? = none) ∧
      (∀ e, (none, e) ∈ trace → e.reply? = none) ∧
      ∀ i : x.pipeline.TaskIndex, ∃ r, o.report.tasks[i.val]? = some r ∧
        r.Billed (x.pipeline.taskAt i) (eventsOf trace i) := by
  obtain ⟨trace, cancelled, s, rfl, htraced, hidle, rfl⟩ := exists_closed hrun
  have hclosing : ∀ e ∈ Event.looked (N := N) cancelled :: (closings s cancelled).map .notified,
      e.reply? = none := by
    refine List.forall_mem_cons.mpr ⟨rfl, fun e he => ?_⟩
    obtain ⟨progress, -, rfl⟩ := List.mem_map.mp he
    rfl
  have htasks : ∀ r ∈ closingReports s cancelled, r.usage.IsSum (r.attempts.map (·.usage)) := by
    intro r hr
    obtain ⟨i, -, rfl⟩ := List.mem_map.mp hr
    rw [(htraced.closingReport_usage hidle cancelled i).1]
    exact Usage.total_isSum _
  refine ⟨rfl, htasks, ?_, ?_, trace, _, rfl, hclosing,
    fun e he => Event.reply?_eq_none (htraced.asks_nothing he),
    fun i => ⟨_, closingReports_getElem? s cancelled i, htraced.closingReport_billed hidle _ i⟩⟩
  · rw [List.map_flatMap]
    exact (Usage.total_isSum ((closingReports s cancelled).map (·.usage))).flatMap htasks
  · rw [List.filterMap_append, List.filterMap_eq_nil_iff.mpr hclosing, List.append_nil]
    exact htraced.total_isSum_replies hidle cancelled

end Executor

/-- A generator that answers with one word at first and with two from then on. It can only estimate
what an answer costs. -/
def Environment.hesitant : Environment (StateM Nat) Nat where
  answer
    | .generate _ _ _ => fun n =>
      (.ok { content := if n = 0 then "Hi" else "Hi there", modelName := "scripted"
             timing := ⟨⟨0, 0⟩, ⟨0, 0⟩⟩, usage := ⟨.estimate 5, .exact 2, .exact 1⟩
             rawResponse := .null }, n + 1)
    | c => pure c.refuse
  isCancelled := pure false
  notify _ := pure ()

namespace Executor

/-- The first answer is rejected, and is paid for all the same. -/
theorem hello_pays_for_rejected_answer :
    ∃ (history : List (Event Nat)) (o : Outcome Nat),
      ((hello (.prepared .hello)).execute .firstTask ∅).Reaches history (.done (.ok o)) ∧
      o.report.isSuccessful = true ∧ o.usage.price = .estimate 10 ∧
      o.usage.inputTokens = .exact 4 := by
  obtain ⟨history, hreaches, -⟩ := Activity.exists_reaches_run Environment.hesitant
    ((hello (.prepared .hello)).execute .firstTask ∅) 0
  have hsummary : ((((hello (.prepared .hello)).execute .firstTask ∅).run
      Environment.hesitant).run 0).1.map (fun o => (o.report.isSuccessful,
        (o.report.tasks.flatMap (·.attempts)).map (·.usage))) =
      .ok (true, List.replicate 2 ⟨.estimate 5, .exact 2, .exact 1⟩) := by
    cbv
  cases hrun : ((((hello (.prepared .hello)).execute .firstTask ∅).run
      Environment.hesitant).run 0).1 with
  | error e =>
    rw [hrun] at hsummary
    cases hsummary
  | ok o =>
    rw [hrun] at hsummary hreaches
    injection hsummary with hpair
    obtain ⟨hsuccess, hattempts⟩ := Prod.mk.inj hpair
    obtain ⟨-, -, hsum, -⟩ := usage_accounted hreaches
    rw [hattempts] at hsum
    have hexact : ExactAddition Nat := ⟨Nat.zero_add, Nat.add_comm, Nat.add_assoc⟩
    have hprice := hsum Usage.price (by simp [Usage.numbers])
    have htokens := hsum Usage.inputTokens (by simp [Usage.numbers])
    exact ⟨history, o, hreaches, hsuccess, hprice.unique ⟨fun _ => rfl, by decide⟩ hexact,
      htokens.unique ⟨fun _ => rfl, by decide⟩ hexact⟩

end Executor

end PromptPipeline
