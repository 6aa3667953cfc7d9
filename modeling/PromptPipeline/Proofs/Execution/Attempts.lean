import PromptPipeline.Proofs.Execution.Jokers

/-!
# The history of attempts

Making attempts is a loop, and here is what its histories look like: each attempt is one look at the
signal, one notification, the calls of the attempt and one more look. `Tried` has one case for each
way through the loop, and what holds of all attempts follows by one induction on it:

* `Tried.tells`: the report tells of every attempt that was announced, in order, and keeps every
  reply of a generator.
* `Tried.concluded`: attempts that are not given up go on until one succeeds, an error is final or
  none remain.
* `Tried.exists_last_look`: the signal is seen set at the very end or not at all.
-/

namespace PromptPipeline

variable {N : Type}

/-- What a generator replied, if the call was one to a generator and was answered. -/
def Call.reply? : (c : Call) → c.Answer N → Option (Reply N)
  | .generate _ _ _, .ok reply => some reply
  | _, _ => none

namespace Event

/-- The reply of a generator, if the event is one. -/
def reply? : Event N → Option (Reply N)
  | .answered c answer => c.reply? answer
  | _ => none

/-- The notification, if the event is one. -/
def notification? : Event N → Option Progress
  | .notified p => some p
  | _ => none

end Event

/-- The attempt failed with an error that is worth another attempt. -/
def AttemptReport.IsRetryable (made : AttemptReport N) : Prop :=
  ∃ e, made.error = some e ∧ e.isRetryable = true

/-- What the record of an attempt tells: its number, the value or the error that the attempt came
to, and the reply of the generator that was asked. With an error it has a result only if the result
does not meet the expectations of the task. -/
structure AttemptReport.Records (made : AttemptReport N) (t : Task) (number : Nat)
    (calls : List (Event N)) (result : Result String) : Prop where
  number : made.attempt = number
  value : ∀ value, result = .ok value →
    made.error = none ∧ made.result = some value ∧ t.Meets value
  error : ∀ e, result = .error e → made.error = some e
  fault : ∀ e value, made.error = some e → made.result = some value →
    ¬t.Meets value ∧ ∃ fault, e = .expectation fault
  replies : calls.filterMap Event.reply? = made.reply.toList

/-- The report tells of the events: the attempts are numbered from one on, each of them was
announced, and the replies of generators are in the records of the attempts. -/
structure TaskReport.Tells (r : TaskReport N) (own : List (Event N)) : Prop where
  numbers : r.attempts.map (·.attempt) = List.range' 1 r.attemptsUsed
  announced : own.filterMap Event.notification? =
    (List.range' 1 r.attemptsUsed).map (Progress.about r.task .dispatching ·)
  replies : own.filterMap Event.reply? = r.attempts.filterMap (·.reply)

/-- The attempts were not given up: all but the last one failed with an error that is worth another
attempt, and the last one succeeded, or failed with an error that is final or when no attempt
remained. -/
structure TaskRun.Concluded (run : TaskRun N) (maxAttempts : Nat) (earlier : List (AttemptReport N))
    (last : AttemptReport N) : Prop where
  attempts : run.report.attempts = earlier ++ [last]
  earlier : ∀ made ∈ earlier, made.IsRetryable
  used : run.report.attemptsUsed ≤ maxAttempts
  ending : (last.error = none ∧ ∃ value, last.result = some value ∧ run.ending = .succeeded value) ∨
    ∃ e, last.error = some e ∧ run.ending = .failed e ∧
      (run.report.attemptsUsed = maxAttempts ∨ e.isRetryable = false)

open Activity

namespace Assignment

variable {a : Assignment} {content : String} {number remaining : Nat} {calls own : List (Event N)}
  {attempt : AttemptReport N} {result : Result String} {report : TaskReport N} {run : TaskRun N}

/-! ## One attempt -/

theorem judge_records {reply : Option (Reply N)} {output : Result String}
    (hreplies : calls.filterMap Event.reply? = reply.toList) :
    (a.judge number reply output).1.Records a.task number calls
      (a.judge number reply output).2 := by
  cases output with
  | error e =>
    refine ⟨rfl, fun _ h => (nomatch h), fun e' h => ?_, fun _ _ _ h => (nomatch h), hreplies⟩
    cases h
    rfl
  | ok value =>
    unfold judge
    dsimp only
    split
    next hnone =>
      refine ⟨rfl, fun value' h => ?_, fun _ h => (nomatch h), fun _ _ h => (nomatch h), hreplies⟩
      cases h
      exact ⟨rfl, rfl, Task.meets_iff.mpr (Expectation.firstFault?_eq_none_iff.mp hnone)⟩
    next fault hfault =>
      refine ⟨rfl, fun _ h => (nomatch h), fun e h => ?_, fun e value' he hvalue => ?_, hreplies⟩
      · cases h
        rfl
      · cases he
        cases hvalue
        refine ⟨fun hmeets => ?_, fault, rfl⟩
        rw [Expectation.firstFault?_eq_none_iff.mpr (Task.meets_iff.mp hmeets)] at hfault
        cases hfault

/-- To produce an output is to ask one generator at most, and its reply is kept. -/
theorem produce_replies {reply : Option (Reply N)} {output : Result String}
    (h : (a.produce content).Reaches calls (.done (reply, output))) :
    calls.filterMap Event.reply? = reply.toList := by
  have hquiet {β : Type} {b : Activity N β} {r : β} (hb : b.Confined (·.reply? = none))
      {history : List (Event N)} (hr : b.Reaches history (.done r)) :
      history.filterMap Event.reply? = [] :=
    List.filterMap_eq_nil_iff.mpr (hb.of_reaches hr)
  unfold produce at h
  cases htype : a.task.executionType with
  | simpleTemplate =>
    rw [htype] at h
    obtain ⟨rfl, heq⟩ := reaches_done_iff.mp h
    cases heq
    rfl
  | promptTemplate =>
    rw [htype] at h
    obtain ⟨h₁, h₂, answer, rfl, hgenerate, hdone⟩ := reaches_bind_iff.mp h
    obtain ⟨h₃, h₄, chosen, rfl, hchosen, hcall⟩ := reaches_bind_iff.mp hgenerate
    have hmodels := hquiet (a.tools.chooseGenerator_confined (fun _ _ => rfl) _) hchosen
    cases chosen with
    | error e =>
      obtain ⟨rfl, heq⟩ := reaches_done_iff.mp hcall
      cases heq
      obtain ⟨rfl, heq⟩ := reaches_done_iff.mp hdone
      cases heq
      simp [hmodels]
    | ok i =>
      cases hcall with
      | answered hcall =>
        obtain ⟨rfl, heq⟩ := reaches_done_iff.mp hcall
        cases heq
        cases answer with
        | ok reply =>
          obtain ⟨rfl, heq⟩ := reaches_done_iff.mp hdone
          cases heq
          simp [hmodels, Event.reply?, Call.reply?]
        | error e =>
          obtain ⟨rfl, heq⟩ := reaches_done_iff.mp hdone
          cases heq
          simp [hmodels, Event.reply?, Call.reply?]
  | script =>
    rw [htype] at h
    obtain ⟨h₁, h₂, answer, rfl, hscript, hdone⟩ := reaches_bind_iff.mp h
    obtain ⟨rfl, heq⟩ := reaches_done_iff.mp hdone
    cases heq
    rw [List.append_nil]
    exact hquiet (runScript_confined (fun _ _ _ _ _ => rfl) content) hscript
  | promptDialog =>
    rw [htype] at h
    obtain ⟨h₁, h₂, answer, rfl, hasked, hdone⟩ := reaches_bind_iff.mp h
    obtain ⟨rfl, heq⟩ := reaches_done_iff.mp hdone
    cases heq
    rw [List.append_nil]
    exact hquiet (askUser_confined (fun _ _ _ => rfl) content) hasked

/-- What an attempt leaves is the verdict on an output, with the reply that a generator gave. -/
theorem exists_judge {made : AttemptReport N × Result String}
    (h : (a.attempt content number).Reaches calls (.done made)) :
    ∃ reply output, made = a.judge number reply output ∧
      calls.filterMap Event.reply? = reply.toList := by
  obtain ⟨h₁, h₂, ⟨reply, output⟩, rfl, hproduced, hrest⟩ := reaches_bind_iff.mp h
  have hreplies := produce_replies hproduced
  cases output with
  | error e =>
    obtain ⟨rfl, heq⟩ := reaches_done_iff.mp hrest
    cases heq
    exact ⟨reply, .error e, rfl, by rw [List.append_nil, hreplies]⟩
  | ok value =>
    obtain ⟨h₃, h₄, value', rfl, hprocessed, hdone⟩ := reaches_bind_iff.mp hrest
    obtain ⟨rfl, heq⟩ := reaches_done_iff.mp hdone
    cases heq
    have hquiet := (postprocess_confined (a := a) (P := (Event.reply? · = none))
      (fun _ _ _ _ _ => rfl) _ _).of_reaches hprocessed
    refine ⟨reply, value', rfl, ?_⟩
    rw [List.append_nil, List.filterMap_append, hreplies, List.filterMap_eq_nil_iff.mpr hquiet,
      List.append_nil]

/-- **The record of an attempt** tells what the attempt came to. -/
theorem attempt_records (h : (a.attempt content number).Reaches calls (.done (attempt, result))) :
    attempt.Records a.task number calls result := by
  obtain ⟨reply, output, heq, hreplies⟩ := exists_judge h
  have hattempt : attempt = (a.judge number reply output).1 := congrArg Prod.fst heq
  have hresult : result = (a.judge number reply output).2 := congrArg Prod.snd heq
  rw [hattempt, hresult]
  exact judge_records hreplies

/-! ## All attempts -/

/-- An attempt is announced once. -/
theorem attemptEvents_announced (b : Bool)
    (h : (a.attempt content number).Reaches calls (.done (attempt, result))) :
    (a.attemptEvents number calls ++ [Event.looked b]).filterMap Event.notification? =
      [.about a.task .dispatching number] := by
  have hquiet : calls.filterMap Event.notification? = [] := by
    refine List.filterMap_eq_nil_iff.mpr fun e he => ?_
    obtain ⟨c, answer, rfl⟩ := attempt_answered h he
    rfl
  simp [attemptEvents, List.filterMap_cons, Event.notification?, hquiet]

theorem attemptEvents_replies (b : Bool)
    (h : (a.attempt content number).Reaches calls (.done (attempt, result))) :
    (a.attemptEvents number calls ++ [Event.looked b]).filterMap Event.reply? =
      [attempt].filterMap (·.reply) := by
  have hreplies := (attempt_records h).replies
  cases hreply : attempt.reply with
  | none =>
    rw [hreply] at hreplies
    simp [attemptEvents, List.filterMap_cons, Event.reply?, hreplies, hreply]
  | some reply =>
    rw [hreply] at hreplies
    simp [attemptEvents, List.filterMap_cons, Event.reply?, hreplies, hreply]

/-- A report that tells of the events so far tells of one more attempt. -/
theorem tells_withAttempt {past : List (Event N)} (b : Bool) (hpast : report.Tells past)
    (htask : report.task = a.task) (hnumber : report.attemptsUsed + 1 = number)
    (h : (a.attempt content number).Reaches calls (.done (attempt, result))) :
    (report.withAttempt number attempt).Tells
      (past ++ (a.attemptEvents number calls ++ [.looked b])) := by
  have hrange : List.range' 1 number = List.range' 1 report.attemptsUsed ++ [number] := by
    rw [← hnumber, List.range'_concat, Nat.one_mul, Nat.add_comm 1]
  refine ⟨?_, ?_, ?_⟩
  · show (report.attempts ++ [attempt]).map _ = List.range' 1 number
    rw [List.map_append, hpast.numbers, hrange, List.map_singleton, (attempt_records h).number]
  · show _ = (List.range' 1 number).map (Progress.about report.task .dispatching ·)
    rw [List.filterMap_append, hpast.announced, attemptEvents_announced b h, hrange,
      List.map_append, List.map_singleton, htask]
  · show _ = (report.attempts ++ [attempt]).filterMap _
    rw [List.filterMap_append, hpast.replies, attemptEvents_replies b h, List.filterMap_append]

namespace Tried

/-- **The report tells of all attempts**, whatever they come to. -/
theorem tells (h : Tried a content number report remaining own run) {past : List (Event N)}
    (hpast : report.Tells past) (htask : report.task = a.task)
    (hnumber : report.attemptsUsed + 1 = number) : run.report.Tells (past ++ own) := by
  induction h generalizing past with
  | exhausted => rwa [List.append_nil]
  | stopped =>
    -- A look alone is neither an announcement nor a reply.
    refine ⟨hpast.numbers, ?_, ?_⟩
    · rw [List.filterMap_append, hpast.announced]
      exact List.append_nil _
    · rw [List.filterMap_append, hpast.replies]
      exact List.append_nil _
  | interrupted hmade => exact tells_withAttempt true hpast htask hnumber hmade
  | succeeded hmade => exact tells_withAttempt false hpast htask hnumber hmade
  | failed hmade => exact tells_withAttempt false hpast htask hnumber hmade
  | retried hmade _ _ _ ih =>
    have hnext := ih (tells_withAttempt false hpast htask hnumber hmade) htask rfl
    simpa using hnext

/-- All attempts are recorded. -/
theorem records (h : Tried a content number report remaining own run)
    {P : AttemptReport N → Prop} (hreport : ∀ made ∈ report.attempts, P made)
    (hP : ∀ {attempt number calls result}, attempt.Records a.task number calls result → P attempt) :
    ∀ made ∈ run.report.attempts, P made := by
  have hlast {report : TaskReport N} {number : Nat} {calls : List (Event N)}
      {attempt : AttemptReport N} {result : Result String}
      (hreport : ∀ made ∈ report.attempts, P made)
      (hmade : (a.attempt content number).Reaches calls (.done (attempt, result))) :
      ∀ made ∈ (report.withAttempt number attempt).attempts, P made :=
    List.forall_mem_append.mpr
      ⟨hreport, List.forall_mem_singleton.mpr (hP (attempt_records hmade))⟩
  induction h with
  | exhausted => exact hreport
  | stopped => exact hreport
  | interrupted hmade => exact hlast hreport hmade
  | succeeded hmade => exact hlast hreport hmade
  | failed hmade => exact hlast hreport hmade
  | retried hmade _ _ _ ih => exact ih (hlast hreport hmade)

/-- **Attempts that are not given up** go on until one succeeds, an error is final or none
remain. -/
theorem concluded (h : Tried a content number report remaining own run) {maxAttempts : Nat}
    (hremaining : 0 < remaining) (hnumber : number + remaining = maxAttempts + 1)
    (hearlier : ∀ made ∈ report.attempts, made.IsRetryable) (hending : run.ending ≠ .cancelled) :
    ∃ earlier last, run.Concluded maxAttempts earlier last := by
  induction h with
  | exhausted => exact absurd hremaining (Nat.lt_irrefl 0)
  | stopped => exact absurd rfl hending
  | interrupted => exact absurd rfl hending
  | @succeeded number remaining report _ attempt value hmade =>
    obtain ⟨hnone, hvalue, -⟩ := (attempt_records hmade).value value rfl
    exact ⟨report.attempts, attempt, rfl, hearlier, by show number ≤ _; omega,
      .inl ⟨hnone, value, hvalue, rfl⟩⟩
  | @failed number remaining report _ attempt e hmade hlast =>
    have herror := (attempt_records hmade).error e rfl
    refine ⟨report.attempts, attempt, rfl, hearlier, by show number ≤ _; omega,
      .inr ⟨e, herror, rfl, ?_⟩⟩
    show number = maxAttempts ∨ _
    -- An error that is worth another attempt is the last one only if no attempt remains.
    cases hretry : e.isRetryable with
    | false => exact .inr rfl
    | true =>
      have : ¬0 < remaining := fun h => hlast ⟨hretry, h⟩
      exact .inl (by omega)
  | retried hmade hretry hnext _ ih =>
    have herror := (attempt_records hmade).error _ rfl
    refine ih hnext (by omega) ?_ hending
    exact List.forall_mem_append.mpr
      ⟨hearlier, List.forall_mem_singleton.mpr ⟨_, herror, hretry⟩⟩

end Tried

/-! ## The whole work -/

variable [Zero N] [Add N]

/-- The work on a task fails for lack of a content, adopts a joker, or makes attempts. -/
theorem work_cases (h : a.work.Reaches own (.done run)) :
    (∃ e, a.content = .error e ∧ own = [] ∧ run = ⟨.ofTask a.task, .failed e⟩) ∨
      (∃ content joker value, a.content = .ok content ∧ a.passingJoker? = some (joker, value) ∧
        own = [] ∧ run = ⟨{ TaskReport.ofTask a.task with
          substitutedContent := some content, jokerUsed := some joker }, .succeeded value⟩) ∨
      ∃ content tried, a.content = .ok content ∧ a.passingJoker? = none ∧
        Tried a content 1 { TaskReport.ofTask a.task with substitutedContent := some content }
          a.maxAttempts own tried ∧
        run = ⟨{ tried.report with usage := Usage.total (tried.report.attempts.map (·.usage)) },
          tried.ending⟩ := by
  cases hcontent : a.content with
  | error e =>
    rw [work_of_content_eq_error hcontent] at h
    obtain ⟨rfl, heq⟩ := reaches_done_iff.mp h
    cases heq
    exact .inl ⟨e, rfl, rfl, rfl⟩
  | ok content =>
    cases hjoker : a.passingJoker? with
    | some found =>
      obtain ⟨joker, value⟩ := found
      rw [work_of_passingJoker?_eq_some hcontent hjoker] at h
      obtain ⟨rfl, heq⟩ := reaches_done_iff.mp h
      cases heq
      exact .inr (.inl ⟨content, joker, value, rfl, rfl, rfl, rfl⟩)
    | none =>
      unfold work at h
      rw [hcontent] at h
      dsimp only at h
      rw [hjoker] at h
      obtain ⟨h₁, h₂, tried, rfl, hmade, hdone⟩ := reaches_bind_iff.mp h
      obtain ⟨rfl, heq⟩ := reaches_done_iff.mp hdone
      cases heq
      rw [List.append_nil]
      exact .inr (.inr ⟨content, tried, rfl, rfl, tried_of_makeAttempts hmade, rfl⟩)

omit [Add N] in
/-- A report without attempts tells of no events. -/
theorem tells_nil (t : Task) (content joker : Option String) :
    { TaskReport.ofTask (N := N) t with
      substitutedContent := content, jokerUsed := joker }.Tells [] :=
  ⟨rfl, rfl, rfl⟩

/-- **The report of a task tells of all events of the work on it**, and its usage is that of all
attempts. -/
theorem work_tells (h : a.work.Reaches own (.done run)) :
    run.report.Tells own ∧ run.report.usage = Usage.total (run.report.attempts.map (·.usage)) ∧
      run.report.error = none ∧ run.report.result = none := by
  rcases work_cases h with ⟨e, -, rfl, rfl⟩ | ⟨content, joker, value, -, -, rfl, rfl⟩ |
    ⟨content, tried, -, -, htried, rfl⟩
  · exact ⟨tells_nil a.task none none, rfl, rfl, rfl⟩
  · exact ⟨tells_nil a.task (some content) (some joker), rfl, rfl, rfl⟩
  · have htells := htried.tells (tells_nil a.task (some content) none) rfl rfl
    have hreport := htried.report_eq
    refine ⟨⟨htells.numbers, htells.announced, htells.replies⟩, rfl, ?_, ?_⟩
    · show tried.report.error = none
      rw [hreport]
      rfl
    · show tried.report.result = none
      rw [hreport]
      rfl

/-- **Work that is not given up and adopts no joker** goes on until an attempt succeeds, an error is
final or no attempt remains. -/
theorem work_concluded (h : a.work.Reaches own (.done run)) (hmax : 0 < a.maxAttempts)
    (hordinary : ∀ fault, run.ending ≠ .failed (.unexpected fault))
    (hjoker : run.report.jokerUsed = none) (hending : run.ending ≠ .cancelled) :
    ∃ earlier last, run.Concluded a.maxAttempts earlier last := by
  rcases work_cases h with ⟨e, he, -, rfl⟩ | ⟨content, joker, value, -, -, -, rfl⟩ |
    ⟨content, tried, -, -, htried, rfl⟩
  · obtain ⟨-, name, -, -, rfl⟩ := exists_of_content_eq_error he
    exact absurd rfl (hordinary _)
  · cases hjoker
  · obtain ⟨earlier, last, hconcluded⟩ :=
      htried.concluded hmax (Nat.add_comm _ _) (List.forall_mem_nil _) hending
    exact ⟨earlier, last, hconcluded.attempts, hconcluded.earlier, hconcluded.used,
      hconcluded.ending⟩

/-- The attempts of the work are recorded. -/
theorem work_records (h : a.work.Reaches own (.done run)) :
    ∀ made ∈ run.report.attempts, ∃ number calls result,
      made.Records a.task number (calls : List (Event N)) result := by
  rcases work_cases h with ⟨e, -, -, rfl⟩ | ⟨content, joker, value, -, -, -, rfl⟩ |
    ⟨content, tried, -, -, htried, rfl⟩
  · exact List.forall_mem_nil _
  · exact List.forall_mem_nil _
  · exact htried.records (List.forall_mem_nil _) fun hrecords => ⟨_, _, _, hrecords⟩

end Assignment

end PromptPipeline
