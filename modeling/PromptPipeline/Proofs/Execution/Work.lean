import PromptPipeline.Execution.Worker
import PromptPipeline.Proofs.Bindings
import PromptPipeline.Proofs.Dialect.Template
import PromptPipeline.Proofs.Execution.History

/-!
# What the work on a task comes to

The work on a task is an activity, so what it comes to depends on the events of its history. Here is
what a run needs to know of it:

* `tried_of_makeAttempts`: the ways through the attempts, each with its events, said once for all
  that is proved about attempts.
* `work_ensures`: it is about its task, and is only cancelled if the signal was set.
* `work_raises`: an error of its content apart, it fails with an error of the task, or with one that
  an adapter raised.
* `work_ordinary`: adapters that keep their promises leave one internal error possible, and the
  content of the task alone decides whether it happens (`content_isOk_iff`).
* `work_notifies`: it announces attempts and nothing else.
-/

namespace PromptPipeline

/-- Whether a task requires every parameter that its content has a placeholder for. A script has no
placeholders. -/
def Task.Closed (t : Task) : Prop :=
  t.executionType ≠ .script → ∀ name ∈ Template.parameters t.content, name ∈ t.required

/-- Whether the result fails, if it does, with an error of the task or with one of the errors that
adapters raise. -/
def Raises {α : Type} (R : PipelineError → Prop) (r : Result α) : Prop :=
  ∀ e, r = .error e → e.isTaskLevel = true ∨ R e

section Raises

variable {α β : Type} {R : PipelineError → Prop}

theorem raises_ok (value : α) : Raises R (.ok value) :=
  fun _ h => nomatch h

theorem Raises.error {e : PipelineError} (h : Raises (α := α) R (.error e)) :
    Raises (α := β) R (.error e) := by
  intro e' heq
  cases heq
  exact h e rfl

theorem raises_execution (fault : ExecutionFault) :
    Raises (α := α) R (.error (.execution fault)) := by
  intro e heq
  cases heq
  exact .inl rfl

theorem raises_expectation (fault : ExpectationFault) :
    Raises (α := α) R (.error (.expectation fault)) := by
  intro e heq
  cases heq
  exact .inl rfl

end Raises

variable {N : Type} {E P : Event N → Prop} {R : PipelineError → Prop}

/-- The report with one more attempt. -/
def TaskReport.withAttempt (r : TaskReport N) (number : Nat) (attempt : AttemptReport N) :
    TaskReport N :=
  { r with attemptsUsed := number, attempts := r.attempts ++ [attempt] }

open Activity

/-! ## Errors -/

namespace Tools

/-- No generator is to blame for the choice among them. -/
theorem chooseGenerator_raises (tools : Tools) (r : ModelRequirements) :
    (tools.chooseGenerator r).Ensures E (Raises R) := by
  unfold chooseGenerator
  split
  next => exact ensures_done (raises_execution _)
  next => exact ensures_done (raises_ok _)
  next =>
    refine Ensures.bind (ensures_true _) fun found _ => ?_
    cases found with
    | none => exact ensures_done (raises_execution _)
    | some i => exact ensures_done (raises_ok i)

/-- To choose a generator is to ask for models and nothing else. -/
theorem chooseGenerator_confined
    (hmodels : ∀ i answer, P (.answered (.listModels i) answer)) (tools : Tools)
    (r : ModelRequirements) : (tools.chooseGenerator (N := N) r).Confined P := by
  have hask (name : String) (variant : ModelVariant) (position : Nat) (titles : List String) :
      (askForModel (N := N) name variant position titles).Confined P := by
    induction titles generalizing position with
    | nil => trivial
    | cons title rest ih =>
      refine Confined.bind (fun answer => ⟨hmodels _ answer, trivial⟩) fun models => ?_
      split
      next =>
        split
        next => trivial
        next => exact ih _
      next => exact ih _
  unfold chooseGenerator
  split
  next => trivial
  next => trivial
  next =>
    refine Confined.bind (hask ..) fun found => ?_
    cases found <;> trivial

end Tools

namespace Assignment

variable {a : Assignment}

section Raises

variable (hE : ∀ (c : Call) (answer : c.Answer N), E (.answered c answer) →
  ∀ e, c.failure? answer = some e → R e)

include hE

/-- A call raises what its adapter raises. -/
theorem generate_raises (content : String) :
    (a.generate (N := N) content).Ensures E (Raises R) := by
  refine Ensures.bind (a.tools.chooseGenerator_raises (R := R) _) fun chosen hchosen => ?_
  cases chosen with
  | error e => exact ensures_done hchosen.error
  | ok i =>
    refine ensures_call (c := .generate i _ _) fun answer hanswer => ?_
    exact fun e heq => .inr (hE _ _ hanswer e (by rw [heq]; rfl))

theorem runScript_raises (content : String) :
    (a.runScript (N := N) content).Ensures E (Raises R) := by
  unfold runScript
  dsimp only
  split
  next =>
    refine ensures_call (c := .runScript _ _ content _) fun answer hanswer => ?_
    exact fun e heq => .inr (hE _ _ hanswer e (by rw [heq]; rfl))
  next => exact ensures_done (raises_execution _)

theorem askUser_raises (content : String) :
    (a.askUser (N := N) content).Ensures E (Raises R) := by
  unfold askUser
  split
  next =>
    refine ensures_call (c := .askUser _ _) fun answer hanswer => ?_
    exact fun e heq => .inr (hE _ _ hanswer e (by rw [heq]; rfl))
  next => exact ensures_done (raises_execution _)

theorem produce_raises (content : String) :
    (a.produce (N := N) content).Ensures E fun r => Raises R r.2 := by
  unfold produce
  cases a.task.executionType with
  | simpleTemplate => exact ensures_done (raises_ok content)
  | promptTemplate =>
    refine Ensures.bind (generate_raises hE content) fun answer hanswer => ?_
    cases answer with
    | ok reply => exact ensures_done (raises_ok reply.content)
    | error e => exact ensures_done hanswer.error
  | script => exact Ensures.bind (runScript_raises hE content) fun _ h => ensures_done h
  | promptDialog => exact Ensures.bind (askUser_raises hE content) fun _ h => ensures_done h

theorem postprocess_raises (value : String) (names : List String) :
    (a.postprocess (N := N) value names).Ensures E (Raises R) := by
  induction names generalizing value with
  | nil => exact ensures_done (raises_ok value)
  | cons name rest ih =>
    unfold postprocess
    split
    next i _ =>
      have hcall : (call (N := N) (.applyFunction i name value a.parameters)).Ensures E
          (Raises (α := String) R) := by
        refine ensures_call (c := .applyFunction i name value _) fun answer hanswer => ?_
        exact fun e heq => .inr (hE _ _ hanswer e (by rw [heq]; rfl))
      refine Ensures.bind hcall fun output houtput => ?_
      cases output with
      | ok value => exact ih value
      | error e => exact ensures_done houtput
    next => exact ensures_done (raises_execution _)

omit hE in
theorem judge_raises {number : Nat} {reply : Option (Reply N)} {output : Result String}
    (h : Raises R output) : Raises R (a.judge number reply output).2 := by
  cases output with
  | error e => exact h
  | ok value =>
    unfold judge
    dsimp only
    split
    next => exact raises_ok value
    next => exact raises_expectation _

theorem attempt_raises (content : String) (number : Nat) :
    (a.attempt (N := N) content number).Ensures E fun r => Raises R r.2 := by
  refine Ensures.bind (produce_raises hE content) fun produced hproduced => ?_
  obtain ⟨reply, output⟩ := produced
  cases output with
  | ok value =>
    exact Ensures.bind (postprocess_raises hE value _) fun _ h => ensures_done (judge_raises h)
  | error e => exact ensures_done (judge_raises hproduced)

end Raises

/-! ## Events -/

/-- To run a script is one call at most. -/
theorem runScript_confined
    (hscript : ∀ i language script parameters answer,
      P (.answered (.runScript i language script parameters) answer))
    (content : String) : (a.runScript (N := N) content).Confined P := by
  unfold runScript
  dsimp only
  split
  next => exact fun answer => ⟨hscript _ _ _ _ answer, trivial⟩
  next => trivial

/-- To ask a person is one call at most. -/
theorem askUser_confined (hasked : ∀ i prompt answer, P (.answered (.askUser i prompt) answer))
    (content : String) : (a.askUser (N := N) content).Confined P := by
  unfold askUser
  split
  next => exact fun answer => ⟨hasked _ _ answer, trivial⟩
  next => trivial

/-- To postprocess is to apply functions and nothing else. -/
theorem postprocess_confined
    (happlied : ∀ i name value parameters answer,
      P (.answered (.applyFunction i name value parameters) answer))
    (value : String) (names : List String) :
    (a.postprocess (N := N) value names).Confined P := by
  induction names generalizing value with
  | nil => trivial
  | cons name rest ih =>
    unfold postprocess
    split
    next =>
      refine Confined.bind (fun answer => ⟨happlied _ _ _ _ answer, trivial⟩) fun output => ?_
      cases output with
      | ok value => exact ih value
      | error e => trivial
    next => trivial

section Confined

variable (hanswered : ∀ c answer, P (.answered c answer))

include hanswered

theorem produce_confined (content : String) : (a.produce (N := N) content).Confined P := by
  unfold produce
  cases a.task.executionType with
  | simpleTemplate => trivial
  | promptTemplate =>
    have hchosen := a.tools.chooseGenerator_confined (P := P) fun _ => hanswered _
    refine Confined.bind (Confined.bind (hchosen _) fun chosen => ?_) fun answer => ?_
    · cases chosen with
      | error e => trivial
      | ok i => exact fun answer => ⟨hanswered _ answer, trivial⟩
    · cases answer <;> trivial
  | script =>
    exact Confined.bind (runScript_confined (fun _ _ _ _ => hanswered _) content) fun _ => trivial
  | promptDialog =>
    exact Confined.bind (askUser_confined (fun _ _ => hanswered _) content) fun _ => trivial

/-- The events of an attempt are calls. -/
theorem attempt_confined (content : String) (number : Nat) :
    (a.attempt (N := N) content number).Confined P := by
  refine Confined.bind (produce_confined hanswered content) fun produced => ?_
  obtain ⟨reply, output⟩ := produced
  cases output with
  | ok value =>
    have happlied := postprocess_confined (a := a) (P := P) fun _ _ _ _ => hanswered _
    exact Confined.bind (happlied value _) fun _ => trivial
  | error e => trivial

end Confined

/-- To make attempts is to look at the signal, to announce attempts and to do what these do. -/
theorem makeAttempts_confined {content : String}
    (hattempt : ∀ number, (a.attempt (N := N) content number).Confined P)
    (hlooked : ∀ b, P (.looked b))
    (hannounced : ∀ number, P (.notified (.about a.task .dispatching number)))
    (number : Nat) (report : TaskReport N) (remaining : Nat) :
    (a.makeAttempts content number report remaining).Confined P := by
  induction remaining generalizing number report with
  | zero => trivial
  | succ remaining ih =>
    unfold makeAttempts
    intro b
    refine ⟨hlooked b, ?_⟩
    cases b with
    | true => trivial
    | false =>
      refine ⟨hannounced number, Confined.bind (hattempt number) ?_⟩
      intro made b
      refine ⟨hlooked b, ?_⟩
      cases b with
      | true => trivial
      | false =>
        obtain ⟨attempt, value | e⟩ := made
        · show Activity.Confined _ (if _ then _ else _)
          split
          next => exact ih _ _
          next => trivial
        · trivial

/-! ## Attempts -/

section Attempts

variable {content : String} {number remaining : Nat} {calls own : List (Event N)}
  {attempt : AttemptReport N} {result : Result String} {report : TaskReport N} {run : TaskRun N}

/-- The events of an attempt are calls. -/
theorem attempt_answered (h : (a.attempt content number).Reaches calls (.done (attempt, result)))
    {e : Event N} (he : e ∈ calls) : ∃ c answer, e = .answered c answer :=
  (attempt_confined (P := fun e => ∃ c answer, e = .answered c answer)
    (fun c answer => ⟨c, answer, rfl⟩) content number).of_reaches h e he

/-- The events of an attempt, up to the look that comes after it. -/
def attemptEvents (a : Assignment) (number : Nat) (calls : List (Event N)) : List (Event N) :=
  .looked false :: .notified (.about a.task .dispatching number) :: calls

/-- The ways through the attempts, from a number and a report on, each with its events. -/
inductive Tried (a : Assignment) (content : String) :
    Nat → TaskReport N → Nat → List (Event N) → TaskRun N → Prop
  | exhausted {number : Nat} {report : TaskReport N} :
      Tried a content number report 0 []
        ⟨report, .failed (.unexpected (.neverAttempted a.task.name))⟩
  | stopped {number remaining : Nat} {report : TaskReport N} :
      Tried a content number report (remaining + 1) [.looked true] ⟨report, .cancelled⟩
  | interrupted {number remaining : Nat} {report : TaskReport N} {calls : List (Event N)}
      {attempt : AttemptReport N} {result : Result String}
      (hmade : (a.attempt content number).Reaches calls (.done (attempt, result))) :
      Tried a content number report (remaining + 1) (a.attemptEvents number calls ++ [.looked true])
        ⟨report.withAttempt number attempt, .cancelled⟩
  | succeeded {number remaining : Nat} {report : TaskReport N} {calls : List (Event N)}
      {attempt : AttemptReport N} {value : String}
      (hmade : (a.attempt content number).Reaches calls (.done (attempt, .ok value))) :
      Tried a content number report (remaining + 1)
        (a.attemptEvents number calls ++ [.looked false])
        ⟨report.withAttempt number attempt, .succeeded value⟩
  | failed {number remaining : Nat} {report : TaskReport N} {calls : List (Event N)}
      {attempt : AttemptReport N} {e : PipelineError}
      (hmade : (a.attempt content number).Reaches calls (.done (attempt, .error e)))
      (hlast : ¬(e.isRetryable = true ∧ 0 < remaining)) :
      Tried a content number report (remaining + 1)
        (a.attemptEvents number calls ++ [.looked false])
        ⟨report.withAttempt number attempt, .failed e⟩
  | retried {number remaining : Nat} {report : TaskReport N} {calls own : List (Event N)}
      {attempt : AttemptReport N} {e : PipelineError} {run : TaskRun N}
      (hmade : (a.attempt content number).Reaches calls (.done (attempt, .error e)))
      (hretry : e.isRetryable = true) (hremaining : 0 < remaining)
      (hrest : Tried a content (number + 1) (report.withAttempt number attempt) remaining own run) :
      Tried a content number report (remaining + 1)
        (a.attemptEvents number calls ++ .looked false :: own) run

/-- **Making attempts goes one of these ways.** -/
theorem tried_of_makeAttempts
    (h : (a.makeAttempts content number report remaining).Reaches own (.done run)) :
    Tried a content number report remaining own run := by
  induction remaining generalizing number report own with
  | zero =>
    obtain ⟨rfl, heq⟩ := reaches_done_iff.mp h
    cases heq
    exact .exhausted
  | succ remaining ih =>
    unfold makeAttempts at h
    cases h with
    | @looked _ b _ _ h =>
      cases b with
      | true =>
        obtain ⟨rfl, heq⟩ := reaches_done_iff.mp h
        cases heq
        exact .stopped
      | false =>
        cases h with
        | notified h =>
          obtain ⟨calls, h₂, ⟨attempt, result⟩, rfl, hmade, hlook⟩ := reaches_bind_iff.mp h
          cases hlook with
          | @looked _ b _ _ hrest =>
            cases b with
            | true =>
              obtain ⟨rfl, heq⟩ := reaches_done_iff.mp hrest
              cases heq
              exact .interrupted hmade
            | false =>
              cases result with
              | ok value =>
                obtain ⟨rfl, heq⟩ := reaches_done_iff.mp hrest
                cases heq
                exact .succeeded hmade
              | error e =>
                replace hrest : Activity.Reaches (if _ then _ else _) _ _ := hrest
                split at hrest
                next hretry => exact .retried hmade hretry.1 hretry.2 (ih hrest)
                next hlast =>
                  obtain ⟨rfl, heq⟩ := reaches_done_iff.mp hrest
                  cases heq
                  exact .failed hmade hlast

namespace Tried

/-- Of the report, attempts change nothing but what it says of attempts. -/
theorem report_eq (h : Tried a content number report remaining own run) :
    run.report =
      { report with attemptsUsed := run.report.attemptsUsed, attempts := run.report.attempts } := by
  induction h with
  | retried _ _ _ _ ih =>
    rw [ih]
    rfl
  | exhausted => rfl
  | stopped => rfl
  | interrupted => rfl
  | succeeded => rfl
  | failed => rfl

/-- Attempts are only given up if the signal was seen set. -/
theorem looked_true_mem (h : Tried a content number report remaining own run)
    (hcancelled : run.ending = .cancelled) : .looked true ∈ own := by
  induction h with
  | stopped => exact List.mem_singleton.mpr rfl
  | interrupted => exact List.mem_append_right _ (List.mem_singleton.mpr rfl)
  | retried _ _ _ _ ih =>
    exact List.mem_append_right _ (List.mem_cons_of_mem _ (ih hcancelled))
  | exhausted => cases hcancelled
  | succeeded => cases hcancelled
  | failed => cases hcancelled

/-- A task that may be attempted at all fails for the reason for which an attempt failed. -/
theorem raises (hE : ∀ (c : Call) (answer : c.Answer N), E (.answered c answer) →
    ∀ e, c.failure? answer = some e → R e)
    (h : Tried a content number report remaining own run) (hown : ∀ e ∈ own, E e)
    (hremaining : 0 < remaining) {e : PipelineError} :
    run.ending = .failed e → e.isTaskLevel = true ∨ R e := by
  induction h with
  | exhausted => exact absurd hremaining (Nat.lt_irrefl 0)
  | @failed number _ _ calls attempt e hmade =>
    intro heq
    cases heq
    have hcalls : ∀ e ∈ calls, E e := fun e he => hown e (by simp [attemptEvents, he])
    exact attempt_raises hE content number hmade hcalls e rfl
  -- There is a next attempt only if one remains, so attempts never run out unmade.
  | retried _ _ hrest _ ih => exact ih (fun e he => hown e (by simp [he])) hrest
  | stopped => exact fun heq => nomatch heq
  | interrupted => exact fun heq => nomatch heq
  | succeeded => exact fun heq => nomatch heq

end Tried

/-- What all ways through the attempts come to is ensured. -/
theorem makeAttempts_ensures {Q : TaskRun N → Prop}
    (h : ∀ own run, Tried a content number report remaining own run → (∀ e ∈ own, E e) → Q run) :
    (a.makeAttempts content number report remaining).Ensures E Q :=
  fun own run hreaches hE => h own run (tried_of_makeAttempts hreaches) hE

end Attempts

/-! ## The whole work -/

/-- If the content of the task is an error, then nothing happens but that the task fails with it. -/
theorem work_of_content_eq_error [Zero N] [Add N] {e : PipelineError} (h : a.content = .error e) :
    a.work (N := N) = .done ⟨.ofTask a.task, .failed e⟩ := by
  unfold work
  rw [h]
  rfl

/-- The work is about its task, and is only cancelled if the signal was set. -/
theorem work_ensures [Zero N] [Add N] :
    (a.work (N := N)).Ensures E fun run =>
      run.report.task = a.task ∧ (run.ending = .cancelled → E (.looked true)) := by
  unfold work
  dsimp only
  split
  next => exact ensures_done ⟨rfl, fun h => nomatch h⟩
  next content _ =>
    split
    next => exact ensures_done ⟨rfl, fun h => nomatch h⟩
    next =>
      refine Ensures.bind (makeAttempts_ensures fun own run hrun hE => ?_) fun _ => ensures_done
      refine ⟨?_, fun hcancelled => hE _ (hrun.looked_true_mem hcancelled)⟩
      show run.report.task = a.task
      rw [hrun.report_eq]
      rfl

/-- A task fails with the error of its content, with an error of the task, or with an error that an
adapter raised. -/
theorem work_raises [Zero N] [Add N]
    (hE : ∀ (c : Call) (answer : c.Answer N), E (.answered c answer) →
      ∀ e, c.failure? answer = some e → R e)
    (h : 0 < a.maxAttempts) :
    (a.work (N := N)).Ensures E fun run =>
      ∀ e, run.ending = .failed e → a.content = .error e ∨ e.isTaskLevel = true ∨ R e := by
  unfold work
  dsimp only
  split
  next e he =>
    refine ensures_done fun e' heq => ?_
    cases heq
    exact .inl he
  next content _ =>
    split
    next => exact ensures_done fun _ heq => nomatch heq
    next =>
      refine Ensures.bind (makeAttempts_ensures fun own run hrun hown => ?_) fun _ => ensures_done
      exact fun e heq => .inr (hrun.raises hE hown h heq)

/-- With adapters that keep their promises, the only internal error is that of the content. -/
theorem work_ordinary [Zero N] [Add N] (hE : ∀ e : Event N, E e → e.Kept) (h : 0 < a.maxAttempts) :
    (a.work (N := N)).Ensures E fun run =>
      ∀ fault, run.ending = .failed (.unexpected fault) →
        a.content = .error (.unexpected fault) := by
  intro own run hreaches hown fault hending
  have hkept : ∀ (c : Call) (answer : c.Answer N), E (.answered c answer) →
      ∀ e, c.failure? answer = some e → e ≠ .unexpected fault := by
    rintro c answer hanswer e hfailure rfl
    exact hE _ hanswer fault hfailure
  rcases work_raises hkept h hreaches hown _ hending with hcontent | hlevel | hne
  · exact hcontent
  · cases hlevel
  · exact absurd rfl hne

/-- The work is to make attempts, if it is anything. -/
theorem work_confined [Zero N] [Add N]
    (hattempt : ∀ content number, (a.attempt (N := N) content number).Confined P)
    (hlooked : ∀ b, P (.looked b))
    (hannounced : ∀ number, P (.notified (.about a.task .dispatching number))) :
    (a.work (N := N)).Confined P := by
  unfold work
  dsimp only
  split
  next => trivial
  next content _ =>
    split
    next => trivial
    next =>
      have hattempts := makeAttempts_confined (hattempt content) hlooked hannounced 1
      exact Confined.bind (hattempts _ _) fun _ => trivial

/-- Whatever the work announces is an attempt. -/
theorem work_notifies [Zero N] [Add N] {history : List (Event N)} {rest : Activity N (TaskRun N)}
    (h : a.work.Reaches history rest) {p : Progress} (hp : .notified p ∈ history) :
    ∃ number, p = .about a.task .dispatching number := by
  have hconfined : (a.work (N := N)).Confined fun e =>
      ∀ p, e = .notified p → ∃ number, p = .about a.task .dispatching number := by
    refine work_confined (attempt_confined fun _ _ _ h => nomatch h) (fun _ _ h => nomatch h)
      fun number p heq => ?_
    cases heq
    exact ⟨number, rfl⟩
  exact hconfined.of_reaches h _ hp p rfl

/-! ## The content -/

/-- The only fault of a content is a placeholder without a value, in what is no script. -/
theorem exists_of_content_eq_error {e : PipelineError} (h : a.content = .error e) :
    a.task.executionType ≠ .script ∧
      ∃ name ∈ Template.parameters a.task.content, a.parameters.contains name = false ∧
        e = .unexpected (.unresolvedPlaceholder name) := by
  unfold content at h
  split at h
  next => cases h
  next hscript => exact ⟨hscript, Template.exists_of_substitute_eq_error h⟩

/-- A task that is given the parameters that it requires has a content if and only if it is
closed. -/
theorem content_isOk_iff (h : ∀ name, a.parameters.contains name = true ↔ name ∈ a.task.required) :
    (∃ text, a.content = .ok text) ↔ a.task.Closed := by
  unfold content Task.Closed
  split
  next hscript =>
    refine ⟨fun _ hne => absurd hscript hne, fun _ => ⟨_, rfl⟩⟩
  next hscript =>
    rw [Template.substitute_isOk_iff]
    simp only [h]
    exact ⟨fun hall _ => hall, fun hall => hall hscript⟩

end Assignment

end PromptPipeline
