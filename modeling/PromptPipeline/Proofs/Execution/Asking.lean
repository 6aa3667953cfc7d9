import PromptPipeline.Proofs.Execution.Attempts
import PromptPipeline.Proofs.Execution.Trace

/-!
# Generators that answer in turn

What a generator answers may depend on what it was asked before, so it has a state of its own. In
the environment of this module it is all that has: every other call has one answer.

* `exists_reaches_asking`: a run in this environment has a history in which the generator gives its
  answers in turn.
* `Traced.answeredInTurn`: if only one task asks generators, then the generator answers this task as
  if there were no others.
-/

namespace PromptPipeline

variable {σ N α : Type}

/-- The outside of a run with one generator, which keeps a state. Every other call has one answer,
and nothing is cancelled. -/
def Environment.asking (ask : ModelVariant → Prompt → StateM σ (Result (Reply N)))
    (answers : (c : Call) → c.Answer N) : Environment (StateM σ) N where
  answer
    | .generate _ operation prompt => ask operation prompt
    | .listModels i => pure (answers (.listModels i))
    | .runScript i language script parameters =>
      pure (answers (.runScript i language script parameters))
    | .applyFunction i name value parameters =>
      pure (answers (.applyFunction i name value parameters))
    | .askUser i prompt => pure (answers (.askUser i prompt))
  isCancelled := pure false
  notify _ := pure ()

/-- A question to a generator with its answer. -/
structure Asked (N : Type) where
  operation : ModelVariant
  prompt : Prompt
  answer : Result (Reply N)

/-- The question to a generator and its answer, if the event is one. -/
def Event.asked? : Event N → Option (Asked N)
  | .answered (.generate _ operation prompt) answer => some ⟨operation, prompt, answer⟩
  | _ => none

/-- There are no replies but to questions. -/
theorem Event.reply?_eq_none {e : Event N} (h : e.asked? = none) : e.reply? = none := by
  cases e with
  | looked => rfl
  | notified => rfl
  | answered c answer =>
    cases c with
    | generate => cases h
    | listModels => rfl
    | runScript => rfl
    | applyFunction => rfl
    | askUser => rfl

/-- From a state on, the generator gives these answers in turn. -/
def InTurn (ask : ModelVariant → Prompt → StateM σ (Result (Reply N))) :
    σ → List (Asked N) → Prop
  | _, [] => True
  | s, asked :: rest =>
    ((ask asked.operation asked.prompt).run s).1 = asked.answer ∧
      InTurn ask ((ask asked.operation asked.prompt).run s).2 rest

/-- The history is one with a generator that answers in turn, from a state on. -/
structure AnsweredInTurn (ask : ModelVariant → Prompt → StateM σ (Result (Reply N)))
    (answers : (c : Call) → c.Answer N) (s : σ) (history : List (Event N)) : Prop where
  others : ∀ e ∈ history, e.asked? = none → e.Obeys answers
  inTurn : InTurn ask s (history.filterMap Event.asked?)

variable {ask : ModelVariant → Prompt → StateM σ (Result (Reply N))}
  {answers : (c : Call) → c.Answer N} {s : σ}

theorem InTurn.of_append {l₁ l₂ : List (Asked N)} (h : InTurn ask s (l₁ ++ l₂)) :
    InTurn ask s l₁ := by
  induction l₁ generalizing s with
  | nil => trivial
  | cons asked l₁ ih => exact ⟨h.1, ih h.2⟩

namespace AnsweredInTurn

variable {history h₁ h₂ : List (Event N)}

theorem nil : AnsweredInTurn ask answers s [] :=
  ⟨List.forall_mem_nil _, trivial⟩

/-- Any event but an answer of the generator leaves its state alone. -/
theorem cons_other {e : Event N} (he : e.asked? = none) (hobeys : e.Obeys answers)
    (h : AnsweredInTurn ask answers s history) : AnsweredInTurn ask answers s (e :: history) := by
  refine ⟨List.forall_mem_cons.mpr ⟨fun _ => hobeys, h.others⟩, ?_⟩
  rw [List.filterMap_cons_none he]
  exact h.inTurn

theorem cons_asked {i : Nat} {operation : ModelVariant} {prompt : Prompt}
    (h : AnsweredInTurn ask answers ((ask operation prompt).run s).2 history) :
    AnsweredInTurn ask answers s
      (.answered (.generate i operation prompt) ((ask operation prompt).run s).1 :: history) :=
  ⟨List.forall_mem_cons.mpr ⟨fun h => (nomatch h), h.others⟩, rfl, h.inTurn⟩

theorem of_append (h : AnsweredInTurn ask answers s (h₁ ++ h₂)) :
    AnsweredInTurn ask answers s h₁ := by
  have hturn := h.inTurn
  rw [List.filterMap_append] at hturn
  exact ⟨fun e he => h.others e (List.mem_append_left _ he), hturn.of_append⟩

/-- In a history with a generator that answers in turn, nothing is cancelled. -/
theorem looked_true_notMem (h : AnsweredInTurn ask answers s history) :
    .looked true ∉ history := by
  intro hmem
  have htrue : true = false := h.others _ hmem rfl
  cases htrue

end AnsweredInTurn

/-- **A run with a generator that keeps a state** has a history in which it answers in turn. -/
theorem Activity.exists_reaches_asking (ask : ModelVariant → Prompt → StateM σ (Result (Reply N)))
    (answers : (c : Call) → c.Answer N) (a : Activity N α) (s : σ) :
    ∃ history, a.Reaches history (.done ((a.run (.asking ask answers)).run s).1) ∧
      AnsweredInTurn ask answers s history := by
  induction a generalizing s with
  | done x => exact ⟨[], .refl _, .nil⟩
  | isCancelled next ih =>
    obtain ⟨history, hreaches, hturn⟩ := ih false s
    exact ⟨_ :: history, .looked hreaches, hturn.cons_other rfl rfl⟩
  | notify p next ih =>
    obtain ⟨history, hreaches, hturn⟩ := ih s
    exact ⟨_ :: history, .notified hreaches, hturn.cons_other rfl trivial⟩
  | ask c next ih =>
    cases c with
    | generate i operation prompt =>
      obtain ⟨history, hreaches, hturn⟩ :=
        ih ((ask operation prompt).run s).1 ((ask operation prompt).run s).2
      exact ⟨_ :: history, .answered hreaches, hturn.cons_asked⟩
    | listModels i =>
      obtain ⟨history, hreaches, hturn⟩ := ih (answers (.listModels i)) s
      exact ⟨_ :: history, .answered hreaches, hturn.cons_other rfl rfl⟩
    | runScript i language script parameters =>
      obtain ⟨history, hreaches, hturn⟩ := ih (answers (.runScript i language script parameters)) s
      exact ⟨_ :: history, .answered hreaches, hturn.cons_other rfl rfl⟩
    | applyFunction i name value parameters =>
      obtain ⟨history, hreaches, hturn⟩ := ih (answers (.applyFunction i name value parameters)) s
      exact ⟨_ :: history, .answered hreaches, hturn.cons_other rfl rfl⟩
    | askUser i prompt =>
      obtain ⟨history, hreaches, hturn⟩ := ih (answers (.askUser i prompt)) s
      exact ⟨_ :: history, .answered hreaches, hturn.cons_other rfl rfl⟩

/-! ## Tasks that ask no generator -/

namespace Assignment

open Activity

variable {a : Assignment}

/-- An attempt asks generators only if the task is a template of a prompt. -/
theorem attempt_asks_nothing (h : a.task.executionType ≠ .promptTemplate) (content : String)
    (number : Nat) : (a.attempt (N := N) content number).Confined (·.asked? = none) := by
  refine Confined.bind ?_ fun produced => ?_
  · unfold produce
    cases htype : a.task.executionType with
    | simpleTemplate => trivial
    | promptTemplate => exact absurd htype h
    | script =>
      exact Confined.bind (runScript_confined (fun _ _ _ _ _ => rfl) content) fun _ => trivial
    | promptDialog =>
      exact Confined.bind (askUser_confined (fun _ _ _ => rfl) content) fun _ => trivial
  · obtain ⟨reply, output⟩ := produced
    cases output with
    | ok value =>
      exact Confined.bind (postprocess_confined (fun _ _ _ _ _ => rfl) value _) fun _ => trivial
    | error e => trivial

theorem work_asks_nothing [Zero N] [Add N] (h : a.task.executionType ≠ .promptTemplate) :
    (a.work (N := N)).Confined (·.asked? = none) :=
  work_confined (attempt_asks_nothing h) (fun _ => rfl) fun _ => rfl

end Assignment

/-! ## Tasks in a run -/

namespace Executor

variable [Zero N] [Add N] {x : Executor} {inputs : Bindings String} {history : List (Event N)}
  {s s' : RunState N x.pipeline} {i m : x.pipeline.TaskIndex} {trace t : Trace N x.pipeline}

theorem Dispatched.asks_nothing (h : x.Dispatched s history s') {e : Event N}
    (he : e ∈ history) : e.asked? = none := by
  rcases h with ⟨rfl, -⟩ | ⟨rfl, -⟩
  · obtain rfl := List.mem_singleton.mp he
    rfl
  · rcases List.mem_cons.mp he with rfl | he
    · rfl
    · obtain ⟨progress, -, rfl⟩ := List.mem_map.mp he
      rfl

/-- The run itself asks nothing. -/
theorem Traced.asks_nothing (h : x.Traced inputs trace s) {e : Event N} (he : (none, e) ∈ trace) :
    e.asked? = none := by
  induction h with
  | start hdispatch =>
    obtain ⟨e', he', heq⟩ := List.mem_map.mp he
    cases heq
    rcases List.mem_append.mp he' with he' | he'
    · obtain ⟨task, -, rfl⟩ := List.mem_map.mp he'
      rfl
    · exact hdispatch.asks_nothing he'
  | move _ hm ih =>
    rcases List.mem_append.mp he with he | he
    · exact ih he
    · cases hm with
      | proceed => cases List.mem_singleton.mp he
      | join _ _ hdispatch =>
        obtain ⟨e', he', heq⟩ := List.mem_map.mp he
        cases heq
        rcases List.mem_cons.mp he' with rfl | he'
        · rfl
        · exact hdispatch.asks_nothing he'

/-- In a run, a task asks generators only if it is a template of a prompt. -/
theorem Traced.task_asks_nothing (h : x.Traced inputs trace s)
    (hi : (x.pipeline.taskAt i).executionType ≠ .promptTemplate) {e : Event N}
    (he : e ∈ eventsOf trace i) : e.asked? = none := by
  have hquiet {own : List (Event N)} {work : Activity N (TaskRun N)}
      (hworked : x.Worked s i own work) (he : e ∈ own) : e.asked? = none :=
    (Assignment.work_asks_nothing hi).of_reaches hworked.reaches e he
  have hlogged := h.logged i
  generalize eventsOf trace i = own at he hlogged
  generalize s.task i = state at hlogged
  cases hlogged with
  | pending => cases he
  | running hworked => exact hquiet hworked he
  | finished hworked => exact hquiet hworked he

/-- **If only one task asks generators, they answer it as if there were no others.** -/
theorem Traced.answeredInTurn (h : x.Traced inputs trace s)
    (hothers : ∀ i, i ≠ m → (x.pipeline.taskAt i).executionType ≠ .promptTemplate)
    {start : σ} (hturn : AnsweredInTurn ask answers start (trace.map (·.2)))
    (i : x.pipeline.TaskIndex) : AnsweredInTurn ask answers start (eventsOf trace i) := by
  refine ⟨fun e he => hturn.others e (mem_of_mem_eventsOf he), ?_⟩
  by_cases hi : i = m
  · subst hi
    have hsame : (trace.map (·.2)).filterMap Event.asked? =
        (eventsOf trace i).filterMap Event.asked? := by
      unfold eventsOf
      rw [List.filterMap_map, List.filterMap_filterMap]
      refine List.filterMap_congr fun entry hentry => ?_
      obtain ⟨task, e⟩ := entry
      show e.asked? = (if task = some i then some e else none).bind Event.asked?
      split
      next => rfl
      next hne =>
        cases task with
        | none => exact h.asks_nothing hentry
        | some j =>
          have hj : j ≠ i := fun heq => hne (congrArg some heq)
          refine h.task_asks_nothing (hothers j hj) (List.mem_filterMap.mpr ⟨_, hentry, ?_⟩)
          exact if_pos rfl
    rw [← hsame]
    exact hturn.inTurn
  · rw [List.filterMap_eq_nil_iff.mpr fun e he => h.task_asks_nothing (hothers i hi) he]
    trivial

end Executor

end PromptPipeline
