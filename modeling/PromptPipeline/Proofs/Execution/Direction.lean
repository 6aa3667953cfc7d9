import PromptPipeline.Adapter.Generator
import PromptPipeline.Proofs.Execution.Choice
import PromptPipeline.Proofs.Execution.Rounds
import PromptPipeline.Proofs.Execution.Steps

/-!
# Where calls go

What an attempt calls is said here by relations between the calls and how they end, in terms of the
task, of the tools and of the values that the task was started on:

* `Tools.Applies`: the functions that are applied to an output, in order and each by the first
  runner that provides it, until one fails or no runner provides the next one.
* `Tools.Produces`: the calls that an output takes, by the execution type of the task.
* `Tools.Attempts`: the two, one after the other.

They leave open only what adapters answer. Every attempt calls as they say
(`Assignment.attempts_of_reaches`), so every task does in each of its rounds, and an attempt for
which an adapter is lacking is its last one (`Assignment.directed_of_rounds`).

Main statement: `calls_directed`.
-/

namespace PromptPipeline

variable {N : Type}

/-- How the calls of an attempt end. -/
inductive CallsEnd where
  /-- With an output. -/
  | output (value : String)
  /-- With the error that an adapter raised. -/
  | raised (e : PipelineError)
  /-- Without an adapter for what is called next. -/
  | lacking (fault : ExecutionFault)

namespace CallsEnd

/-- The end with an answer. -/
def ofAnswer : Result String → CallsEnd
  | .ok value => output value
  | .error e => raised e

/-- The result with which calls end, before it is checked. To lack an adapter is final. -/
def Gives : CallsEnd → Result String → Prop
  | output value, result => result = .ok value
  | raised e, result => result = .error e
  | lacking fault, result => fault.isFinal = true ∧ result = .error (.execution fault)

/-- What an attempt of the task comes to when its calls end so: an output has to meet the expectations
of the task. -/
def ComesTo (t : Task) : CallsEnd → Result String → Prop
  | output value, result => t.Meets value ∧ result = .ok value ∨
      ¬t.Meets value ∧ ∃ fault, result = .error (.expectation fault)
  | ending, result => ending.Gives result

/-- Only an output gives a value. -/
theorem Gives.eq_output {ending : CallsEnd} {value : String} (h : ending.Gives (.ok value)) :
    ending = output value := by
  cases ending with
  | output value' =>
    cases h
    rfl
  | raised e => cases h
  | lacking fault => cases h.2

theorem gives_ofAnswer (answer : Result String) : (ofAnswer answer).Gives answer := by
  cases answer <;> rfl

end CallsEnd

/-- The parameters are the named ones, with their values, and no others. -/
def Exactly (names : NameSet) (values parameters : Bindings String) : Prop :=
  ∀ name, parameters.get? name = if name ∈ names then values.get? name else none

namespace Tools

/-- The runner is the first one that has the capability. -/
structure IsFirstRunner (tools : Tools) (can : RunnerProfile → Bool) (i : Nat) : Prop where
  capable : ∃ runner, tools.runners[i]? = some runner ∧ can runner = true
  first : ∀ j < i, ∀ runner, tools.runners[j]? = some runner → can runner = false

/-- No runner has the capability. -/
def LacksRunner (tools : Tools) (can : RunnerProfile → Bool) : Prop :=
  ∀ runner ∈ tools.runners, can runner = false

/-- The functions that are applied to a value, one after the other. Each is given what the one
before it returned, and the parameters that the task requires. -/
inductive Applies (tools : Tools) (t : Task) (values : Bindings String) :
    String → List String → List (Event N) → CallsEnd → Prop
  | finished {value : String} : Applies tools t values value [] [] (.output value)
  | lacking {value name : String} {rest : List String}
      (h : tools.LacksRunner (·.providesFunction name)) :
      Applies tools t values value (name :: rest) [] (.lacking (.noFunctionRunner name))
  | failed {value name : String} {rest : List String} {i : Nat} {parameters : Bindings String}
      {e : PipelineError} (hfirst : tools.IsFirstRunner (·.providesFunction name) i)
      (hparameters : Exactly t.required values parameters) :
      Applies tools t values value (name :: rest)
        [.answered (.applyFunction i name value parameters) (.error e)] (.raised e)
  | applied {value name output : String} {rest : List String} {i : Nat}
      {parameters : Bindings String} {calls : List (Event N)} {ending : CallsEnd}
      (hfirst : tools.IsFirstRunner (·.providesFunction name) i)
      (hparameters : Exactly t.required values parameters)
      (hrest : Applies tools t values output rest calls ending) :
      Applies tools t values value (name :: rest)
        (.answered (.applyFunction i name value parameters) (.ok output) :: calls) ending

/-- The calls that produce an output. A prompt goes to the generator that is chosen for its
requirements, and is called by the operation that they declare. A script goes to the first runner of
its language as it stands in the task, with the parameters that it depends on. -/
inductive Produces (tools : Tools) (t : Task) (values : Bindings String) (content : String) :
    List (Event N) → CallsEnd → Prop
  | template (htype : t.executionType = .simpleTemplate) :
      Produces tools t values content [] (.output content)
  | prompt {r : ModelRequirements} {asked : List (Event N)} {i : Nat} {answer : Result (Reply N)}
      (htype : t.executionType = .promptTemplate) (hr : t.modelRequirements.getD {} = r)
      (hchosen : tools.Chooses r asked (.ok i)) :
      Produces tools t values content
        (asked ++ [.answered (.generate i r.variant
          { title := t.title, content, requirements := r, expectations := t.expectations }) answer])
        (.ofAnswer (answer.map (·.content)))
  | noGenerator {r : ModelRequirements} {asked : List (Event N)} {fault : ExecutionFault}
      (htype : t.executionType = .promptTemplate) (hr : t.modelRequirements.getD {} = r)
      (hchosen : tools.Chooses r asked (.error (.execution fault))) :
      Produces tools t values content asked (.lacking fault)
  | script {language : String} {i : Nat} {parameters : Bindings String} {answer : Result String}
      (htype : t.executionType = .script) (hlanguage : t.contentLanguage.getD "" = language)
      (hfirst : tools.IsFirstRunner (·.runsLanguage language) i)
      (hparameters : Exactly t.dependencies values parameters) :
      Produces tools t values content
        [.answered (.runScript i language t.content parameters) answer] (.ofAnswer answer)
  | noRunner {language : String} (htype : t.executionType = .script)
      (hlanguage : t.contentLanguage.getD "" = language)
      (h : tools.LacksRunner (·.runsLanguage language)) :
      Produces tools t values content [] (.lacking (.noLanguageRunner language))
  | dialog {answer : Result String} (htype : t.executionType = .promptDialog)
      (h : 0 < tools.interfaces) :
      Produces tools t values content
        [.answered (.askUser 0 { title := t.title, message := content }) answer] (.ofAnswer answer)
  | noInterface (htype : t.executionType = .promptDialog) (h : tools.interfaces = 0) :
      Produces tools t values content [] (.lacking (.noInterface t.name))

/-- The calls of an attempt: those that produce an output, and if there is one, the functions that
are applied to it. -/
inductive Attempts (tools : Tools) (t : Task) (values : Bindings String) (content : String) :
    List (Event N) → CallsEnd → Prop
  | unproduced {calls : List (Event N)} {ending : CallsEnd}
      (hproduced : tools.Produces t values content calls ending)
      (hnone : ∀ value, ending ≠ .output value) : Attempts tools t values content calls ending
  | produced {calls applied : List (Event N)} {value : String} {ending : CallsEnd}
      (hproduced : tools.Produces t values content calls (.output value))
      (happlied : tools.Applies t values value t.postprocessing applied ending) :
      Attempts tools t values content (calls ++ applied) ending

/-- The rounds go as the rules say. A round for which an adapter is lacking is the last one. -/
def Directs (tools : Tools) (t : Task) (values : Bindings String) (content : String)
    (rounds : List (Round N)) : Prop :=
  ∀ earlier round later, rounds = earlier ++ round :: later →
    ∃ ending, tools.Attempts t values content round.calls ending ∧
      ending.ComesTo t round.result ∧ ∀ fault, ending = .lacking fault → later = []

variable {tools : Tools} {t : Task} {values : Bindings String} {content value : String}
  {names : List String} {calls : List (Event N)} {ending : CallsEnd} {i : Nat}
  {can : RunnerProfile → Bool}

theorem isFirstRunner_of_findIdx? (h : tools.runners.findIdx? can = some i) :
    tools.IsFirstRunner can i := by
  obtain ⟨hlt, hcan, hfirst⟩ := List.findIdx?_eq_some_iff_getElem.mp h
  refine ⟨⟨_, List.getElem?_eq_getElem hlt, hcan⟩, fun j hj runner hrunner => ?_⟩
  obtain ⟨hj', rfl⟩ := List.getElem?_eq_some_iff.mp hrunner
  simpa using hfirst j hj

theorem lacksRunner_of_findIdx? (h : tools.runners.findIdx? can = .none) :
    tools.LacksRunner can :=
  List.findIdx?_eq_none_iff.mp h

/-- To look for a generator is to ask for models and nothing else. -/
theorem Chooses.listModels_of_mem {r : ModelRequirements} {chosen : Result Nat}
    (h : tools.Chooses r calls chosen) {e : Event N} (he : e ∈ calls) :
    ∃ i listing, e = .answered (.listModels i) listing := by
  cases h with
  | missing => cases he
  | any => cases he
  | offered => exact listModels_of_mem_listedFrom he
  | refused => exact listModels_of_mem_listedFrom he

/-- Where no generator can be chosen, an adapter is lacking. -/
theorem Chooses.exists_final {r : ModelRequirements} {e : PipelineError}
    (h : tools.Chooses r calls (.error e)) :
    ∃ fault, e = .execution fault ∧ fault.isFinal = true := by
  cases h with
  | missing => exact ⟨_, rfl, rfl⟩
  | refused => exact ⟨_, rfl, rfl⟩

/-- To postprocess is to apply functions and nothing else. -/
theorem Applies.applyFunction_of_mem (h : tools.Applies t values value names calls ending)
    {e : Event N} (he : e ∈ calls) :
    ∃ i name input parameters answer,
      e = .answered (.applyFunction i name input parameters) answer := by
  induction h with
  | finished => cases he
  | lacking => cases he
  | failed =>
    obtain rfl := List.mem_singleton.mp he
    exact ⟨_, _, _, _, _, rfl⟩
  | applied _ _ _ ih =>
    rcases List.mem_cons.mp he with rfl | he
    · exact ⟨_, _, _, _, _, rfl⟩
    · exact ih he

end Tools

open Activity

namespace Assignment

variable {a : Assignment} {values : Bindings String} {content value : String} {number : Nat}
  {names : List String} {calls own : List (Event N)} {reply : Option (Reply N)}
  {output result : Result String} {ending : CallsEnd} {rounds : List (Round N)}

/-- A task that is given what it requires passes on what it depends on. -/
theorem exactly_dependencies (h : Exactly a.task.required values a.parameters) :
    Exactly a.task.dependencies values
      (a.parameters.filter fun name _ => decide (name ∈ a.task.dependencies)) := by
  refine fun name => Option.ext fun value => ?_
  rw [Bindings.get?_filter_eq_some_iff, decide_eq_true_iff, h]
  by_cases hname : name ∈ a.task.dependencies
  · have hrequired : name ∈ a.task.required := Task.mem_required.mpr (.inl hname)
    simp [hname, hrequired]
  · simp [hname]

/-- **Functions are applied as the rules say.** -/
theorem applies_of_reaches (hgiven : Exactly a.task.required values a.parameters)
    (h : (a.postprocess value names).Reaches calls (.done result)) :
    ∃ ending, a.tools.Applies a.task values value names calls ending ∧ ending.Gives result := by
  induction names generalizing value calls with
  | nil =>
    obtain ⟨rfl, heq⟩ := reaches_done_iff.mp h
    cases heq
    exact ⟨_, .finished, rfl⟩
  | cons name rest ih =>
    unfold postprocess at h
    split at h
    next i hi =>
      have hfirst := Tools.isFirstRunner_of_findIdx? hi
      cases h with
      | @answered _ _ output calls _ h =>
        cases output with
        | ok output =>
          obtain ⟨ending, happlies, hgives⟩ := ih h
          exact ⟨ending, .applied hfirst hgiven happlies, hgives⟩
        | error e =>
          obtain ⟨rfl, heq⟩ := reaches_done_iff.mp h
          cases heq
          exact ⟨_, .failed hfirst hgiven, rfl⟩
    next hnone =>
      obtain ⟨rfl, heq⟩ := reaches_done_iff.mp h
      cases heq
      exact ⟨_, .lacking (Tools.lacksRunner_of_findIdx? hnone), rfl, rfl⟩

theorem produces_of_generate (values : Bindings String)
    (htype : a.task.executionType = .promptTemplate) {answer : Result (Reply N)}
    (h : (a.generate content).Reaches calls (.done answer)) :
    ∃ ending, a.tools.Produces a.task values content calls ending ∧
      ending.Gives (answer.map (·.content)) := by
  obtain ⟨asked, h₂, chosen, rfl, hchosen, hcall⟩ := reaches_bind_iff.mp h
  have hchooses := Tools.chooses_of_reaches hchosen
  cases chosen with
  | error e =>
    obtain ⟨rfl, heq⟩ := reaches_done_iff.mp hcall
    cases heq
    obtain ⟨fault, rfl, hfinal⟩ := hchooses.exists_final
    rw [List.append_nil]
    exact ⟨_, .noGenerator htype rfl hchooses, hfinal, rfl⟩
  | ok i =>
    cases hcall with
    | answered hcall =>
      obtain ⟨rfl, heq⟩ := reaches_done_iff.mp hcall
      cases heq
      exact ⟨_, .prompt htype rfl hchooses, CallsEnd.gives_ofAnswer _⟩

theorem produces_of_runScript (hgiven : Exactly a.task.required values a.parameters)
    (htype : a.task.executionType = .script)
    (h : (a.runScript a.task.content).Reaches calls (.done output)) :
    ∃ ending, a.tools.Produces a.task values content calls ending ∧ ending.Gives output := by
  unfold runScript at h
  dsimp only at h
  split at h
  next i hi =>
    have hfirst := Tools.isFirstRunner_of_findIdx? hi
    cases h with
    | answered h =>
      obtain ⟨rfl, heq⟩ := reaches_done_iff.mp h
      cases heq
      exact ⟨_, .script htype rfl hfirst (exactly_dependencies hgiven),
        CallsEnd.gives_ofAnswer output⟩
  next hnone =>
    obtain ⟨rfl, heq⟩ := reaches_done_iff.mp h
    cases heq
    exact ⟨_, .noRunner htype rfl (Tools.lacksRunner_of_findIdx? hnone), rfl, rfl⟩

theorem produces_of_askUser (htype : a.task.executionType = .promptDialog)
    (h : (a.askUser content).Reaches calls (.done output)) :
    ∃ ending, a.tools.Produces a.task values content calls ending ∧ ending.Gives output := by
  unfold askUser Tools.interface? at h
  split at h
  next i hi =>
    obtain ⟨hpos, hzero⟩ := Option.ite_none_right_eq_some.mp hi
    cases hzero
    cases h with
    | answered h =>
      obtain ⟨rfl, heq⟩ := reaches_done_iff.mp h
      cases heq
      exact ⟨_, .dialog htype hpos, CallsEnd.gives_ofAnswer output⟩
  next hnone =>
    obtain ⟨rfl, heq⟩ := reaches_done_iff.mp h
    cases heq
    exact ⟨_, .noInterface htype (by simpa using hnone), rfl, rfl⟩

/-- **An output is produced as the rules say.** -/
theorem produces_of_reaches (hgiven : Exactly a.task.required values a.parameters)
    (hcontent : a.task.executionType = .script → content = a.task.content)
    (h : (a.produce content).Reaches calls (.done (reply, output))) :
    ∃ ending, a.tools.Produces a.task values content calls ending ∧ ending.Gives output := by
  unfold produce at h
  cases htype : a.task.executionType with
  | simpleTemplate =>
    rw [htype] at h
    obtain ⟨rfl, heq⟩ := reaches_done_iff.mp h
    cases heq
    exact ⟨_, .template htype, rfl⟩
  | promptTemplate =>
    rw [htype] at h
    obtain ⟨h₁, h₂, answer, rfl, hgenerate, hdone⟩ := reaches_bind_iff.mp h
    have hproduces := produces_of_generate values htype hgenerate
    cases answer with
    | ok reply =>
      obtain ⟨rfl, heq⟩ := reaches_done_iff.mp hdone
      cases heq
      rwa [List.append_nil]
    | error e =>
      obtain ⟨rfl, heq⟩ := reaches_done_iff.mp hdone
      cases heq
      rwa [List.append_nil]
  | script =>
    rw [htype] at h
    obtain rfl := hcontent htype
    obtain ⟨h₁, h₂, answer, rfl, hscript, hdone⟩ := reaches_bind_iff.mp h
    obtain ⟨rfl, heq⟩ := reaches_done_iff.mp hdone
    cases heq
    rw [List.append_nil]
    exact produces_of_runScript hgiven htype hscript
  | promptDialog =>
    rw [htype] at h
    obtain ⟨h₁, h₂, answer, rfl, hasked, hdone⟩ := reaches_bind_iff.mp h
    obtain ⟨rfl, heq⟩ := reaches_done_iff.mp hdone
    cases heq
    rw [List.append_nil]
    exact produces_of_askUser htype hasked

/-- The verdict on an output is what an attempt comes to. -/
theorem comesTo_judge (number : Nat) (reply : Option (Reply N)) (h : ending.Gives output) :
    ending.ComesTo a.task (a.judge number reply output).2 := by
  cases ending with
  | raised e =>
    obtain rfl := h
    rfl
  | lacking fault =>
    obtain ⟨hfinal, rfl⟩ := h
    exact ⟨hfinal, rfl⟩
  | output value =>
    obtain rfl := h
    unfold judge
    dsimp only
    split
    next hnone =>
      exact .inl ⟨Task.meets_iff.mpr (Expectation.firstFault?_eq_none_iff.mp hnone), rfl⟩
    next fault hfault =>
      refine .inr ⟨fun hmeets => ?_, fault, rfl⟩
      rw [Expectation.firstFault?_eq_none_iff.mpr (Task.meets_iff.mp hmeets)] at hfault
      cases hfault

/-- **An attempt calls as the rules say**, and comes to what they say. -/
theorem attempts_of_reaches (hgiven : Exactly a.task.required values a.parameters)
    (hcontent : a.task.executionType = .script → content = a.task.content)
    {made : AttemptReport N × Result String}
    (h : (a.attempt content number).Reaches calls (.done made)) :
    ∃ ending, a.tools.Attempts a.task values content calls ending ∧
      ending.ComesTo a.task made.2 := by
  obtain ⟨h₁, h₂, ⟨reply, output⟩, rfl, hproduced, hrest⟩ := reaches_bind_iff.mp h
  obtain ⟨ending, hproduces, hgives⟩ := produces_of_reaches hgiven hcontent hproduced
  cases output with
  | error e =>
    obtain ⟨rfl, heq⟩ := reaches_done_iff.mp hrest
    cases heq
    rw [List.append_nil]
    refine ⟨ending, .unproduced hproduces ?_, comesTo_judge number reply hgives⟩
    rintro value rfl
    cases hgives
  | ok value =>
    obtain rfl := hgives.eq_output
    obtain ⟨applied, h₄, output, rfl, happlied, hdone⟩ := reaches_bind_iff.mp hrest
    obtain ⟨rfl, heq⟩ := reaches_done_iff.mp hdone
    cases heq
    obtain ⟨ending, happlies, hgives⟩ := applies_of_reaches hgiven happlied
    rw [List.append_nil]
    exact ⟨ending, .produced hproduces happlies, comesTo_judge number reply hgives⟩

/-- The rounds of a task that is given what it requires are directed. -/
theorem Rounds.directed (h : a.Rounds content own rounds)
    (hgiven : Exactly a.task.required values a.parameters)
    (hcontent : rounds = [] ∨ a.content = .ok content) :
    a.tools.Directs a.task values content rounds := by
  rintro earlier round later rfl
  have hround : round ∈ earlier ++ round :: later :=
    List.mem_append_right _ List.mem_cons_self
  have hscript (htype : a.task.executionType = .script) : content = a.task.content := by
    rcases hcontent with hnil | hcontent
    · rw [hnil] at hround
      cases hround
    · rw [Assignment.content, if_pos htype] at hcontent
      cases hcontent
      rfl
  obtain ⟨ending, hattempts, hcomes⟩ :=
    attempts_of_reaches hgiven hscript (h.attempted round hround)
  refine ⟨ending, hattempts, hcomes, ?_⟩
  rintro fault rfl
  obtain ⟨hfinal, hresult⟩ := hcomes
  -- The error is final, so it is worth no other attempt.
  refine h.last_of_not_repeated ?_
  rintro ⟨-, e, he, hretry⟩
  cases hresult.symm.trans he
  simp [PipelineError.isRetryable, hfinal] at hretry

end Assignment

namespace Executor

open Act RunState

variable [Zero N] [Add N] {x : Executor} {inputs : Bindings String}
  {s : RunState N x.pipeline} {i : x.pipeline.TaskIndex} {acts : List (Act N x.pipeline)}

/-- The work on a task was started on the values of the parameters that it requires, and it is the
beginning of rounds that go as the rules say. -/
def IsDirected (x : Executor) (inputs : Bindings String) (acts : List (Act N x.pipeline))
    (i : x.pipeline.TaskIndex) : Prop :=
  ∃ before after s, acts = before ++ .start i :: after ∧
    x.Steps (x.initialState inputs) before s ∧ x.CanStart s i ∧
    ∃ content rounds rest,
      workOn i acts <+: rounds.flatMap (x.pipeline.taskAt i).roundEvents ++ rest ∧
      (rest = [] ∨ rest = [.looked true]) ∧
      x.tools.Directs (x.pipeline.taskAt i) s.resolved content rounds

/-- **The work on a task is directed**, if there is any. -/
theorem Steps.isDirected (h : x.Steps (x.initialState inputs) acts s) (hwork : workOn i acts ≠ []) :
    x.IsDirected inputs acts i := by
  obtain ⟨before, after, s₀, hsplit, hbefore, hstart, remaining, hreaches, -⟩ :=
    h.exists_start_of_work hwork
  -- Answers that are still to come cannot change what was called before, so any will do.
  obtain ⟨more, hmore, -⟩ := exists_reaches_evaluate Call.refuse remaining
  obtain ⟨content, rounds, hrounds, -, hcontent⟩ :=
    Assignment.work_rounds (hreaches.trans hmore)
  obtain ⟨rest, hevents, hrest⟩ := hrounds.events
  exact ⟨before, after, s₀, hsplit, hbefore, hstart, content, rounds, rest, ⟨more, hevents⟩, hrest,
    hrounds.directed hstart.given hcontent⟩

/-- A call in directed work is one of an attempt. -/
theorem IsDirected.exists_attempt (h : x.IsDirected inputs acts i) {c : Call} {answer : c.Answer N}
    (hcall : .answered c answer ∈ workOn i acts) :
    ∃ values content calls ending,
      x.tools.Attempts (x.pipeline.taskAt i) values content calls ending ∧
      .answered c answer ∈ calls := by
  obtain ⟨-, -, s, -, -, -, content, rounds, rest, hbegins, hrest, hdirects⟩ := h
  obtain ⟨round, hround, hmem⟩ := Task.exists_round_of_answered hrest (hbegins.subset hcall)
  obtain ⟨earlier, later, hsplit⟩ := List.append_of_mem hround
  obtain ⟨ending, hattempts, -⟩ := hdirects earlier round later hsplit
  exact ⟨s.resolved, content, round.calls, ending, hattempts, hmem⟩

/-- A call of a run is one in the work on a task. -/
theorem exists_work_of_answered {closing : List (Event N)} {r : Result (Outcome N)}
    (hends : x.Ends s closing r) {c : Call} {answer : c.Answer N}
    (h : .answered c answer ∈
      x.pipeline.tasks.map (fun task => .notified (.about task .pending 0)) ++
        acts.map (·.entry.2) ++ closing) :
    ∃ i, .answered c answer ∈ workOn i acts := by
  rcases List.mem_append.mp h with h | h
  · rcases List.mem_append.mp h with h | h
    · obtain ⟨_, -, heq⟩ := List.mem_map.mp h
      cases heq
    · obtain ⟨act, hact, heq⟩ := List.mem_map.mp h
      cases act with
      | work i e =>
        obtain rfl : e = .answered c answer := heq
        exact ⟨i, List.mem_filterMap.mpr ⟨_, hact, if_pos rfl⟩⟩
      | look => cases heq
      | start => cases heq
      | join => cases heq
  · cases hends with
    | fail => cases h
    | close _ hclose =>
      obtain ⟨cancelled, rfl, -⟩ := reaches_close hclose
      rcases List.mem_cons.mp h with h | h
      · cases h
      · obtain ⟨_, -, heq⟩ := List.mem_map.mp h
        cases heq

end Executor

/-- A pipeline of one script. -/
def Pipeline.scripted : Pipeline :=
  { Pipeline.greetings with
    parameters := [{ name := "greeting", isOutput := true }]
    tasks := [{ Task.fillIn "greet" "'Hi'" "greeting" [] with
      executionType := .script, contentLanguage := some "javascript" }] }

namespace Executor

end Executor

end PromptPipeline
