import PromptPipeline.Proofs.Execution.Asking

/-!
# Attempts in turn

A task that is a template of a prompt asks the same question at each attempt, and the answers decide
what the work on it comes to. So this is a recursion on the turns of the generator
(`attemptsInTurn`), and all the rest of the work is in the `verdict` on an answer.

* `work_inTurn`: the work succeeds with the value that the turns come to, and its report keeps the
  replies.
* `comesTo_withGenerator`, `work_withGenerator`: to put another generator in the place of the one at
  hand changes nothing but its turns.
-/

namespace PromptPipeline

variable {σ N : Type} {ask : ModelVariant → Prompt → StateM σ (Result (Reply N))}
  {answers : (c : Call) → c.Answer N} {s : σ}

namespace Assignment

open Activity

variable {a : Assignment} {content : String} {number : Nat} {calls own : List (Event N)}

/-! ## Tasks that ask a generator -/

/-- What the task asks of a model. -/
def requirements (a : Assignment) : ModelRequirements :=
  a.task.modelRequirements.getD {}

/-- What the task asks a generator. -/
def prompt (a : Assignment) (content : String) : Prompt :=
  { title := a.task.title, content, requirements := a.requirements
    expectations := a.task.expectations }

/-- What an attempt comes to once a generator has answered. -/
def verdict (a : Assignment) (answers : (c : Call) → c.Answer N) :
    Result (Reply N) → Result String
  | .ok reply =>
    (a.judge 0 (some reply)
      ((a.postprocess reply.content a.task.postprocessing).evaluate answers)).2
  | .error e => .error e

theorem judge_reply (reply : Option (Reply N)) (output : Result String) :
    (a.judge number reply output).1.reply = reply := by
  cases output with
  | error e => rfl
  | ok value =>
    unfold judge
    dsimp only
    split <;> rfl

/-- The verdict on an output depends on nothing else. -/
theorem judge_result (number' : Nat) (reply reply' : Option (Reply N)) (output : Result String) :
    (a.judge number reply output).2 = (a.judge number' reply' output).2 := by
  cases output with
  | error e => rfl
  | ok value =>
    unfold judge
    dsimp only
    split <;> rfl

/-- Calls that are no questions to a generator have one result. -/
theorem eq_evaluate_of_quiet {β : Type} {b : Activity N β} {r : β}
    (hquiet : b.Confined (·.asked? = none)) (h : b.Reaches calls (.done r))
    (hothers : ∀ e ∈ calls, e.asked? = none → e.Obeys answers) :
    calls.filterMap Event.asked? = [] ∧ r = b.evaluate answers := by
  have hnone := hquiet.of_reaches h
  exact ⟨List.filterMap_eq_nil_iff.mpr hnone, h.eq_evaluate fun e he => hothers e he (hnone e he)⟩

/-- To produce an output from a prompt is to choose a generator and to ask it. -/
theorem produce_of_prompt {reply : Option (Reply N)} {output : Result String}
    (htype : a.task.executionType = .promptTemplate)
    (h : (a.produce content).Reaches calls (.done (reply, output)))
    (hothers : ∀ e ∈ calls, e.asked? = none → e.Obeys answers) :
    (∃ e, (a.tools.chooseGenerator a.requirements).evaluate answers = .error e ∧
      reply = none ∧ output = .error e) ∨
    ∃ i answer, (a.tools.chooseGenerator a.requirements).evaluate answers = .ok i ∧
      calls.filterMap Event.asked? = [⟨a.requirements.variant, a.prompt content, answer⟩] ∧
      reply = answer.toOption ∧ output = answer.map (·.content) := by
  unfold produce at h
  rw [htype] at h
  obtain ⟨h₁, h₂, answer, rfl, hgenerate, hdone⟩ := reaches_bind_iff.mp h
  obtain ⟨h₃, h₄, chosen, rfl, hchoose, hcall⟩ := reaches_bind_iff.mp hgenerate
  obtain ⟨hothers, -⟩ := List.forall_mem_append.mp (List.forall_mem_append.mp hothers).1
  obtain ⟨hquiet, hchosen⟩ := eq_evaluate_of_quiet
    (a.tools.chooseGenerator_confined (fun _ _ => rfl) _) hchoose hothers
  have hrest : h₂ = [] ∧ reply = answer.toOption ∧ output = answer.map (·.content) := by
    cases answer <;>
    · obtain ⟨rfl, heq⟩ := reaches_done_iff.mp hdone
      cases heq
      exact ⟨rfl, rfl, rfl⟩
  obtain ⟨rfl, hreply, houtput⟩ := hrest
  cases chosen with
  | error e =>
    obtain ⟨rfl, heq⟩ := reaches_done_iff.mp hcall
    cases heq
    exact .inl ⟨e, hchosen.symm, hreply, houtput⟩
  | ok i =>
    cases hcall with
    | answered hcall =>
      obtain ⟨rfl, heq⟩ := reaches_done_iff.mp hcall
      cases heq
      refine .inr ⟨i, answer, hchosen.symm, ?_, hreply, houtput⟩
      rw [List.append_nil, List.filterMap_append, hquiet]
      rfl

/-- **An attempt asks the generator that was chosen**, once, and its answer decides. -/
theorem attempt_of_chosen {made : AttemptReport N} {result : Result String} {i : Nat}
    (htype : a.task.executionType = .promptTemplate)
    (hchosen : (a.tools.chooseGenerator a.requirements).evaluate answers = .ok i)
    (h : (a.attempt content number).Reaches calls (.done (made, result)))
    (hothers : ∀ e ∈ calls, e.asked? = none → e.Obeys answers) :
    ∃ answer, calls.filterMap Event.asked? =
        [⟨a.requirements.variant, a.prompt content, answer⟩] ∧
      result = a.verdict answers answer ∧ made.reply = answer.toOption := by
  obtain ⟨h₁, h₂, ⟨reply, output⟩, rfl, hproduced, hrest⟩ := reaches_bind_iff.mp h
  obtain ⟨hothers₁, hothers₂⟩ := List.forall_mem_append.mp hothers
  rcases produce_of_prompt htype hproduced hothers₁ with
    ⟨e, herror, -⟩ | ⟨_, answer, -, hasked, rfl, rfl⟩
  · rw [hchosen] at herror
    cases herror
  · refine ⟨answer, ?_⟩
    rw [List.filterMap_append, hasked]
    cases answer with
    | error e =>
      obtain ⟨rfl, heq⟩ := reaches_done_iff.mp hrest
      cases heq
      exact ⟨rfl, rfl, rfl⟩
    | ok reply =>
      obtain ⟨h₃, h₄, value, rfl, hprocessed, hdone⟩ := reaches_bind_iff.mp hrest
      obtain ⟨rfl, heq⟩ := reaches_done_iff.mp hdone
      injection heq with hpair
      have hmade : made = (a.judge number (some reply) value).1 := congrArg Prod.fst hpair
      have hresult : result = (a.judge number (some reply) value).2 := congrArg Prod.snd hpair
      rw [List.append_nil] at hothers₂ ⊢
      obtain ⟨hquiet, rfl⟩ := eq_evaluate_of_quiet
        (postprocess_confined (fun _ _ _ _ _ => rfl) _ _) hprocessed hothers₂
      rw [hquiet, hmade, hresult]
      exact ⟨rfl, judge_result .., judge_reply ..⟩

/-- An attempt does not succeed if no generator was chosen. -/
theorem attempt_of_not_chosen {made : AttemptReport N} {result : Result String} {e : PipelineError}
    (htype : a.task.executionType = .promptTemplate)
    (hchosen : (a.tools.chooseGenerator a.requirements).evaluate answers = .error e)
    (h : (a.attempt content number).Reaches calls (.done (made, result)))
    (hothers : ∀ e ∈ calls, e.asked? = none → e.Obeys answers) : result = .error e := by
  obtain ⟨h₁, h₂, ⟨reply, output⟩, rfl, hproduced, hrest⟩ := reaches_bind_iff.mp h
  obtain ⟨hothers, -⟩ := List.forall_mem_append.mp hothers
  rcases produce_of_prompt htype hproduced hothers with
    ⟨e', herror, rfl, rfl⟩ | ⟨i, _, hok, -⟩
  · rw [hchosen] at herror
    cases herror
    obtain ⟨-, heq⟩ := reaches_done_iff.mp hrest
    cases heq
    rfl
  · rw [hchosen] at hok
    cases hok

end Assignment

/-! ## All attempts -/

/-- The answers that attempts get in turn, and the value that they come to, if they do. -/
def attemptsInTurn (verdict : Result (Reply N) → Result String)
    (ask : StateM σ (Result (Reply N))) :
    (remaining : Nat) → σ → List (Result (Reply N)) × Option String
  | 0, _ => ([], none)
  | remaining + 1, s =>
    match verdict (ask.run s).1 with
    | .ok value => ([(ask.run s).1], some value)
    | .error e =>
      if e.isRetryable = true ∧ 0 < remaining then
        let (answers, value?) := attemptsInTurn verdict ask remaining (ask.run s).2
        ((ask.run s).1 :: answers, value?)
      else ([(ask.run s).1], none)

namespace Assignment

open Activity

variable {a : Assignment} {content : String} {number remaining : Nat} {own : List (Event N)}
  {report : TaskReport N} {run : TaskRun N}

/-- **An attempt, with what follows it**, takes one turn of the generator. -/
theorem attempt_inTurn {calls rest : List (Event N)} {made : AttemptReport N}
    {result : Result String} {i : Nat} {b : Bool}
    (htype : a.task.executionType = .promptTemplate)
    (hchosen : (a.tools.chooseGenerator a.requirements).evaluate answers = .ok i)
    (hmade : (a.attempt content number).Reaches calls (.done (made, result)))
    (hown : AnsweredInTurn ask answers s (a.attemptEvents number calls ++ .looked b :: rest)) :
    let turn := (ask a.requirements.variant (a.prompt content)).run s
    b = false ∧ result = a.verdict answers turn.1 ∧ made.reply = turn.1.toOption ∧
      AnsweredInTurn ask answers turn.2 rest := by
  have hothers : ∀ e ∈ calls ++ .looked b :: rest, e.asked? = none → e.Obeys answers := by
    intro e he
    refine hown.others e ?_
    simp only [attemptEvents, List.cons_append]
    exact List.mem_cons_of_mem _ (List.mem_cons_of_mem _ he)
  obtain ⟨hcalls, hrest⟩ := List.forall_mem_append.mp hothers
  obtain ⟨hlooked, hrest⟩ := List.forall_mem_cons.mp hrest
  obtain ⟨answer, hasked, hresult, hreply⟩ := attempt_of_chosen htype hchosen hmade hcalls
  have hturn := hown.inTurn
  have hall : (a.attemptEvents number calls ++ .looked b :: rest).filterMap Event.asked? =
      ⟨a.requirements.variant, a.prompt content, answer⟩ :: rest.filterMap Event.asked? := by
    simp [attemptEvents, List.filterMap_cons, Event.asked?, hasked]
  rw [hall] at hturn
  obtain ⟨hanswer, hturn⟩ := hturn
  change ((ask a.requirements.variant (a.prompt content)).run s).1 = answer at hanswer
  rw [← hanswer] at hresult hreply
  exact ⟨hlooked rfl, hresult, hreply, hrest, hturn⟩

/-- **Attempts come to what the answers in turn come to**, and record their replies. -/
theorem Tried.inTurn (h : Tried a content number report remaining own run) {i : Nat}
    (htype : a.task.executionType = .promptTemplate)
    (hchosen : (a.tools.chooseGenerator a.requirements).evaluate answers = .ok i)
    (hown : AnsweredInTurn ask answers s own) :
    let tried := attemptsInTurn (a.verdict answers)
      (ask a.requirements.variant (a.prompt content)) remaining s
    run.report.attempts.map (·.reply) =
        report.attempts.map (·.reply) ++ tried.1.map Except.toOption ∧
      ∀ value, run.ending = .succeeded value ↔ tried.2 = some value := by
  induction h generalizing s with
  | exhausted => simp [attemptsInTurn]
  | stopped => exact absurd (List.mem_singleton.mpr rfl) hown.looked_true_notMem
  | interrupted hmade =>
    obtain ⟨hfalse, -⟩ := attempt_inTurn htype hchosen hmade hown
    cases hfalse
  | succeeded hmade =>
    obtain ⟨-, hresult, hreply, -⟩ := attempt_inTurn htype hchosen hmade hown
    simp [attemptsInTurn, ← hresult, TaskReport.withAttempt, hreply]
  | failed hmade hlast =>
    obtain ⟨-, hresult, hreply, -⟩ := attempt_inTurn htype hchosen hmade hown
    simp [attemptsInTurn, ← hresult, TaskReport.withAttempt, hreply, hlast]
  | retried hmade hretry hremaining _ ih =>
    obtain ⟨-, hresult, hreply, hrest⟩ := attempt_inTurn htype hchosen hmade hown
    obtain ⟨hreplies, hending⟩ := ih hrest
    simp [attemptsInTurn, ← hresult, TaskReport.withAttempt, hreply, hretry, hremaining, hreplies,
      hending]

/-- Attempts do not succeed if no generator was chosen. -/
theorem Tried.not_succeeded (h : Tried a content number report remaining own run)
    {e : PipelineError} (htype : a.task.executionType = .promptTemplate)
    (hchosen : (a.tools.chooseGenerator a.requirements).evaluate answers = .error e)
    (hown : ∀ e ∈ own, e.asked? = none → e.Obeys answers) (value : String) :
    run.ending ≠ .succeeded value := by
  induction h with
  | exhausted => exact fun h => nomatch h
  | stopped => exact fun h => nomatch h
  | interrupted => exact fun h => nomatch h
  | failed => exact fun h => nomatch h
  | @succeeded number _ _ calls _ _ hmade =>
    have hcalls : ∀ e ∈ calls, e.asked? = none → e.Obeys answers :=
      fun e he => hown e (by simp [attemptEvents, he])
    have herror := attempt_of_not_chosen htype hchosen hmade hcalls
    cases herror
  | retried _ _ _ _ ih => exact ih fun e he => hown e (by simp [he])

/-! ## The whole work -/

/-- The answers that the work on the task gets in turn, and the value that it succeeds with. -/
def comesTo (a : Assignment) (ask : ModelVariant → Prompt → StateM σ (Result (Reply N)))
    (answers : (c : Call) → c.Answer N) (s : σ) : List (Result (Reply N)) × Option String :=
  match a.content, a.passingJoker? with
  | .error _, _ => ([], none)
  | .ok _, some (_, value) => ([], some value)
  | .ok content, none =>
    match ((a.tools.chooseGenerator a.requirements).evaluate answers).toOption with
    | none => ([], none)
    | some _ =>
      attemptsInTurn (a.verdict answers) (ask a.requirements.variant (a.prompt content))
        a.maxAttempts s

/-- **The work on a task succeeds with the value that the turns come to**, and then its report keeps
the replies. -/
theorem work_inTurn [Zero N] [Add N] (htype : a.task.executionType = .promptTemplate)
    (h : a.work.Reaches own (.done run)) (hown : AnsweredInTurn ask answers s own)
    (value : String) :
    (run.ending = .succeeded value ↔ (a.comesTo ask answers s).2 = some value) ∧
      (run.ending = .succeeded value → run.report.attempts.map (·.reply) =
        (a.comesTo ask answers s).1.map Except.toOption) := by
  unfold comesTo
  rcases work_cases h with ⟨e, hcontent, -, rfl⟩ |
    ⟨content, joker, adopted, hcontent, hjoker, -, rfl⟩ |
    ⟨content, tried, hcontent, hjoker, htried, rfl⟩
  · rw [hcontent]
    simp
  · rw [hcontent, hjoker]
    simp [TaskReport.ofTask]
  · rw [hcontent, hjoker]
    dsimp only
    cases hchosen : (a.tools.chooseGenerator a.requirements).evaluate answers with
    | error e =>
      have hnot := htried.not_succeeded htype hchosen hown.others value
      simp [hnot, Except.toOption]
    | ok i =>
      obtain ⟨hreplies, hending⟩ := htried.inTurn htype hchosen hown
      exact ⟨hending value, fun _ => hreplies⟩

end Assignment

/-! ## Another generator -/

/-- The tools with one generator in the place of those at hand. -/
def Tools.withGenerator (tools : Tools) (title : String) : Tools :=
  { tools with generators := [title] }

/-- To choose the only generator, its title does not matter. -/
theorem Tools.chooseGenerator_withGenerator (tools : Tools) (r : ModelRequirements)
    (title title' : String) :
    (((tools.withGenerator title).chooseGenerator r).evaluate answers).toOption =
      (((tools.withGenerator title').chooseGenerator r).evaluate answers).toOption := by
  unfold chooseGenerator withGenerator
  dsimp only
  cases r.modelName with
  | none => rfl
  | some name =>
    have hsame : askForModel (N := N) name r.variant 0 [title] =
        askForModel name r.variant 0 [title'] := rfl
    dsimp only
    rw [Activity.evaluate_bind, Activity.evaluate_bind, hsame]
    cases (askForModel name r.variant 0 [title']).evaluate answers with
    | none => rfl
    | some i => rfl

namespace Assignment

/-- The assignment with one generator in the place of those at hand. -/
def withGenerator (a : Assignment) (title : String) : Assignment :=
  { a with tools := a.tools.withGenerator title }

variable (a : Assignment) (title title' : String)

theorem postprocess_withGenerator (value : String) (names : List String) :
    (a.withGenerator title).postprocess (N := N) value names = a.postprocess value names := by
  induction names generalizing value with
  | nil => rfl
  | cons name rest ih =>
    unfold postprocess
    simp only [ih]
    rfl

theorem verdict_withGenerator : (a.withGenerator title).verdict answers = a.verdict answers := by
  funext answer
  cases answer with
  | error e => rfl
  | ok reply =>
    unfold verdict
    dsimp only
    rw [postprocess_withGenerator]
    rfl

theorem attempt_withGenerator (htype : a.task.executionType ≠ .promptTemplate) (content : String)
    (number : Nat) :
    (a.withGenerator title).attempt (N := N) content number = a.attempt content number := by
  have hproduce : (a.withGenerator title).produce (N := N) content = a.produce content := by
    have htask : (a.withGenerator title).task = a.task := rfl
    unfold produce
    rw [htask]
    cases hcase : a.task.executionType with
    | promptTemplate => exact absurd hcase htype
    | simpleTemplate => rfl
    | script => rfl
    | promptDialog => rfl
  unfold attempt
  simp only [hproduce, postprocess_withGenerator]
  rfl

theorem makeAttempts_withGenerator (htype : a.task.executionType ≠ .promptTemplate)
    (content : String) (number : Nat) (report : TaskReport N) (remaining : Nat) :
    (a.withGenerator title).makeAttempts content number report remaining =
      a.makeAttempts content number report remaining := by
  induction remaining generalizing number report with
  | zero => rfl
  | succ remaining ih =>
    unfold makeAttempts
    simp only [attempt_withGenerator a title htype, ih]
    rfl

/-- A task that asks no generator does not depend on them. -/
theorem work_withGenerator [Zero N] [Add N] (htype : a.task.executionType ≠ .promptTemplate) :
    (a.withGenerator title).work (N := N) = a.work := by
  unfold work
  simp only [makeAttempts_withGenerator a title htype]
  rfl

/-- What the turns of the only generator come to does not depend on its title. -/
theorem comesTo_withGenerator : (a.withGenerator title).comesTo ask answers s =
    (a.withGenerator title').comesTo ask answers s := by
  have hchosen : (((a.withGenerator title).tools.chooseGenerator
      (a.withGenerator title).requirements).evaluate answers).toOption =
        (((a.withGenerator title').tools.chooseGenerator
          (a.withGenerator title').requirements).evaluate answers).toOption :=
    a.tools.chooseGenerator_withGenerator a.requirements title title'
  unfold comesTo
  rw [hchosen, verdict_withGenerator, verdict_withGenerator]
  rfl

end Assignment

end PromptPipeline
