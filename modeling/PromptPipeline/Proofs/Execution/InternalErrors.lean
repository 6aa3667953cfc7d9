import PromptPipeline.Proofs.Execution.Outcome

/-!
# Runs that end with an internal error

Validation looks at the parameters that a task says it depends on, and substitution at the
placeholders in its content. The two agree in a pipeline that was compiled from a source, but a
document may have a task that is not closed: one with a placeholder for a parameter that it does not
require. Such a document is accepted, and a run that starts the task ends with an internal error.
There is no other way to one.
-/

namespace PromptPipeline

namespace Executor

variable {N : Type} [Zero N] [Add N]

/-- **A run returns an outcome if and only if every task that it starts is closed**, as long as no
adapter returns an internal error; and the only error is that of a placeholder for a parameter that
a started task does not require. So if all tasks are closed, then a run in any environment, with any
schedule and any moment of cancellation, returns an outcome. -/
theorem run_isOk_iff_started_closed {p : Pipeline} {tools : Tools} {settings : ExecutionSettings}
    {x : Executor} (hx : ofPipeline p tools settings = .ok x) (schedule : Schedule)
    (inputs : Bindings String) :
    (∀ (history : List (Event N)) (r : Result (Outcome N)),
      (x.execute schedule inputs).Reaches history (.done r) → (∀ e ∈ history, e.Kept) →
        ((∃ o, r = .ok o) ↔ ∀ i : p.TaskIndex,
          0 < history.countP (Event.starts (p.taskAt i)) → (p.taskAt i).Closed) ∧
        ∀ e, r = .error e → ∃ i : p.TaskIndex, 0 < history.countP (Event.starts (p.taskAt i)) ∧
          (p.taskAt i).executionType ≠ .script ∧
          ∃ name ∈ Template.parameters (p.taskAt i).content, name ∉ (p.taskAt i).required ∧
            e = .unexpected (.unresolvedPlaceholder name)) ∧
    ((∀ t ∈ p.tasks, t.Closed) → ∀ {σ : Type} (env : Environment (StateM σ) N),
      (∀ (c : Call) (s : σ), c.Kept ((env.answer c).run s).1) →
        ∀ s, ∃ o, (((x.execute schedule inputs).run env).run s).1 = .ok o) := by
  obtain ⟨order, rfl, hx⟩ := accepted_of_ofPipeline hx
  refine ⟨fun history r hrun hkept => ⟨⟨?_, fun hclosed => ?_⟩, ?_⟩, fun hclosed σ env henv s => ?_⟩
  · rintro ⟨o, rfl⟩ i hstarted
    obtain ⟨past, cancelled, s, hreached, hidle, -, hsub, -, hcount⟩ := exists_final hx hrun
    rcases pending_or_finished_of_idle hidle i with hi | ⟨report, hi⟩
    · rw [hcount i, starts, hi] at hstarted
      exact absurd hstarted (Nat.lt_irrefl 0)
    · have hcoherent := hreached.coherent fun e he => hkept e (hsub e he)
      obtain ⟨run, hwork, -, hordinary⟩ := hcoherent.finished i report hi
      exact hwork.closed hordinary
  · cases r with
    | ok o => exact ⟨o, rfl⟩
    | error e =>
      obtain ⟨i, hcount, hscript, name, hname, hrequired, -⟩ := exists_placeholder hx hrun hkept
      exact absurd (hclosed i (by rw [hcount]; exact Nat.one_pos) hscript name hname) hrequired
  · rintro e rfl
    obtain ⟨i, hcount, hi⟩ := exists_placeholder hx hrun hkept
    exact ⟨i, by rw [hcount]; exact Nat.one_pos, hi⟩
  · obtain ⟨history, hreaches, hgives⟩ := Activity.exists_reaches_run env
      (Executor.execute ⟨p, tools, settings, order⟩ schedule inputs) s
    refine exists_outcome hx (fun i => hclosed _ (Pipeline.taskAt_mem i)) hreaches fun e he => ?_
    cases e with
    | looked => trivial
    | notified => trivial
    | answered c answer =>
      obtain ⟨s', rfl⟩ := hgives _ he
      exact henv c s'

end Executor

/-- A template that has a placeholder for an input that it does not depend on. -/
def Pipeline.strayGreeting : Pipeline :=
  { url := none, title := "Greetings", dialectVersion := "1.0.0", description := none
    parameters := [{ name := "x", isInput := true, isOutput := true },
      { name := "y", isOutput := true }]
    tasks := [.fillIn "greet" "Hi \x7bx\x7d" "y" []]
    knowledge := [] }

namespace Executor

/-- The pipeline is accepted, and its run with the input given ends with the internal error that no
value resolves the placeholder. -/
theorem strayGreeting_fails :
    ∃ (x : Executor) (history : List (Event Nat)), ofPipeline .strayGreeting .none {} = .ok x ∧
      (∀ e ∈ history, e.Kept) ∧ (x.execute .firstTask (.ofList [("x", "Ada")])).Reaches history
        (.done (.error (.unexpected (.unresolvedPlaceholder "x")))) := by
  obtain ⟨x, hx⟩ : ∃ x, ofPipeline .strayGreeting .none {} = .ok x := ⟨_, by cbv⟩
  obtain ⟨r, history, hreaches, hobeys⟩ : ∃ (r : Result (Outcome Nat)) (history : _),
      (x.execute .firstTask (.ofList [("x", "Ada")])).Reaches history (.done r) ∧
        ∀ e ∈ history, e.Obeys Call.refuse :=
    ⟨_, Activity.exists_reaches_evaluate Call.refuse _⟩
  have hkept : ∀ e ∈ history, e.Kept := fun e he => (hobeys e he).kept Call.kept_refuse
  have htask (i : Pipeline.strayGreeting.TaskIndex) :
      Pipeline.strayGreeting.taskAt i = .fillIn "greet" "Hi \x7bx\x7d" "y" [] := by
    have hzero : i = ⟨0, by decide⟩ := Fin.ext (Nat.lt_one_iff.mp i.isLt)
    rw [hzero]
    rfl
  have hnames : (Template.parameters "Hi \x7bx\x7d").toList = ["x"] := by cbv
  obtain ⟨hiff, herror⟩ :=
    (run_isOk_iff_started_closed hx .firstTask (.ofList [("x", "Ada")])).1 history r hreaches hkept
  obtain ⟨order, rfl, haccepted⟩ := accepted_of_ofPipeline hx
  cases r with
  | error e =>
    obtain ⟨i, -, -, name, hname, -, rfl⟩ := herror e rfl
    rw [htask i] at hname
    have hx' : name ∈ ["x"] := hnames ▸ hname
    obtain rfl := List.mem_singleton.mp hx'
    exact ⟨_, history, hx, hkept, hreaches⟩
  | ok o =>
    -- The task requires nothing, so that it is started; but it is not closed.
    obtain ⟨i⟩ : Nonempty Pipeline.strayGreeting.TaskIndex := ⟨⟨0, by decide⟩⟩
    have hempty : ∀ name, name ∉ (Pipeline.strayGreeting.taskAt i).required := by
      rw [htask i]
      intro name hname
      cases hname
    have hset := looked_true_notMem hobeys
    obtain ⟨past, s, -, -, hcomplete, -, hcount⟩ := exists_complete haccepted hreaches hset
    have hstarted : 0 < history.countP (Event.starts (Pipeline.strayGreeting.taskAt i)) := by
      rcases hcomplete i with ⟨report, hfinished⟩ | ⟨hpending, hnot⟩
      · rw [hcount i, starts, hfinished]
        exact Nat.one_pos
      · have hready := isReady_iff.mpr ⟨hpending, fun name hname => absurd hname (hempty name)⟩
        rw [hnot] at hready
        cases hready
    have hclosed := hiff.mp ⟨o, rfl⟩ i hstarted
    rw [htask i] at hclosed
    have hmem : "x" ∈ Template.parameters "Hi \x7bx\x7d" := by
      rw [NameSet.mem_def, hnames]
      exact List.mem_singleton.mpr rfl
    exact absurd (hclosed (by decide) "x" hmem) (by decide)

end Executor

end PromptPipeline
