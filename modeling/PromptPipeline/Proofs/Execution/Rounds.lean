import PromptPipeline.Proofs.Execution.Attempts

/-!
# The rounds of a task

The work on a task goes in rounds, one for each attempt: a look at the signal, the announcement of
the attempt, its calls, and one more look. A history of the work is cut into these rounds, so what
is known of one attempt is known of every attempt of every task.

* `work_rounds`: the events of the work are those of its rounds, and the report has the records that
  the rounds left, in this order.
* `Rounds.last_of_not_repeated`: a round that does not call for another attempt is the last one.
-/

namespace PromptPipeline

variable {N : Type}

/-- One attempt as a history shows it. -/
structure Round (N : Type) where
  calls : List (Event N)
  /-- The record that the attempt left. -/
  made : AttemptReport N
  /-- What the attempt came to. -/
  result : Result String
  /-- What the look at the signal after the attempt showed. -/
  cancelled : Bool

/-- The round calls for another attempt. -/
def Round.IsRepeated (round : Round N) : Prop :=
  round.cancelled = false ∧ ∃ e, round.result = .error e ∧ e.isRetryable = true

/-- The events of a round of the task. -/
def Task.roundEvents (t : Task) (round : Round N) : List (Event N) :=
  .looked false :: .notified (.about t .dispatching round.made.attempt) :: round.calls ++
    [.looked round.cancelled]

/-- A call in rounds, after which there is one more look at most, is a call of one of them. -/
theorem Task.exists_round_of_answered {t : Task} {rounds : List (Round N)} {rest : List (Event N)}
    {c : Call} {answer : c.Answer N} (hrest : rest = [] ∨ rest = [.looked true])
    (h : .answered c answer ∈ rounds.flatMap t.roundEvents ++ rest) :
    ∃ round ∈ rounds, .answered c answer ∈ round.calls := by
  rcases List.mem_append.mp h with h | h
  · obtain ⟨round, hround, hmem⟩ := List.mem_flatMap.mp h
    exact ⟨round, hround, by simpa [roundEvents] using hmem⟩
  · rcases hrest with rfl | rfl
    · cases h
    · cases List.mem_singleton.mp h

namespace Assignment

variable {a : Assignment} {content : String} {number remaining : Nat} {calls own : List (Event N)}
  {attempt : AttemptReport N} {result : Result String} {report : TaskReport N} {run : TaskRun N}
  {round : Round N} {rounds : List (Round N)}

/-- The events are those of the rounds, each of which is an attempt and all of which but the last one
are repeated. After them there is at most one more look, at a signal that is set. -/
structure Rounds (a : Assignment) (content : String) (own : List (Event N))
    (rounds : List (Round N)) : Prop where
  events : ∃ rest, own = rounds.flatMap a.task.roundEvents ++ rest ∧
    (rest = [] ∨ rest = [.looked true])
  attempted : ∀ round ∈ rounds, (a.attempt content round.made.attempt).Reaches round.calls
    (.done (round.made, round.result))
  repeated : rounds.Pairwise fun round _ => round.IsRepeated

namespace Rounds

theorem nil : a.Rounds (N := N) content [] [] :=
  ⟨⟨[], rfl, .inl rfl⟩, List.forall_mem_nil _, .nil⟩

/-- One more round, before the others. -/
theorem cons {b : Bool}
    (hmade : (a.attempt content number).Reaches calls (.done (attempt, result)))
    (hrepeated : ∀ later ∈ rounds, Round.IsRepeated ⟨calls, attempt, result, b⟩)
    (h : a.Rounds content own rounds) :
    a.Rounds content (a.attemptEvents number calls ++ .looked b :: own)
      (⟨calls, attempt, result, b⟩ :: rounds) := by
  obtain rfl := (attempt_records hmade).number
  obtain ⟨rest, rfl, hrest⟩ := h.events
  exact ⟨⟨rest, by simp [Task.roundEvents, attemptEvents], hrest⟩, List.forall_mem_cons.mpr ⟨hmade, h.attempted⟩,
    .cons hrepeated h.repeated⟩

/-- A round that does not call for another attempt is the last one. -/
theorem last_of_not_repeated {earlier later : List (Round N)}
    (h : a.Rounds content own (earlier ++ round :: later)) (hround : ¬round.IsRepeated) :
    later = [] := by
  cases later with
  | nil => rfl
  | cons next later =>
    have hpairs := (List.pairwise_append.mp h.repeated).2.1
    exact absurd (List.rel_of_pairwise_cons hpairs List.mem_cons_self) hround

end Rounds

/-- All ways through the attempts go in rounds. -/
theorem Tried.exists_rounds (h : Tried a content number report remaining own run) :
    ∃ rounds, a.Rounds content own rounds ∧
      run.report.attempts = report.attempts ++ rounds.map (·.made) := by
  induction h with
  | exhausted => exact ⟨[], .nil, (List.append_nil _).symm⟩
  | stopped =>
    exact ⟨[], ⟨⟨_, rfl, .inr rfl⟩, List.forall_mem_nil _, .nil⟩, (List.append_nil _).symm⟩
  | interrupted hmade => exact ⟨_, .cons hmade (List.forall_mem_nil _) .nil, rfl⟩
  | succeeded hmade => exact ⟨_, .cons hmade (List.forall_mem_nil _) .nil, rfl⟩
  | failed hmade => exact ⟨_, .cons hmade (List.forall_mem_nil _) .nil, rfl⟩
  | retried hmade hretry _ _ ih =>
    obtain ⟨rounds, hrounds, hattempts⟩ := ih
    refine ⟨_, .cons hmade (fun _ _ => ⟨rfl, _, rfl, hretry⟩) hrounds, ?_⟩
    rw [hattempts]
    exact List.append_assoc ..

/-- **The work on a task goes in rounds**, whose records its report has. Unless the content of the
task is known, there are none. -/
theorem work_rounds [Zero N] [Add N] (h : a.work.Reaches own (.done run)) :
    ∃ content rounds, a.Rounds content own rounds ∧
      run.report.attempts = rounds.map (·.made) ∧ (rounds = [] ∨ a.content = .ok content) := by
  rcases work_cases h with ⟨e, -, rfl, rfl⟩ | ⟨content, joker, value, -, -, rfl, rfl⟩ |
    ⟨content, tried, hcontent, -, htried, rfl⟩
  · exact ⟨"", [], .nil, rfl, .inl rfl⟩
  · exact ⟨content, [], .nil, rfl, .inl rfl⟩
  · obtain ⟨rounds, hrounds, hattempts⟩ := htried.exists_rounds
    exact ⟨content, rounds, hrounds, hattempts, .inr hcontent⟩

end Assignment

end PromptPipeline
