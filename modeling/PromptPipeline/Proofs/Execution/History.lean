import PromptPipeline.Execution.Activity

/-!
# Histories of activities

An activity is a tree with a branch for every answer, and a history is a path through it: what
happened at each interaction. `Reaches` relates an activity, a history and what remains of the
activity after it. To speak of all histories is to speak of all tools, however they keep state, and
of all moments at which the cancellation signal is set.

* `reaches_bind_iff` cuts the history of one activity after another in two.
* `Ensures` is a rely: what the result satisfies, as long as every event of the history satisfies
  a condition on the outside. Each function that builds an activity has one lemma of this form.
* `Confined` says which events an activity may ever have.
* `exists_reaches_run` ties histories to `Activity.run`: a run in an environment with a state of
  any kind has a history, and the environment gave its answers.
* `Reaches.eq_evaluate` says that an activity has one result where each call has one answer.
-/

namespace PromptPipeline

/-- What happens at one interaction. -/
inductive Event (N : Type) where
  | looked (cancelled : Bool)
  | notified (progress : Progress)
  | answered (call : Call) (answer : call.Answer N)

/-- The error of an answer, if the call failed. -/
def Call.failure? {N : Type} : (c : Call) → c.Answer N → Option PipelineError
  | .listModels _, .error e | .generate _ _ _, .error e | .runScript _ _ _ _, .error e
  | .applyFunction _ _ _ _, .error e | .askUser _ _, .error e => some e
  | _, _ => none

/-- Adapters keep their promises in an answer that is no internal error. -/
def Call.Kept {N : Type} (c : Call) (answer : c.Answer N) : Prop :=
  ∀ fault, c.failure? answer ≠ some (.unexpected fault)

/-- Whether the event is no internal error of an adapter. -/
def Event.Kept {N : Type} : Event N → Prop
  | .answered c answer => c.Kept answer
  | _ => True

namespace Activity

variable {N α β : Type}

/-- After the events of the history, `rest` remains of the activity. -/
inductive Reaches : Activity N α → List (Event N) → Activity N α → Prop
  | refl (a : Activity N α) : Reaches a [] a
  | looked {next : Bool → Activity N α} {b : Bool} {history : List (Event N)}
      {rest : Activity N α} (h : Reaches (next b) history rest) :
      Reaches (.isCancelled next) (.looked b :: history) rest
  | notified {p : Progress} {next : Activity N α} {history : List (Event N)}
      {rest : Activity N α} (h : Reaches next history rest) :
      Reaches (.notify p next) (.notified p :: history) rest
  | answered {c : Call} {next : c.Answer N → Activity N α} {answer : c.Answer N}
      {history : List (Event N)} {rest : Activity N α} (h : Reaches (next answer) history rest) :
      Reaches (.ask c next) (.answered c answer :: history) rest

theorem Reaches.trans {a b c : Activity N α} {h₁ h₂ : List (Event N)} (hab : a.Reaches h₁ b)
    (hbc : b.Reaches h₂ c) : a.Reaches (h₁ ++ h₂) c := by
  induction hab with
  | refl => exact hbc
  | looked _ ih => exact .looked (ih hbc)
  | notified _ ih => exact .notified (ih hbc)
  | answered _ ih => exact .answered (ih hbc)

theorem reaches_done_iff {x : α} {history : List (Event N)} {rest : Activity N α} :
    (done x).Reaches history rest ↔ history = [] ∧ rest = done x := by
  constructor
  · intro h
    cases h
    exact ⟨rfl, rfl⟩
  · rintro ⟨rfl, rfl⟩
    exact .refl _

/-- A complete history of one activity after another ends with a complete history of the second. -/
theorem reaches_bind_iff {a : Activity N α} {f : α → Activity N β} {history : List (Event N)}
    {r : β} :
    (a.bind f).Reaches history (done r) ↔
      ∃ h₁ h₂ x, history = h₁ ++ h₂ ∧ a.Reaches h₁ (done x) ∧ (f x).Reaches h₂ (done r) := by
  constructor
  · intro h
    induction a generalizing history with
    | done x => exact ⟨[], history, x, rfl, .refl _, h⟩
    | isCancelled next ih =>
      cases h with
      | looked h =>
        obtain ⟨h₁, h₂, x, rfl, ha, hf⟩ := ih _ h
        exact ⟨_ :: h₁, h₂, x, rfl, .looked ha, hf⟩
    | notify p next ih =>
      cases h with
      | notified h =>
        obtain ⟨h₁, h₂, x, rfl, ha, hf⟩ := ih h
        exact ⟨_ :: h₁, h₂, x, rfl, .notified ha, hf⟩
    | ask c next ih =>
      cases h with
      | answered h =>
        obtain ⟨h₁, h₂, x, rfl, ha, hf⟩ := ih _ h
        exact ⟨_ :: h₁, h₂, x, rfl, .answered ha, hf⟩
  · rintro ⟨h₁, h₂, x, rfl, ha, hf⟩
    generalize hend : done x = rest at ha
    induction ha with
    | refl a =>
      subst hend
      exact hf
    | looked _ ih => exact .looked (ih hend)
    | notified _ ih => exact .notified (ih hend)
    | answered _ ih => exact .answered (ih hend)

theorem reaches_notifyAll_iff {ps : List Progress} {rest : Activity N α} {history : List (Event N)}
    {r : α} :
    (notifyAll ps rest).Reaches history (done r) ↔
      ∃ h, history = ps.map .notified ++ h ∧ rest.Reaches h (done r) := by
  induction ps generalizing history with
  | nil => simp [notifyAll]
  | cons p ps ih =>
    constructor
    · intro h
      cases h with
      | notified h =>
        obtain ⟨h', rfl, hrest⟩ := ih.mp h
        exact ⟨h', rfl, hrest⟩
    · rintro ⟨h', rfl, hrest⟩
      exact .notified (ih.mpr ⟨h', rfl, hrest⟩)

/-! ## Results -/

/-- The result satisfies `Q` whenever every event of the history satisfies `E`. -/
def Ensures (E : Event N → Prop) (Q : α → Prop) (a : Activity N α) : Prop :=
  ∀ ⦃history r⦄, a.Reaches history (done r) → (∀ e ∈ history, E e) → Q r

theorem ensures_true {E : Event N → Prop} (a : Activity N α) : a.Ensures E fun _ => True :=
  fun _ _ _ _ => trivial

theorem Ensures.imp {E : Event N → Prop} {Q Q' : α → Prop} {a : Activity N α} (ha : a.Ensures E Q)
    (h : ∀ x, Q x → Q' x) : a.Ensures E Q' :=
  fun _ r hr hE => h r (ha hr hE)

theorem ensures_done {E : Event N → Prop} {Q : α → Prop} {x : α} (h : Q x) :
    (done x).Ensures E Q := by
  intro history r hr _
  obtain ⟨-, heq⟩ := reaches_done_iff.mp hr
  cases heq
  exact h

theorem ensures_call {E : Event N → Prop} {c : Call} {Q : c.Answer N → Prop}
    (h : ∀ answer, E (.answered c answer) → Q answer) : (call c).Ensures E Q := by
  intro history r hr hE
  cases hr with
  | answered hr =>
    obtain ⟨-, heq⟩ := reaches_done_iff.mp hr
    cases heq
    exact h _ (List.forall_mem_cons.mp hE).1

/-- The rule for one activity after another: the second starts from what the first ensures. -/
theorem Ensures.bind {E : Event N → Prop} {Q₁ : α → Prop} {Q : β → Prop} {a : Activity N α}
    {f : α → Activity N β} (ha : a.Ensures E Q₁) (hf : ∀ x, Q₁ x → (f x).Ensures E Q) :
    (a >>= f).Ensures E Q := by
  intro history r hr hE
  obtain ⟨h₁, h₂, x, rfl, hx, hr⟩ := reaches_bind_iff.mp hr
  obtain ⟨hE₁, hE₂⟩ := List.forall_mem_append.mp hE
  exact hf x (ha hx hE₁) hr hE₂

/-! ## Events -/

/-- Whatever happens, each event of the activity satisfies `P`. -/
def Confined (P : Event N → Prop) : Activity N α → Prop
  | done _ => True
  | isCancelled next => ∀ b, P (.looked b) ∧ Confined P (next b)
  | notify p next => P (.notified p) ∧ Confined P next
  | ask c next => ∀ answer, P (.answered c answer) ∧ Confined P (next answer)

theorem Confined.bind {P : Event N → Prop} {a : Activity N α} {f : α → Activity N β}
    (ha : a.Confined P) (hf : ∀ x, (f x).Confined P) : (a >>= f).Confined P := by
  induction a with
  | done x => exact hf x
  | isCancelled next ih => exact fun b => ⟨(ha b).1, ih b (ha b).2⟩
  | notify p next ih => exact ⟨ha.1, ih ha.2⟩
  | ask c next ih => exact fun answer => ⟨(ha answer).1, ih answer (ha answer).2⟩

theorem Confined.of_reaches {P : Event N → Prop} {a rest : Activity N α}
    {history : List (Event N)} (ha : a.Confined P) (h : a.Reaches history rest) :
    ∀ e ∈ history, P e := by
  induction h with
  | refl => exact List.forall_mem_nil P
  | looked _ ih => exact List.forall_mem_cons.mpr ⟨(ha _).1, ih (ha _).2⟩
  | notified _ ih => exact List.forall_mem_cons.mpr ⟨ha.1, ih ha.2⟩
  | answered _ ih => exact List.forall_mem_cons.mpr ⟨(ha _).1, ih (ha _).2⟩

end Activity

/-! ## Runs in an environment -/

/-- Whether the environment, in one of its states, makes the event happen. -/
def Environment.Gives {σ N : Type} (env : Environment (StateM σ) N) : Event N → Prop
  | .looked b => ∃ s, (env.isCancelled.run s).1 = b
  | .notified _ => True
  | .answered c answer => ∃ s, ((env.answer c).run s).1 = answer

/-- **A run in an environment has a history**, and the environment gave its answers. -/
theorem Activity.exists_reaches_run {σ N α : Type} (env : Environment (StateM σ) N)
    (a : Activity N α) (s : σ) :
    ∃ history, a.Reaches history (.done ((a.run env).run s).1) ∧ ∀ e ∈ history, env.Gives e := by
  induction a generalizing s with
  | done x => exact ⟨[], .refl _, fun _ h => nomatch h⟩
  | isCancelled next ih =>
    obtain ⟨history, hreaches, hgives⟩ := ih (env.isCancelled.run s).1 (env.isCancelled.run s).2
    exact ⟨_ :: history, .looked hreaches, List.forall_mem_cons.mpr ⟨⟨s, rfl⟩, hgives⟩⟩
  | notify p next ih =>
    obtain ⟨history, hreaches, hgives⟩ := ih ((env.notify p).run s).2
    exact ⟨_ :: history, .notified hreaches, List.forall_mem_cons.mpr ⟨trivial, hgives⟩⟩
  | ask c next ih =>
    obtain ⟨history, hreaches, hgives⟩ := ih ((env.answer c).run s).1 ((env.answer c).run s).2
    exact ⟨_ :: history, .answered hreaches, List.forall_mem_cons.mpr ⟨⟨s, rfl⟩, hgives⟩⟩

/-! ## One answer for each call -/

variable {N : Type}

/-- The environment that answers each call by itself and is never told to stop. -/
def Environment.ofAnswers {m : Type → Type} [Monad m] (answers : (c : Call) → c.Answer N) :
    Environment m N :=
  { answer := fun c => pure (answers c), isCancelled := pure false, notify := fun _ => pure () }

/-- Whether the event happens where each call has the one answer and nothing is cancelled. -/
def Event.Obeys (answers : (c : Call) → c.Answer N) : Event N → Prop
  | .looked cancelled => cancelled = false
  | .notified _ => True
  | .answered c answer => answer = answers c

theorem Event.Obeys.kept {answers : (c : Call) → c.Answer N} (h : ∀ c : Call, c.Kept (answers c))
    {e : Event N} (he : e.Obeys answers) : e.Kept := by
  cases e with
  | looked => trivial
  | notified => trivial
  | answered c answer =>
    rw [show answer = answers c from he]
    exact h c

/-- Where nothing is cancelled, the signal is not seen set. -/
theorem looked_true_notMem {answers : (c : Call) → c.Answer N} {history : List (Event N)}
    (h : ∀ e ∈ history, e.Obeys answers) : .looked true ∉ history := by
  intro hmem
  have htrue : true = false := h _ hmem
  cases htrue

namespace Activity

variable {α : Type}

/-- The result of the activity where each call has the one answer. -/
def evaluate (answers : (c : Call) → c.Answer N) (a : Activity N α) : α :=
  Id.run (a.run (Environment.ofAnswers answers))

theorem evaluate_bind {β : Type} (answers : (c : Call) → c.Answer N) (a : Activity N α)
    (f : α → Activity N β) :
    (a >>= f).evaluate answers = (f (a.evaluate answers)).evaluate answers := by
  induction a with
  | done x => rfl
  | isCancelled next ih => exact ih false
  | notify p next ih => exact ih
  | ask c next ih => exact ih (answers c)

/-- Where each call has one answer, an activity has one result. -/
theorem Reaches.eq_evaluate {answers : (c : Call) → c.Answer N} {a : Activity N α}
    {history : List (Event N)} {r : α} (h : a.Reaches history (done r))
    (hE : ∀ e ∈ history, e.Obeys answers) : r = a.evaluate answers := by
  generalize hend : done r = rest at h
  induction h with
  | refl =>
    subst hend
    rfl
  | looked _ ih =>
    obtain ⟨rfl, hrest⟩ := List.forall_mem_cons.mp hE
    exact ih hrest hend
  | notified _ ih => exact ih (List.forall_mem_cons.mp hE).2 hend
  | answered _ ih =>
    obtain ⟨rfl, hrest⟩ := List.forall_mem_cons.mp hE
    exact ih hrest hend

theorem exists_reaches_evaluate (answers : (c : Call) → c.Answer N) (a : Activity N α) :
    ∃ history, a.Reaches history (done (a.evaluate answers)) ∧
      ∀ e ∈ history, e.Obeys answers := by
  induction a with
  | done r => exact ⟨[], .refl _, fun _ h => nomatch h⟩
  | isCancelled next ih =>
    obtain ⟨history, hreaches, hE⟩ := ih false
    exact ⟨_ :: history, .looked hreaches, List.forall_mem_cons.mpr ⟨rfl, hE⟩⟩
  | notify p next ih =>
    obtain ⟨history, hreaches, hE⟩ := ih
    exact ⟨_ :: history, .notified hreaches, List.forall_mem_cons.mpr ⟨trivial, hE⟩⟩
  | ask c next ih =>
    obtain ⟨history, hreaches, hE⟩ := ih (answers c)
    exact ⟨_ :: history, .answered hreaches, List.forall_mem_cons.mpr ⟨rfl, hE⟩⟩

end Activity

end PromptPipeline
