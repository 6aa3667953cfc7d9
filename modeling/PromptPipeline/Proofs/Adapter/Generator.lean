import PromptPipeline.Adapter.Generator
import PromptPipeline.Proofs.Cache.Store
import PromptPipeline.Proofs.Execution.Turns

/-!
# A sheet of answers behind a cache

A sheet of prepared answers gives a new answer at each turn. Behind a cache it does so as long as
its answers are errors: the first reply comes into the cache, and then every further turn gives this
reply again. So the cache changes what attempts come to just where a reply is followed by another
attempt (`attemptsInTurn_cached_iff`).
-/

namespace PromptPipeline

/-! ## What a sheet answers -/

/-- The cache gives the reply back, whenever it is made. -/
structure PreparedReply.Storable (r : PreparedReply) : Prop where
  usage : r.usage.Survives
  rawResponse : r.rawResponse.ReadableAt (Json.maxDepth - 2)

theorem PreparedReply.Storable.at {r : PreparedReply} (h : r.Storable) {timing : Timing}
    (ht : timing.IsProper) : (r.at timing).Storable :=
  ⟨ht, h.usage, h.rawResponse⟩

theorem Session.timing_isProper {session : Session} (h : session.now.IsProper) :
    session.timing.IsProper :=
  ⟨h, h⟩

theorem takeFirst?_subset {α : Type} {p : α → Bool} {l rest : List α} {a : α}
    (h : takeFirst? p l = some (a, rest)) : a ∈ l ∧ ∀ b ∈ rest, b ∈ l := by
  induction l generalizing rest with
  | nil => cases h
  | cons c l ih =>
    unfold takeFirst? at h
    split at h
    next =>
      cases h
      exact ⟨List.mem_cons_self, fun b hb => List.mem_cons_of_mem _ hb⟩
    next =>
      obtain ⟨⟨b, rest'⟩, hrest, heq⟩ := Option.map_eq_some_iff.mp h
      cases heq
      obtain ⟨ha, hsub⟩ := ih hrest
      exact ⟨List.mem_cons_of_mem _ ha, List.forall_mem_cons.mpr
        ⟨List.mem_cons_self, fun b hb => List.mem_cons_of_mem _ (hsub b hb)⟩⟩

namespace AnswerSheet

variable {sheet : AnswerSheet}

/-- The cache gives back every reply that is on the sheet, and those that are made up when it has
none. -/
structure Storable (sheet : AnswerSheet) : Prop where
  answers : ∀ prepared ∈ sheet.answers, ∀ r, prepared.answer = .ok r → r.Storable
  usage : sheet.usage.Survives

theorem Storable.take (h : sheet.Storable) (p : Prompt) :
    (∀ r, (sheet.take p).1 = .ok r → r.Storable) ∧ (sheet.take p).2.Storable := by
  unfold AnswerSheet.take
  split
  next prepared answers htake =>
    obtain ⟨hprepared, hanswers⟩ := takeFirst?_subset htake
    exact ⟨h.answers prepared hprepared, fun a ha => h.answers a (hanswers a ha), h.usage⟩
  next =>
    refine ⟨fun r hr => ?_, h⟩
    cases hr
    exact ⟨h.usage, trivial⟩

theorem Storable.consult (h : sheet.Storable) (operation : ModelVariant) (p : Prompt) :
    (∀ r, (sheet.consult operation p).1 = .ok r → r.Storable) ∧
      (sheet.consult operation p).2.Storable := by
  unfold AnswerSheet.consult
  split
  next => exact ⟨fun r hr => (nomatch hr), h⟩
  next => exact h.take p

end AnswerSheet

/-! ## Turns -/

namespace TextGenerator

variable {sheet : AnswerSheet} {cache : FileCache} {inner inner' : TextGenerator}
  {session session' : Session} {operation : ModelVariant} {p : Prompt}
  {answer : Result (Reply Binary64)}

/-- Asks the generator in its session. -/
def ask (operation : ModelVariant) (p : Prompt) :
    StateM (TextGenerator × Session) (Result (Reply Binary64)) :=
  fun (g, session) =>
    let ((answer, g), session) := (generate operation p g).run session
    (answer, g, session)

theorem ask_of_generate (h : (generate operation p inner).run session =
    ((answer, inner'), session')) :
    (ask operation p).run (inner, session) = (answer, inner', session') := by
  show (((generate operation p inner).run session).1.1,
    ((generate operation p inner).run session).1.2,
    ((generate operation p inner).run session).2) = _
  rw [h]

/-- A turn of a sheet: its replies can be stored, it touches no files, and it takes no time. -/
theorem exists_generate_prepared (hsheet : sheet.Storable) (hnow : session.now.IsProper)
    (operation : ModelVariant) (p : Prompt) :
    ∃ answer sheet' session', (generate operation p (.prepared sheet)).run session =
        ((answer, .prepared sheet'), session') ∧
      (∀ r, answer = .ok r → r.Storable) ∧ sheet'.Storable ∧
      session'.files = session.files ∧ session'.now = session.now := by
  let consulted : AnswerSheet := { sheet with calls := sheet.calls + 1 }
  let recorded : Session := { session with
    calls := session.calls ++ [{ generator := sheet.title, operation, prompt := p }] }
  have hconsulted : consulted.Storable := ⟨hsheet.answers, hsheet.usage⟩
  obtain ⟨hanswer, hleft⟩ := hconsulted.consult operation p
  have hstorable (turned : Session) (hturned : turned.now = session.now) (r : Reply Binary64)
      (hr : (consulted.consult operation p).1.map (·.at turned.timing) = .ok r) : r.Storable := by
    cases hprepared : (consulted.consult operation p).1 with
    | error e =>
      rw [hprepared] at hr
      cases hr
    | ok prepared =>
      rw [hprepared] at hr
      cases hr
      exact (hanswer prepared hprepared).at (Session.timing_isProper (hturned ▸ hnow))
  by_cases hcancel : sheet.cancelOnCall = some (sheet.calls + 1)
  · let cancelled : Session := { recorded with isCancelled := true }
    have hturn : (generate operation p (.prepared sheet)).run session =
        (pure (((consulted.consult operation p).1.map (·.at cancelled.timing),
          .prepared (consulted.consult operation p).2), cancelled) : Id _) := by
      simp [generate, hcancel, Session.record, Session.cancel, consulted, recorded, cancelled]
    exact ⟨_, _, _, hturn, hstorable cancelled rfl, hleft, rfl, rfl⟩
  · have hturn : (generate operation p (.prepared sheet)).run session =
        (pure (((consulted.consult operation p).1.map (·.at recorded.timing),
          .prepared (consulted.consult operation p).2), recorded) : Id _) := by
      simp [generate, hcancel, Session.record, consulted, recorded]
    exact ⟨_, _, _, hturn, hstorable recorded rfl, hleft, rfl, rfl⟩

/-- What is in the cache is answered, and nothing changes. -/
theorem ask_of_hit (inner : TextGenerator) (session : Session) {entry : CacheEntry}
    (h : cache.get session.files (CacheKey.ofCall operation p) = .ok (some entry)) :
    (ask operation p).run (.cached inner cache, session) =
      (.ok entry.reply, .cached inner cache, session) := by
  have hturn : (generate operation p (.cached inner cache)).run session =
      (pure ((.ok entry.reply, .cached inner cache), session) : Id _) := by
    simp [generate, h]
  exact ask_of_generate hturn

/-- What is not in the cache is answered by the generator behind it, and an error is not kept. -/
theorem ask_of_miss_of_error {e : PipelineError}
    (h : cache.get session.files (CacheKey.ofCall operation p) = .ok none)
    (hinner : (generate operation p inner).run session = ((.error e, inner'), session')) :
    (ask operation p).run (.cached inner cache, session) =
      (.error e, .cached inner' cache, session') := by
  have hpure : (generate operation p inner).run session =
      (pure ((.error e, inner'), session') : Id _) := hinner
  have hturn : (generate operation p (.cached inner cache)).run session =
      (pure ((.error e, .cached inner' cache), session') : Id _) := by
    simp [generate, h, hpure]
  exact ask_of_generate hturn

/-- A reply of the generator behind the cache is kept. -/
theorem ask_of_miss_of_reply {reply : Reply Binary64} {files : FileTree}
    (h : cache.get session.files (CacheKey.ofCall operation p) = .ok none)
    (hinner : (generate operation p inner).run session = ((.ok reply, inner'), session'))
    (hstore : cache.store session'.files { timestamp := session'.now
                                           key := CacheKey.ofCall operation p
                                           promptTitle := p.title, reply } = .ok files) :
    (ask operation p).run (.cached inner cache, session) =
      (.ok reply, .cached inner' cache, { session' with files }) := by
  have hpure : (generate operation p inner).run session =
      (pure ((.ok reply, inner'), session') : Id _) := hinner
  have hturn : (generate operation p (.cached inner cache)).run session =
      (pure ((.ok reply, .cached inner' cache), { session' with files }) : Id _) := by
    simp [generate, h, hpure, hstore]
  exact ask_of_generate hturn

/-! ## Attempts -/

variable {verdict : Result (Reply Binary64) → Result String}

/-- Where every turn is the same, attempts that go on never succeed. -/
theorem attemptsInTurn_of_fixed {σ : Type} {turn : StateM σ (Result (Reply Binary64))} {s : σ}
    {e : PipelineError} (hturn : (turn.run s).2 = s) (herror : verdict (turn.run s).1 = .error e)
    (remaining : Nat) : (attemptsInTurn verdict turn remaining s).2 = none := by
  induction remaining with
  | zero => rfl
  | succ remaining ih =>
    unfold attemptsInTurn
    rw [herror, hturn]
    dsimp only
    split
    · exact ih
    · rfl

/-- There is one answer for each attempt, and one attempt at least. -/
theorem attemptsInTurn_ne_nil {σ : Type} {turn : StateM σ (Result (Reply Binary64))} {s : σ}
    {remaining : Nat} (h : 0 < remaining) : (attemptsInTurn verdict turn remaining s).1 ≠ [] := by
  obtain ⟨remaining, rfl⟩ := Nat.exists_eq_add_of_lt h
  unfold attemptsInTurn
  split
  · exact List.cons_ne_nil _ _
  · split <;> exact List.cons_ne_nil _ _

/-- **Behind a cache, attempts come to a value if and only if they do so without a cache and no
reply is followed by another attempt.** -/
theorem attemptsInTurn_cached_iff (herror : ∀ e, verdict (.error e) = .error e)
    (hnormal : ∀ r, verdict (.ok r.normal) = verdict (.ok r)) (hsheet : sheet.Storable)
    (hcache : cache.IsEmpty session.files) (hnow : session.now.IsProper) (remaining : Nat)
    (value : String) :
    (attemptsInTurn verdict (ask operation p) remaining
        (.cached (.prepared sheet) cache, session)).2 = some value ↔
      (attemptsInTurn verdict (ask operation p) remaining (.prepared sheet, session)).2 =
          some value ∧
        ∀ answer ∈ (attemptsInTurn verdict (ask operation p) remaining
          (.prepared sheet, session)).1.dropLast, answer.toOption = none := by
  induction remaining generalizing sheet session with
  | zero => simp [attemptsInTurn]
  | succ remaining ih =>
    obtain ⟨answer, sheet', session', hinner, hstorable, hsheet', hfiles, hnow'⟩ :=
      exists_generate_prepared hsheet hnow operation p
    have hbare : (ask operation p).run (.prepared sheet, session) =
        (answer, .prepared sheet', session') := ask_of_generate hinner
    have hkey : IsCacheKey (CacheKey.ofCall operation p) := Blake3.hexDigest_isCacheKey _
    have hvacant := hcache.get hkey
    rw [← hnow'] at hnow
    rw [← hfiles] at hcache
    have hmore : ∀ {e : PipelineError}, e.isRetryable = true ∧ 0 < remaining →
        (attemptsInTurn verdict (ask operation p) remaining (.prepared sheet', session')).1 ≠ [] :=
      fun hretry => attemptsInTurn_ne_nil hretry.2
    cases answer with
    | error e =>
      -- Nothing comes into the cache, so the next turn is like this one.
      unfold attemptsInTurn
      rw [ask_of_miss_of_error hvacant hinner, hbare]
      dsimp only
      rw [herror]
      dsimp only
      split
      next hretry =>
        rw [ih hsheet' hcache hnow, List.dropLast_cons_of_ne_nil (hmore hretry),
          List.forall_mem_cons]
        exact and_congr_right fun _ => (and_iff_right rfl).symm
      next => simp
    | ok reply =>
      obtain ⟨files, hstore, hget⟩ :=
        FileCache.exists_kept hcache.isOpen hkey hnow p.title (hstorable reply rfl)
      unfold attemptsInTurn
      rw [ask_of_miss_of_reply hvacant hinner hstore, hbare]
      dsimp only
      cases hverdict : verdict (.ok reply) with
      | ok value' => simp
      | error e =>
        dsimp only
        split
        next hretry =>
          -- From now on every turn gives this reply, which did not do.
          have hhit := ask_of_hit (.prepared sheet') { session' with files } hget
          have hsame : ((ask operation p).run
              (.cached (.prepared sheet') cache, { session' with files })).2 =
                (.cached (.prepared sheet') cache, { session' with files }) := by
            rw [hhit]
          have hagain : verdict ((ask operation p).run
              (.cached (.prepared sheet') cache, { session' with files })).1 = .error e := by
            rw [hhit, hnormal, hverdict]
          rw [attemptsInTurn_of_fixed hsame hagain, List.dropLast_cons_of_ne_nil (hmore hretry),
            List.forall_mem_cons]
          simp [Except.toOption]
        next => simp

end TextGenerator

end PromptPipeline
