import PromptPipeline.Proofs.Adapter.Cached

/-!
# Filler text behind a cache

The generator of filler text shapes what it answers to the expectations of the prompt. The key of a
call says nothing about expectations (`CacheKey.ofCall_congr`), so behind a cache a prompt shares
the text of the first prompt with its key that was served. What is answered is therefore decided by
the calls so far (`Filler.shared`), and it meets the expectations of the prompt that it was written
for (`filler_behind_cache`); those of the prompt that it answers may be others.
-/

namespace PromptPipeline

namespace Filler

variable {limit : Nat} {operation : ModelVariant} {p : Prompt} {key : String}
  {past : List (ModelVariant × Prompt)}

/-- The text for a call. -/
def answer (limit : Nat) (operation : ModelVariant) (p : Prompt) : Result String := do
  p.checkOperation operation
  text limit p

/-- The endless text begins with this letter. -/
theorem start_one : start 1 = "L" := by
  have hfirst : "Lorem ipsum dolor sit amet, consectetur adipiscing elit. ".toList.head? =
      some 'L' := by
    simp
  have hlorem : lorem.toList.head? = some 'L' := by
    unfold lorem
    simp only [String.toList_append, List.head?_append, hfirst, Option.some_or]
  have hchar : charAt 0 = 'L' := by
    unfold charAt source
    rw [Nat.zero_mod, Array.getD_eq_getD_getElem?, List.getElem?_toArray, ← List.head?_eq_getElem?,
      hlorem]
    rfl
  show String.ofList [charAt 0] = _
  rw [hchar]

/-- Where nothing is expected, the text is the first letter. -/
theorem answer_of_nil (hvariant : p.requirements.variant = operation) (hnone : p.expectations = [])
    (hlimit : 1 < limit) : answer limit operation p = .ok "L" := by
  have hshortest : shortest? [] limit = some "L" := by
    refine shortest?_eq_some_iff.mpr ⟨1, hlimit, start_one, by decide, fun k hk => ?_⟩
    obtain rfl := Nat.lt_one_iff.mp hk
    decide
  unfold answer text Prompt.checkOperation
  rw [if_pos hvariant, hnone, hshortest]
  rfl

/-- The text meets the expectations of the prompt for which it was written. -/
theorem allHold_of_answer {content : String} (h : answer limit operation p = .ok content) :
    Expectation.allHold p.expectations content = true := by
  obtain ⟨-, -, htext⟩ := bind_eq_ok_iff.mp h
  unfold text at htext
  split at htext
  next found hfound =>
    cases htext
    obtain ⟨_, -, -, hfits, -⟩ := shortest?_eq_some_iff.mp hfound
    exact (Bool.and_eq_true_iff.mp hfits).2
  next => cases htext

/-- The text for the first of some calls that has the key and is served. -/
def firstText? (limit : Nat) (key : String) (calls : List (ModelVariant × Prompt)) :
    Option String :=
  calls.findSome? fun (operation, p) =>
    if CacheKey.ofCall operation p = key then (answer limit operation p).toOption else none

/-- A call adds to what comes before it, and only for its own key. -/
theorem firstText?_concat : firstText? limit key (past ++ [(operation, p)]) =
    (firstText? limit key past).or
      (if CacheKey.ofCall operation p = key then (answer limit operation p).toOption
        else none) := by
  unfold firstText?
  rw [List.findSome?_append, List.findSome?_singleton]

/-- The text was written for one of the calls, which has the key. -/
theorem exists_of_firstText? {content : String} (h : firstText? limit key past = some content) :
    ∃ call ∈ past, CacheKey.ofCall call.1 call.2 = key ∧
      answer limit call.1 call.2 = .ok content := by
  obtain ⟨call, hcall, hfound⟩ := List.exists_of_findSome?_eq_some h
  dsimp only at hfound
  split at hfound
  next hkey =>
    refine ⟨call, hcall, hkey, ?_⟩
    cases hanswer : answer limit call.1 call.2 with
    | error e =>
      rw [hanswer] at hfound
      cases hfound
    | ok text =>
      rw [hanswer] at hfound
      cases hfound
      rfl
  next => cases hfound

/-- What is answered behind a cache: the text that was written for an earlier call with the key, and
only if there is none the text for this call. -/
def shared (limit : Nat) (past : List (ModelVariant × Prompt)) (operation : ModelVariant)
    (p : Prompt) : Result String :=
  match firstText? limit (CacheKey.ofCall operation p) past with
  | some text => .ok text
  | none => answer limit operation p

/-- What is answered was written for a call with the same key, earlier or now. -/
theorem exists_of_shared {content : String} (h : shared limit past operation p = .ok content) :
    ∃ call ∈ past ++ [(operation, p)],
      CacheKey.ofCall call.1 call.2 = CacheKey.ofCall operation p ∧
        answer limit call.1 call.2 = .ok content := by
  unfold shared at h
  split at h
  next text hfirst =>
    cases h
    obtain ⟨call, hcall, hsame, hanswer⟩ := exists_of_firstText? hfirst
    exact ⟨call, List.mem_append_left _ hcall, hsame, hanswer⟩
  next => exact ⟨(operation, p), List.mem_append_right _ List.mem_cons_self, rfl, h⟩

end Filler

namespace TextGenerator

variable {limit : Nat} {c : FileCache} {operation : ModelVariant} {p : Prompt} {session : Session}
  {past calls : List (ModelVariant × Prompt)}

/-- A reply of filler text. -/
def fillerReply (session : Session) (content : String) : Reply Binary64 :=
  freeReply content fillerModel "This is mocked fake text" session.timing

theorem generate_filler (limit : Nat) (operation : ModelVariant) (p : Prompt) (session : Session) :
    (generate operation p (.filler limit)).run session =
    (((Filler.answer limit operation p).map (fillerReply session), .filler limit), session) := by
  unfold Filler.answer
  cases hoperation : p.checkOperation operation with
  | error e => simp [generate, hoperation]; rfl
  | ok checked =>
    cases htext : Filler.text limit p <;> simp [generate, hoperation, htext] <;> rfl

/-- A reply of filler text survives its text. -/
theorem fillerReply_lasting (hnow : session.now.IsProper) (content promptTitle : String) :
    CacheEntry.Lasting
      { timestamp := session.now, key := CacheKey.ofCall operation p, promptTitle,
        reply := fillerReply session content } :=
  ⟨Blake3.hexDigest_isCacheKey _, hnow,
    ⟨Session.timing_isProper hnow, Usage.zero_survives, ⟨trivial, trivial⟩⟩, rfl⟩

/-- Every reply of filler text meets the expectations of the prompt that it answers. -/
theorem allHold_of_filler {t : Turn TextGenerator}
    (ht : t ∈ Answerer.turns ask calls (.filler limit, session)) {reply : Reply Binary64}
    (hreply : t.answer = .ok reply) :
    Expectation.allHold t.prompt.expectations reply.content = true := by
  induction calls generalizing session with
  | nil => cases ht
  | cons call rest ih =>
    obtain ⟨operation, p⟩ := call
    have hask := ask_of_generate (generate_filler limit operation p session)
    rw [Answerer.turns_cons, Answerer.turn_eq hask] at ht
    rcases List.mem_cons.mp ht with rfl | ht
    · cases hanswer : Filler.answer limit operation p with
      | error e =>
        rw [hanswer] at hreply
        cases hreply
      | ok text =>
        rw [hanswer] at hreply
        cases hreply
        exact Filler.allHold_of_answer hanswer
    · exact ih ht

/-! ## Behind a cache -/

/-- The files hold, for every key, an entry with the text for the first call that has the key and
was served. -/
def Remembers (limit : Nat) (c : FileCache) (past : List (ModelVariant × Prompt))
    (files : FileTree) : Prop :=
  ∃ m, c.Holds files m ∧
    ∀ key, (m.get? key).map (·.reply.content) = Filler.firstText? limit key past

theorem remembers_nil (limit : Nat) (h : c.IsEmpty session.files) :
    Remembers limit c [] session.files :=
  ⟨.empty, h.holds, fun _ => rfl⟩

/-- **One call** is answered by the text that calls with its key share, and then the files remember
this call too. -/
theorem Remembers.ask (h : Remembers limit c past session.files) (hnow : session.now.IsProper)
    (operation : ModelVariant) (p : Prompt) :
    ∃ answer session', (TextGenerator.ask operation p).run (.cached (.filler limit) c, session) =
        (answer, .cached (.filler limit) c, session') ∧
      answer.map (·.content) = Filler.shared limit past operation p ∧
      Remembers limit c (past ++ [(operation, p)]) session'.files ∧
      session'.now = session.now := by
  obtain ⟨m, hholds, htexts⟩ := h
  have hkey : IsCacheKey (CacheKey.ofCall operation p) := Blake3.hexDigest_isCacheKey _
  have hget := hholds.get hkey
  have hthis := htexts (CacheKey.ofCall operation p)
  unfold Filler.shared Remembers
  simp only [Filler.firstText?_concat]
  rw [← hthis]
  cases hentry : m.get? (CacheKey.ofCall operation p) with
  | some entry =>
    -- The text of an earlier call is recalled.
    rw [hentry] at hget hthis
    refine ⟨_, session, ask_of_hit _ _ hget, rfl, ⟨m, hholds, fun key => ?_⟩, rfl⟩
    rw [htexts]
    split
    next hsame =>
      rw [← hsame, ← hthis]
      rfl
    next => exact Option.or_none.symm
  | none =>
    rw [hentry] at hget hthis
    have hinner := generate_filler limit operation p session
    cases hanswer : Filler.answer limit operation p with
    | error e =>
      rw [hanswer] at hinner
      refine ⟨_, session, ask_of_miss_of_error hget hinner, rfl, ⟨m, hholds, fun key => ?_⟩, rfl⟩
      rw [htexts]
      split <;> exact Option.or_none.symm
    | ok text =>
      -- No earlier call with this key was served, so its own text is the first one.
      rw [hanswer] at hinner
      obtain ⟨files', hstore, hholds'⟩ := hholds.store (fillerReply_lasting hnow text p.title)
      refine ⟨_, _, ask_of_miss_of_reply hget hinner hstore, rfl, ⟨_, hholds', fun key => ?_⟩, rfl⟩
      rw [Bindings.get?_insert]
      dsimp only
      by_cases hsame : CacheKey.ofCall operation p = key
      · rw [if_pos hsame, if_pos hsame.symm, ← hsame, ← hthis]
        rfl
      · rw [if_neg hsame, if_neg (Ne.symm hsame), htexts, Option.or_none]

/-- **A run of calls**: each is answered by the text that it shares with the calls before it. -/
theorem Remembers.answer_eq (h : Remembers limit c past session.files)
    (hnow : session.now.IsProper) {before after : List (Turn TextGenerator)}
    {t : Turn TextGenerator}
    (hturns : Answerer.turns TextGenerator.ask calls (.cached (.filler limit) c, session) =
      before ++ t :: after) :
    t.answer.map (·.content) =
      Filler.shared limit (past ++ before.map Turn.call) t.operation t.prompt := by
  induction calls generalizing past session before with
  | nil => simp [Answerer.turns] at hturns
  | cons call rest ih =>
    obtain ⟨operation, p⟩ := call
    obtain ⟨answer, session', hask, hanswer, hnext, hsame⟩ := h.ask hnow operation p
    rw [Answerer.turns_cons, Answerer.turn_eq hask] at hturns
    cases before with
    | nil =>
      obtain ⟨rfl, -⟩ := List.cons.inj hturns
      rw [List.map_nil, List.append_nil]
      exact hanswer
    | cons first before =>
      obtain ⟨rfl, hrest⟩ := List.cons.inj hturns
      rw [← hsame] at hnow
      rw [ih hnext hnow hrest, List.map_cons, List.append_assoc]
      rfl

/-- **Filler text behind a cache.** Without a cache, a reply meets the expectations of the prompt
that it answers. Behind a cache that is empty at first, a call is answered by the text for the first
call with its key that was served, whatever this one expects. So the replies meet the expectations
of their prompts where calls with the same key expect the same. -/
theorem filler_behind_cache (limit : Nat) (c : FileCache) {session : Session}
    (hempty : c.IsEmpty session.files) (hnow : session.now.IsProper)
    (calls : List (ModelVariant × Prompt)) :
    (∀ t ∈ Answerer.turns TextGenerator.ask calls (.filler limit, session),
      ∀ reply, t.answer = .ok reply →
        Expectation.allHold t.prompt.expectations reply.content = true) ∧
    (∀ before t after, Answerer.turns TextGenerator.ask calls
          (.cached (.filler limit) c, session) = before ++ t :: after →
        t.answer.map (·.content) =
          Filler.shared limit (before.map Turn.call) t.operation t.prompt) ∧
    (∀ t ∈ Answerer.turns TextGenerator.ask calls (.cached (.filler limit) c, session),
      (∀ call ∈ calls, CacheKey.ofCall call.1 call.2 = t.key →
        call.2.expectations = t.prompt.expectations) →
      ∀ reply, t.answer = .ok reply →
        Expectation.allHold t.prompt.expectations reply.content = true) := by
  refine ⟨fun t ht reply => allHold_of_filler ht, fun before t after =>
    (remembers_nil limit hempty).answer_eq hnow, fun t ht hsame reply hreply => ?_⟩
  obtain ⟨before, after, hturns⟩ := List.append_of_mem ht
  have hanswer := (remembers_nil limit hempty).answer_eq hnow hturns
  rw [hreply] at hanswer
  obtain ⟨call, hcall, hkey, htext⟩ := Filler.exists_of_shared hanswer.symm
  have hmem : call ∈ calls := by
    have hcalls := Answerer.map_call_turns TextGenerator.ask calls
      (.cached (.filler limit) c, session)
    rw [hturns, List.map_append, List.map_cons, List.append_cons] at hcalls
    rw [← hcalls]
    exact List.mem_append_left _ hcall
  rw [← hsame call hmem hkey]
  exact Filler.allHold_of_answer htext

end TextGenerator

/-- A prompt that asks for a greeting. -/
def Prompt.hello (expectations : List Expectation) : Prompt :=
  { title := "Greet", content := "Say hello", requirements := {}, expectations }

/-- A greeting of two words is asked for after one of any length, and the answer to both is one
letter. -/
theorem TextGenerator.letter_for_two_words : ∃ first again : Turn TextGenerator,
    Answerer.turns ask [(.chat, .hello []), (.chat, .hello [.amount .minimum .words 2])]
        (.cached (.filler 1000) ⟨["cache"]⟩, .fresh) = [first, again] ∧
      again.answer.map (·.content) = .ok "L" ∧
      Expectation.allHold again.prompt.expectations "L" = false := by
  obtain ⟨-, hshared, -⟩ := filler_behind_cache 1000 ⟨["cache"]⟩ Session.fresh_isEmpty
    ⟨by decide, by decide⟩
    [(.chat, .hello []), (.chat, .hello [.amount .minimum .words 2])]
  obtain ⟨first, again, hturns, hfirst, hagain⟩ : ∃ first again,
      Answerer.turns ask [(.chat, .hello []), (.chat, .hello [.amount .minimum .words 2])]
        (.cached (.filler 1000) ⟨["cache"]⟩, .fresh) = [first, again] ∧
      first.call = (.chat, .hello []) ∧
      again.call = (.chat, .hello [.amount .minimum .words 2]) :=
    ⟨_, _, Answerer.turns_pair, rfl, rfl⟩
  obtain ⟨hoperation, hprompt⟩ := Prod.mk.inj hagain
  have hanswer := hshared [first] again [] hturns
  have hkey : CacheKey.ofCall .chat (.hello []) =
      CacheKey.ofCall .chat (.hello [.amount .minimum .words 2]) :=
    CacheKey.ofCall_congr rfl rfl
  have hletter : Filler.answer 1000 .chat (.hello []) = .ok "L" :=
    Filler.answer_of_nil rfl rfl (by decide)
  have htext : Filler.firstText? 1000
      (CacheKey.ofCall .chat (.hello [.amount .minimum .words 2])) [(.chat, .hello [])] =
        some "L" := by
    unfold Filler.firstText?
    rw [List.findSome?_singleton]
    dsimp only
    rw [if_pos hkey, hletter]
    rfl
  refine ⟨first, again, hturns, ?_, ?_⟩
  · rw [hanswer, hoperation, hprompt, List.map_singleton, hfirst, Filler.shared, htext]
  · rw [hprompt]
    decide

end PromptPipeline
