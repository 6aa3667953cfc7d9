import PromptPipeline.Proofs.Cache.Survival
import PromptPipeline.Proofs.Execution.Caching

/-!
# Calls behind a cache

A generator behind a cache is asked for what the cache does not find, and for nothing else. This
holds of any generator, whatever state it keeps (`Answerer`), of any directory, with files in it
that are no entries, and of any way to fail to store an entry; `turns_cached` says that the cached
generators of the library are an instance. A turn is about one call: it is either recalled or passed
on. If entries are stored and survive their text, then a key that was answered once is answered the
same from then on, and the generator behind the cache is not asked again (`calls_behind_cache`). The
invariant of the run is that what the cache finds, it finds later on (`Turn.Kept.recalled?`).
-/

namespace PromptPipeline

variable {γ : Type}

/-! ## Runs of calls -/

/-- Neither the title nor the expectations of a prompt have a part in its key. -/
theorem CacheKey.ofCall_congr {operation : ModelVariant} {p p' : Prompt}
    (hrequirements : p.requirements = p'.requirements) (hcontent : p.content = p'.content) :
    ofCall operation p = ofCall operation p' := by
  unfold ofCall bytes
  rw [hrequirements, hcontent]

/-- What answers calls, with a state of its own beside the session. -/
abbrev Answerer (γ : Type) :=
  ModelVariant → Prompt → StateM (γ × Session) (Result (Reply Binary64))

/-- A call with the answer to it, and the states before and after it. -/
structure Turn (γ : Type) where
  operation : ModelVariant
  prompt : Prompt
  before : γ × Session
  answer : Result (Reply Binary64)
  after : γ × Session

namespace Turn

variable {c : FileCache}

/-- The call of the turn. -/
def call (t : Turn γ) : ModelVariant × Prompt :=
  (t.operation, t.prompt)

/-- The key of the call. -/
def key (t : Turn γ) : String :=
  CacheKey.ofCall t.operation t.prompt

theorem key_isCacheKey (t : Turn γ) : IsCacheKey t.key :=
  Blake3.hexDigest_isCacheKey _

/-- What is stored of a reply to the call. -/
def entry (t : Turn γ) (reply : Reply Binary64) : CacheEntry :=
  { timestamp := t.after.2.now, key := t.key, promptTitle := t.prompt.title, reply }

/-- The turn without a log. -/
def unlogged (t : Turn (γ × List (Asked Binary64))) : Turn γ :=
  { t with before := (t.before.1.1, t.before.2), after := (t.after.1.1, t.after.2) }

/-- The cache has no entry for the call that it can read. -/
def Missed (c : FileCache) (t : Turn γ) : Prop :=
  c.recalled? t.before.2.files t.key = none

end Turn

namespace Answerer

/-- One call. -/
def turn (ask : Answerer γ) (operation : ModelVariant) (prompt : Prompt) (s : γ × Session) :
    Turn γ :=
  { operation, prompt, before := s
    answer := ((ask operation prompt).run s).1
    after := ((ask operation prompt).run s).2 }

/-- The calls one after the other. -/
def turns (ask : Answerer γ) : List (ModelVariant × Prompt) → γ × Session → List (Turn γ)
  | [], _ => []
  | (operation, prompt) :: rest, s =>
    let t := ask.turn operation prompt s
    t :: turns ask rest t.after

/-- The same answers, with a log of the calls. -/
def logged (ask : Answerer γ) : Answerer (γ × List (Asked Binary64)) :=
  fun operation prompt ((g, log), session) =>
    let (answer, g, session) := (ask operation prompt).run (g, session)
    (answer, (g, log ++ [⟨operation, prompt, answer⟩]), session)

/-- The session after the answer to a call, of which a reply is to be stored. What becomes of the
files may be anything, since storing may fail. -/
def storing (keep : FileTree → CacheEntry → FileTree) (operation : ModelVariant) (prompt : Prompt) :
    Result (Reply Binary64) → Session → Session
  | .ok reply, session =>
    { session with
      files := keep session.files
        { timestamp := session.now, key := CacheKey.ofCall operation prompt
          promptTitle := prompt.title, reply } }
  | .error _, session => session

/-- The answers behind a cache. -/
def behind (c : FileCache) (keep : FileTree → CacheEntry → FileTree) (ask : Answerer γ) :
    Answerer γ :=
  fun operation prompt s =>
    match c.recalled? s.2.files (CacheKey.ofCall operation prompt) with
    | some entry => (.ok entry.reply, s)
    | none =>
      let (answer, g, session) := (ask operation prompt).run s
      (answer, g, storing keep operation prompt answer session)

variable {ask : Answerer γ} {c : FileCache} {keep : FileTree → CacheEntry → FileTree}
  {operation : ModelVariant} {prompt : Prompt} {s : γ × Session} {t : Turn γ}
  {calls : List (ModelVariant × Prompt)}

theorem turn_eq {answer : Result (Reply Binary64)} {after : γ × Session}
    (h : (ask operation prompt).run s = (answer, after)) :
    ask.turn operation prompt s = { operation, prompt, before := s, answer, after } := by
  unfold turn
  rw [h]

theorem run_turn : (ask operation prompt).run s =
    ((ask.turn operation prompt s).answer, (ask.turn operation prompt s).after) :=
  rfl

theorem turns_cons {rest : List (ModelVariant × Prompt)} :
    ask.turns ((operation, prompt) :: rest) s = ask.turn operation prompt s ::
      ask.turns rest (ask.turn operation prompt s).after :=
  rfl

theorem turns_pair {call call' : ModelVariant × Prompt} : ask.turns [call, call'] s =
    [ask.turn call.1 call.2 s, ask.turn call'.1 call'.2 (ask.turn call.1 call.2 s).after] :=
  rfl

/-- The turns of a run are about its calls, in order. -/
theorem map_call_turns (ask : Answerer γ) (calls : List (ModelVariant × Prompt))
    (s : γ × Session) : (ask.turns calls s).map Turn.call = calls := by
  induction calls generalizing s with
  | nil => rfl
  | cons call rest ih =>
    rw [turns_cons, List.map_cons, ih]
    rfl

/-- A turn of a run is a turn of the generator. -/
theorem run_of_mem_turns (h : t ∈ ask.turns calls s) :
    (ask t.operation t.prompt).run t.before = (t.answer, t.after) := by
  induction calls generalizing s with
  | nil => cases h
  | cons call rest ih =>
    rw [turns_cons] at h
    rcases List.mem_cons.mp h with rfl | h
    · exact run_turn
    · exact ih h

/-- What the cache recalls is answered, and nothing changes. -/
theorem behind_of_recalled {entry : CacheEntry}
    (h : c.recalled? s.2.files (CacheKey.ofCall operation prompt) = some entry) :
    (behind c keep ask operation prompt).run s = (.ok entry.reply, s) := by
  unfold behind
  simp only [StateT.run, h]

/-- What the cache does not recall is passed on, and a reply is stored. -/
theorem behind_of_missed (h : c.recalled? s.2.files (CacheKey.ofCall operation prompt) = none)
    {answer : Result (Reply Binary64)} {g : γ} {session : Session}
    (hasked : (ask operation prompt).run s = (answer, g, session)) :
    (behind c keep ask operation prompt).run s =
      (answer, g, storing keep operation prompt answer session) := by
  replace hasked : ask operation prompt s = (answer, g, session) := hasked
  unfold behind
  simp only [StateT.run, h, hasked]

/-! ## The log -/

theorem run_logged {log : List (Asked Binary64)} {answer : Result (Reply Binary64)} {g g' : γ}
    {session session' : Session}
    (h : (ask operation prompt).run (g, session) = (answer, g', session')) :
    (ask.logged operation prompt).run ((g, log), session) =
      (answer, (g', log ++ [⟨operation, prompt, answer⟩]), session') := by
  replace h : ask operation prompt (g, session) = (answer, g', session') := h
  simp only [logged, StateT.run, h]

theorem turn_logged (g : γ) (log : List (Asked Binary64)) (session : Session) :
    ((behind c keep ask.logged).turn operation prompt ((g, log), session)).unlogged =
      (behind c keep ask).turn operation prompt (g, session) := by
  cases hrecall : c.recalled? session.files (CacheKey.ofCall operation prompt) with
  | some entry =>
    rw [turn_eq (behind_of_recalled (s := ((g, log), session)) hrecall),
      turn_eq (behind_of_recalled (s := (g, session)) hrecall)]
    rfl
  | none =>
    rcases hasked : (ask operation prompt).run (g, session) with ⟨answer, g', session'⟩
    rw [turn_eq (behind_of_missed (s := ((g, log), session)) hrecall (run_logged hasked)),
      turn_eq (behind_of_missed (s := (g, session)) hrecall hasked)]
    rfl

/-- To keep a log changes nothing else. -/
theorem turns_logged (g : γ) (log : List (Asked Binary64)) (session : Session) :
    ((behind c keep ask.logged).turns calls ((g, log), session)).map Turn.unlogged =
      (behind c keep ask).turns calls (g, session) := by
  induction calls generalizing g log session with
  | nil => rfl
  | cons call rest ih =>
    obtain ⟨operation, prompt⟩ := call
    have hrest (t : Turn (γ × List (Asked Binary64))) :
        ((behind c keep ask.logged).turns rest t.after).map Turn.unlogged =
          (behind c keep ask).turns rest t.unlogged.after :=
      ih t.after.1.1 t.after.1.2 t.after.2
    rw [turns_cons, turns_cons, List.map_cons, hrest, turn_logged]

end Answerer

/-! ## The cached generators of the library -/

/-- The files after an entry was to be stored: as before if this failed. -/
def FileCache.keep (c : FileCache) (files : FileTree) (entry : CacheEntry) : FileTree :=
  match c.store files entry with
  | .ok files => files
  | .error _ => files

/-- A generator that turned up behind a cache, as a cached generator. -/
def Turn.cached (c : FileCache) (t : Turn TextGenerator) : Turn TextGenerator :=
  { t with before := (.cached t.before.1 c, t.before.2), after := (.cached t.after.1 c, t.after.2) }

namespace TextGenerator

variable {c : FileCache}

/-- What is not recalled is answered by the generator behind the cache, and a reply is stored. -/
theorem ask_of_missed {operation : ModelVariant} {p : Prompt} {inner inner' : TextGenerator}
    {session session' : Session} {answer : Result (Reply Binary64)}
    (hrecall : c.recalled? session.files (CacheKey.ofCall operation p) = none)
    (hinner : (generate operation p inner).run session = ((answer, inner'), session')) :
    (ask operation p).run (.cached inner c, session) =
      (answer, .cached inner' c, Answerer.storing c.keep operation p answer session') := by
  have hpure : (generate operation p inner).run session =
      (pure ((answer, inner'), session') : Id _) := hinner
  have hmiss := FileCache.recalled?_eq_none_iff.mp hrecall
  have hturn : (generate operation p (.cached inner c)).run session =
      (pure ((answer, .cached inner' c), Answerer.storing c.keep operation p answer session') :
        Id _) := by
    unfold generate
    cases answer with
    | error e =>
      rcases hmiss with hget | ⟨e', hget⟩ <;> simp [hget, hpure, Answerer.storing]
    | ok reply =>
      cases hstore : c.store session'.files
          { timestamp := session'.now, key := CacheKey.ofCall operation p
            promptTitle := p.title, reply } <;>
        rcases hmiss with hget | ⟨e', hget⟩ <;>
        simp [hget, hpure, Answerer.storing, FileCache.keep, hstore]
  exact ask_of_generate hturn

/-- A cached generator answers as the generator in it does behind the cache. -/
theorem ask_cached (operation : ModelVariant) (p : Prompt) (inner : TextGenerator)
    (session : Session) :
    (ask operation p).run (.cached inner c, session) =
      let (answer, inner, session) :=
        (Answerer.behind c c.keep ask operation p).run (inner, session)
      (answer, .cached inner c, session) := by
  cases hrecall : c.recalled? session.files (CacheKey.ofCall operation p) with
  | some entry =>
    rw [Answerer.behind_of_recalled (s := (inner, session)) hrecall]
    exact ask_of_hit inner session (FileCache.get_eq_some_iff.mpr hrecall)
  | none =>
    rcases hinner : (generate operation p inner).run session with ⟨⟨answer, inner'⟩, session'⟩
    rw [ask_of_missed hrecall hinner,
      Answerer.behind_of_missed (s := (inner, session)) hrecall (ask_of_generate hinner)]

theorem turn_cached (operation : ModelVariant) (p : Prompt) (inner : TextGenerator)
    (session : Session) : Answerer.turn ask operation p (.cached inner c, session) =
      (Answerer.turn (Answerer.behind c c.keep ask) operation p (inner, session)).cached c := by
  rcases hrun : (Answerer.behind c c.keep ask operation p).run (inner, session) with
    ⟨answer, inner', session'⟩
  have hcached := ask_cached (c := c) operation p inner session
  rw [hrun] at hcached
  rw [Answerer.turn_eq hrun, Answerer.turn_eq hcached]
  rfl

/-- The turns of a cached generator are those of the generator in it, behind the cache. -/
theorem turns_cached (inner : TextGenerator) (session : Session)
    (calls : List (ModelVariant × Prompt)) :
    Answerer.turns ask calls (.cached inner c, session) =
      (Answerer.turns (Answerer.behind c c.keep ask) calls (inner, session)).map
        (Turn.cached c) := by
  induction calls generalizing inner session with
  | nil => rfl
  | cons call rest ih =>
    obtain ⟨operation, p⟩ := call
    have hrest (t : Turn TextGenerator) : Answerer.turns ask rest (t.cached c).after =
        (Answerer.turns (Answerer.behind c c.keep ask) rest t.after).map (Turn.cached c) :=
      ih t.after.1 t.after.2
    rw [Answerer.turns_cons, Answerer.turns_cons, turn_cached, List.map_cons, hrest]

end TextGenerator

/-! ## What is kept -/

namespace Turn

variable {ask : Answerer γ} {c : FileCache} {keep : FileTree → CacheEntry → FileTree}
  {calls : List (ModelVariant × Prompt)} {s : γ × Session} {t : Turn γ} {key : String}
  {entry : CacheEntry}

/-- A call is recalled, and then nothing changes; or it is passed on, and then the answer is that of
the generator behind the cache, and a reply is to be stored. -/
theorem recalled_or_passed
    (hrun : (Answerer.behind c keep ask t.operation t.prompt).run t.before = (t.answer, t.after)) :
    (∃ entry, c.recalled? t.before.2.files t.key = some entry ∧ t.answer = .ok entry.reply ∧
        t.after = t.before) ∨
      t.Missed c ∧ ∃ g session, (ask t.operation t.prompt).run t.before = (t.answer, g, session) ∧
        t.after = (g, Answerer.storing keep t.operation t.prompt t.answer session) := by
  cases hfound : c.recalled? t.before.2.files t.key with
  | some entry =>
    rw [Answerer.behind_of_recalled hfound] at hrun
    obtain ⟨hanswer, hafter⟩ := Prod.mk.inj hrun
    exact .inl ⟨entry, rfl, hanswer.symm, hafter.symm⟩
  | none =>
    rcases hasked : (ask t.operation t.prompt).run t.before with ⟨answer, g, session⟩
    rw [Answerer.behind_of_missed hfound hasked] at hrun
    obtain ⟨rfl, hafter⟩ := Prod.mk.inj hrun
    exact .inr ⟨hfound, g, session, rfl, hafter.symm⟩

/-- If the call is passed on, then the generator behind the cache leaves the entries of the cache
alone, and a reply is stored and survives its text. -/
structure Kept (c : FileCache) (ask : Answerer γ) (t : Turn γ) : Prop where
  left : t.Missed c → ∀ key entry, IsCacheKey key →
    c.recalled? t.before.2.files key = some entry →
      c.recalled? ((ask t.operation t.prompt).run t.before).2.2.files key = some entry
  stored : t.Missed c → ∀ reply, t.answer = .ok reply →
    c.store ((ask t.operation t.prompt).run t.before).2.2.files (t.entry reply) =
        .ok t.after.2.files ∧
      CacheEntry.ofText? (t.entry reply).toJson.pretty = some (t.entry reply)

/-- What the cache recalls, it recalls after the turn. -/
theorem Kept.recalled? (h : t.Kept c ask)
    (hrun : (Answerer.behind c keep ask t.operation t.prompt).run t.before = (t.answer, t.after))
    (hkey : IsCacheKey key) (hrecall : c.recalled? t.before.2.files key = some entry) :
    c.recalled? t.after.2.files key = some entry := by
  rcases recalled_or_passed hrun with ⟨_, -, -, hafter⟩ | ⟨hmissed, g, session, hasked, hafter⟩
  · rw [hafter]
    exact hrecall
  · have hleft := h.left hmissed key entry hkey hrecall
    rw [hasked] at hleft
    cases hanswer : t.answer with
    | error e =>
      rw [hafter, hanswer]
      exact hleft
    | ok reply =>
      -- The new entry is one of a key for which nothing was recalled.
      have hne : key ≠ t.key := by
        rintro rfl
        rw [hmissed] at hrecall
        cases hrecall
      obtain ⟨hstore, -⟩ := h.stored hmissed reply hanswer
      rw [hasked] at hstore
      exact FileCache.recalled?_of_store_of_ne hstore t.key_isCacheKey hkey hne hleft

/-- A call that was answered is recalled after the turn, with the same reply. -/
theorem Kept.exists_recalled (h : t.Kept c ask)
    (hrun : (Answerer.behind c keep ask t.operation t.prompt).run t.before = (t.answer, t.after))
    {reply : Reply Binary64} (hanswer : t.answer = .ok reply) :
    ∃ entry, c.recalled? t.after.2.files t.key = some entry ∧ entry.reply = reply := by
  rcases recalled_or_passed hrun with ⟨entry, hfound, hrecalled, hafter⟩ | ⟨hmissed, -⟩
  · rw [hrecalled] at hanswer
    cases hanswer
    exact ⟨entry, by rw [hafter, hfound], rfl⟩
  · obtain ⟨hstore, hsurvives⟩ := h.stored hmissed reply hanswer
    have hfound := FileCache.recalled?_of_store hstore t.key_isCacheKey hsurvives
    exact ⟨t.entry reply, hfound, rfl⟩

end Turn

namespace Answerer

variable {ask : Answerer γ} {c : FileCache} {keep : FileTree → CacheEntry → FileTree}
  {calls : List (ModelVariant × Prompt)} {s : γ × Session} {t : Turn γ} {key : String}
  {entry : CacheEntry}

/-- **What the cache recalls, it recalls throughout a run.** -/
theorem recalled?_of_mem_turns (hkey : IsCacheKey key)
    (hkept : ∀ t ∈ (behind c keep ask).turns calls s, t.Kept c ask)
    (hrecall : c.recalled? s.2.files key = some entry) :
    ∀ t ∈ (behind c keep ask).turns calls s, c.recalled? t.before.2.files key = some entry := by
  induction calls generalizing s with
  | nil => exact List.forall_mem_nil _
  | cons call rest ih =>
    rw [turns_cons] at hkept ⊢
    obtain ⟨hfirst, hrest⟩ := List.forall_mem_cons.mp hkept
    exact List.forall_mem_cons.mpr ⟨hrecall, ih hrest (hfirst.recalled? run_turn hkey hrecall)⟩

/-- Once a key was answered, it is recalled. -/
theorem pairwise_recalled (hkept : ∀ t ∈ (behind c keep ask).turns calls s, t.Kept c ask) :
    ((behind c keep ask).turns calls s).Pairwise fun t t' => t'.key = t.key →
      ∀ reply, t.answer = .ok reply → t'.answer = .ok reply ∧ t'.after = t'.before := by
  induction calls generalizing s with
  | nil => exact .nil
  | cons call rest ih =>
    rw [turns_cons] at hkept ⊢
    obtain ⟨hfirst, hrest⟩ := List.forall_mem_cons.mp hkept
    refine .cons (fun t' ht' hsame reply hanswer => ?_) (ih hrest)
    obtain ⟨entry, hentry, rfl⟩ := hfirst.exists_recalled run_turn hanswer
    have hfound := recalled?_of_mem_turns (Turn.key_isCacheKey _) hrest hentry t' ht'
    rw [← hsame] at hfound
    have hrun := run_of_mem_turns ht'
    rw [behind_of_recalled hfound] at hrun
    obtain ⟨hthis, hafter⟩ := Prod.mk.inj hrun
    exact ⟨hthis.symm, hafter.symm⟩

/-! ## Generators that leave the files alone -/

/-- The generator leaves the files alone and takes no time, and its replies survive their texts. -/
structure Quiet (ask : Answerer γ) : Prop where
  files : ∀ operation prompt s, ((ask operation prompt).run s).2.2.files = s.2.files
  now : ∀ operation prompt s, ((ask operation prompt).run s).2.2.now = s.2.now
  replies : ∀ operation prompt s, s.2.now.IsProper → ∀ reply,
    ((ask operation prompt).run s).1 = .ok reply → reply.Storable ∧ reply.normal = reply

theorem Quiet.logged (h : ask.Quiet) : ask.logged.Quiet :=
  ⟨fun operation prompt s => h.files operation prompt (s.1.1, s.2),
    fun operation prompt s => h.now operation prompt (s.1.1, s.2),
    fun operation prompt s => h.replies operation prompt (s.1.1, s.2)⟩

/-- In an open directory what is to be stored is stored, and the directory is still open. -/
theorem Quiet.kept_turn (h : ask.Quiet) (hopen : c.IsOpen t.before.2.files)
    (hnow : t.before.2.now.IsProper)
    (hrun : (behind c c.keep ask t.operation t.prompt).run t.before = (t.answer, t.after)) :
    t.Kept c ask ∧ c.IsOpen t.after.2.files ∧ t.after.2.now = t.before.2.now := by
  have hfiles := h.files t.operation t.prompt t.before
  have hsame := h.now t.operation t.prompt t.before
  have hleft : t.Missed c → ∀ key entry, IsCacheKey key →
      c.recalled? t.before.2.files key = some entry →
        c.recalled? ((ask t.operation t.prompt).run t.before).2.2.files key = some entry := by
    intro _ key entry _ hrecall
    rw [hfiles]
    exact hrecall
  rcases Turn.recalled_or_passed hrun with
    ⟨entry, hfound, -, hafter⟩ | ⟨-, g, session, hasked, hafter⟩
  · refine ⟨⟨hleft, fun hmissed => ?_⟩, by rwa [hafter], by rw [hafter]⟩
    rw [Turn.Missed, hfound] at hmissed
    cases hmissed
  · rw [hasked] at hfiles hsame
    cases hanswer : t.answer with
    | error e =>
      rw [hanswer] at hafter
      refine ⟨⟨hleft, fun _ reply hreply => ?_⟩, ?_, ?_⟩
      · rw [hanswer] at hreply
        cases hreply
      · rw [hafter]
        exact hfiles ▸ hopen
      · rw [hafter]
        exact hsame
    | ok reply =>
      rw [hanswer] at hafter
      obtain ⟨hstorable, hnormal⟩ :=
        h.replies t.operation t.prompt t.before hnow reply (by rw [hasked, hanswer])
      let entry : CacheEntry :=
        { timestamp := session.now, key := t.key, promptTitle := t.prompt.title, reply }
      rw [← hfiles] at hopen
      rw [← hsame] at hnow
      have hlasting : entry.Lasting := ⟨t.key_isCacheKey, hnow, hstorable, hnormal⟩
      obtain ⟨files', hstore, -⟩ := FileCache.exists_store entry hopen hlasting.key
      have hkeep : c.keep session.files entry = files' := by
        unfold FileCache.keep
        rw [hstore]
      replace hafter : t.after = (g, { session with files := files' }) := by
        rw [hafter, ← hkeep]
        rfl
      have hentry : t.entry reply = entry := by
        unfold Turn.entry
        rw [hafter]
      refine ⟨⟨hleft, fun _ reply' hreply => ?_⟩, ?_, ?_⟩
      · rw [hanswer] at hreply
        cases hreply
        rw [hasked, hentry, hafter]
        exact ⟨hstore, hlasting.ofText?_pretty⟩
      · rw [hafter]
        exact hopen.store hlasting.key hstore
      · rw [hafter]
        exact hsame

/-- **In an open directory every turn is kept.** -/
theorem Quiet.kept (h : ask.Quiet) (hopen : c.IsOpen s.2.files) (hnow : s.2.now.IsProper) :
    ∀ t ∈ (behind c c.keep ask).turns calls s, t.Kept c ask := by
  induction calls generalizing s with
  | nil => exact List.forall_mem_nil _
  | cons call rest ih =>
    obtain ⟨operation, prompt⟩ := call
    obtain ⟨hfirst, hopen', hsame⟩ :=
      h.kept_turn (t := (behind c c.keep ask).turn operation prompt s) hopen hnow run_turn
    rw [turns_cons]
    refine List.forall_mem_cons.mpr ⟨hfirst, ih hopen' ?_⟩
    rw [hsame]
    exact hnow

/-! ## Runs of calls behind a cache -/

/-- **A cache before a generator of any kind.** A cached generator answers as the generator in it
does behind the cache. Behind a cache, a call whose entry can be read is answered by the reply in
it, and nothing changes. Any other call is passed on, once and as it is, and its answer is the
answer; if this is an error, then nothing is stored. If what is to be stored is stored, then a call
that was answered by a reply is answered by this reply ever after, and it is not passed on again. -/
theorem calls_behind_cache (ask : Answerer γ) (c : FileCache)
    (keep : FileTree → CacheEntry → FileTree) (calls : List (ModelVariant × Prompt)) (g : γ)
    (session : Session) :
    (∀ (inner : TextGenerator) (session : Session),
      turns TextGenerator.ask calls (.cached inner c, session) =
        (turns (behind c c.keep (logged TextGenerator.ask)) calls ((inner, []), session)).map
          fun t => t.unlogged.cached c) ∧
    (∀ t ∈ (behind c keep ask.logged).turns calls ((g, []), session),
      (∀ entry, c.get t.before.2.files t.key = .ok (some entry) →
        t.answer = .ok entry.reply ∧ t.after = t.before) ∧
      ((∀ entry, c.get t.before.2.files t.key ≠ .ok (some entry)) → ∃ g' session',
        (ask t.operation t.prompt).run (t.before.1.1, t.before.2) = (t.answer, g', session') ∧
        t.after.1 = (g', t.before.1.2 ++ [⟨t.operation, t.prompt, t.answer⟩]) ∧
        (∀ e, t.answer = .error e → t.after.2 = session') ∧
        ∀ reply, t.answer = .ok reply → t.after.2 =
          { session' with
            files := keep session'.files
              { timestamp := session'.now, key := t.key, promptTitle := t.prompt.title,
                reply } })) ∧
    ((∀ t ∈ (behind c keep ask.logged).turns calls ((g, []), session), t.Kept c ask.logged) →
      ((behind c keep ask.logged).turns calls ((g, []), session)).Pairwise fun t t' =>
        t'.key = t.key → ∀ reply, t.answer = .ok reply →
          t'.answer = .ok reply ∧ t'.after = t'.before) := by
  refine ⟨fun inner session => ?_, fun t ht => ⟨fun entry hget => ?_, fun hget => ?_⟩,
    pairwise_recalled⟩
  · rw [TextGenerator.turns_cached, ← turns_logged inner [], List.map_map]
    rfl
  · have hrun := run_of_mem_turns ht
    rw [behind_of_recalled (FileCache.get_eq_some_iff.mp hget)] at hrun
    obtain ⟨hanswer, hafter⟩ := Prod.mk.inj hrun
    exact ⟨hanswer.symm, hafter.symm⟩
  · have hmissed : t.Missed c := Option.eq_none_iff_forall_ne_some.mpr fun entry hentry =>
      hget entry (FileCache.get_eq_some_iff.mpr hentry)
    rcases hasked : (ask t.operation t.prompt).run (t.before.1.1, t.before.2) with
      ⟨answer, g', session'⟩
    have hrun := run_of_mem_turns ht
    rw [behind_of_missed hmissed (run_logged hasked)] at hrun
    obtain ⟨rfl, hafter⟩ := Prod.mk.inj hrun
    rw [← hafter]
    refine ⟨g', session', rfl, rfl, fun e he => ?_, fun reply hreply => ?_⟩
    · rw [he]
      rfl
    · rw [hreply]
      rfl

/-- Answers with the number of calls so far. -/
def counting : Answerer Nat :=
  fun _ _ (n, session) =>
    (.ok { content := toString n, modelName := "counter", timing := session.timing, usage := 0
           rawResponse := .null }, n + 1, session)

theorem counting_quiet : counting.Quiet := by
  refine ⟨fun _ _ _ => rfl, fun _ _ _ => rfl, fun _ _ s hnow reply hreply => ?_⟩
  cases hreply
  exact ⟨⟨Session.timing_isProper hnow, Usage.zero_survives, trivial⟩, rfl⟩

/-- A prompt that is answered with a number is answered with this number again. -/
theorem counted_once : ∃ first again : Turn (Nat × List (Asked Binary64)),
    (behind ⟨["cache"]⟩ (FileCache.keep ⟨["cache"]⟩) counting.logged).turns
        [(.chat, ⟨"First", "How many?", {}, []⟩), (.chat, ⟨"Again", "How many?", {}, []⟩)]
        ((0, []), .fresh) = [first, again] ∧
      first.answer.toOption.map (·.content) = some "0" ∧ again.answer = first.answer ∧
      again.after = again.before := by
  let c : FileCache := ⟨["cache"]⟩
  let calls : List (ModelVariant × Prompt) :=
    [(.chat, ⟨"First", "How many?", {}, []⟩), (.chat, ⟨"Again", "How many?", {}, []⟩)]
  obtain ⟨-, hturns, hpairs⟩ :=
    calls_behind_cache counting c (FileCache.keep c) calls 0 .fresh
  have hkept : ∀ t ∈ (behind c (FileCache.keep c) counting.logged).turns calls ((0, []), .fresh),
      t.Kept c counting.logged :=
    counting_quiet.logged.kept Session.fresh_isEmpty.isOpen ⟨by decide, by decide⟩
  have hsame : CacheKey.ofCall .chat ⟨"Again", "How many?", {}, []⟩ =
      CacheKey.ofCall .chat ⟨"First", "How many?", {}, []⟩ :=
    CacheKey.ofCall_congr rfl rfl
  obtain ⟨first, again, hrun, hbefore, hkeys⟩ : ∃ first again,
      (behind c (FileCache.keep c) counting.logged).turns calls ((0, []), .fresh) =
        [first, again] ∧ first.before = ((0, []), Session.fresh) ∧ again.key = first.key :=
    ⟨_, _, turns_pair, rfl, hsame⟩
  rw [hrun] at hturns hpairs hkept
  -- Nothing is in the cache at first, so that the first prompt is passed on.
  have hmiss (entry : CacheEntry) : c.get first.before.2.files first.key ≠ .ok (some entry) := by
    rw [hbefore, Session.fresh_isEmpty.get first.key_isCacheKey]
    exact nofun
  obtain ⟨g, session, hasked, -⟩ := (hturns first List.mem_cons_self).2 hmiss
  rw [hbefore] at hasked
  have hanswer : first.answer = ((counting first.operation first.prompt).run (0, .fresh)).1 := by
    rw [hasked]
  obtain ⟨hagain, hquiet⟩ :=
    List.rel_of_pairwise_cons (hpairs hkept) List.mem_cons_self hkeys _ hanswer
  refine ⟨first, again, hrun, ?_, hagain.trans hanswer.symm, hquiet⟩
  rw [hanswer]
  rfl

end Answerer

end PromptPipeline
