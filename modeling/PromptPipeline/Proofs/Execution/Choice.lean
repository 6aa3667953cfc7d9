import PromptPipeline.Adapter.Bench
import PromptPipeline.Proofs.Document.Validation
import PromptPipeline.Proofs.Execution.Outcome

/-!
# The choice of a generator

A prompt that names a model goes to the first generator that offers it. To find out, a run asks the
generators in turn for their listings, as far as it has to; one that does not answer is passed over.

* `Tools.chooses_of_reaches`: what is asked and what is chosen, whatever is answered.
* `Tools.run_chooseGenerator_eq_ok_iff`: where listings do not change, the generator that is chosen
  is the first one that offers the model.

Validation asks nobody. It looks a model up in a registry, and where the registry is what the
generators list, it decides the same question.

Main statement: `checkModels_iff_dispatchable`.
-/

namespace PromptPipeline

/-- The models that a generator lists, unless it fails to. -/
abbrev Listing := Result (List AvailableModel)

/-- The listing did not fail, and the model of this name and variant is in it. -/
def Offers (name : String) (variant : ModelVariant) (listing : Listing) : Prop :=
  ∃ models, listing = .ok models ∧ ∃ m ∈ models, m.name = name ∧ m.variant = variant

variable {σ N α : Type} {name : String} {variant : ModelVariant} {listing : Listing}
  {listings : List Listing} {i : Nat} {r : ModelRequirements} {tools : Tools}

theorem offers_ok_iff {models : List AvailableModel} :
    Offers name variant (.ok models) ↔ models.any (·.serves name variant) = true := by
  simp [Offers, AvailableModel.serves]

theorem not_offers_error {e : PipelineError} : ¬Offers name variant (.error e) :=
  fun ⟨_, h, _⟩ => nomatch h

/-- The listings of generators that were asked in turn, as events; the first of them stands at the
position. -/
def listedFrom (position : Nat) : List Listing → List (Event N)
  | [] => []
  | listing :: rest => .answered (.listModels position) listing :: listedFrom (position + 1) rest

/-- Each listing stands for one event, at its position. -/
theorem mem_listedFrom (position : Nat) (h : listings[i]? = some listing) :
    .answered (.listModels (position + i)) listing ∈ listedFrom (N := N) position listings := by
  induction listings generalizing position i with
  | nil => cases h
  | cons first rest ih =>
    cases i with
    | zero =>
      cases h
      exact List.mem_cons_self
    | succ i =>
      have hrest := ih (position + 1) h
      rw [Nat.add_assoc, Nat.add_comm 1] at hrest
      exact List.mem_cons_of_mem _ hrest

theorem listModels_of_mem_listedFrom {position : Nat} {e : Event N}
    (h : e ∈ listedFrom position listings) :
    ∃ i listing, e = .answered (.listModels i) listing := by
  induction listings generalizing position with
  | nil => cases h
  | cons first rest ih =>
    rcases List.mem_cons.mp h with rfl | h
    · exact ⟨_, _, rfl⟩
    · exact ih h

/-! ## What is asked -/

namespace Tools

/-- How a generator is chosen for requirements: without a name the first one, and else the first one
that offers the model. All before it were asked, and did not offer it. -/
inductive Chooses (tools : Tools) (r : ModelRequirements) : List (Event N) → Result Nat → Prop
  | missing (h : tools.generators = []) : Chooses tools r [] (.error (.execution .noGenerator))
  | any (h : tools.generators ≠ []) (hname : r.modelName = .none) : Chooses tools r [] (.ok 0)
  | offered {name : String} {earlier : List Listing} {last : Listing}
      (hname : r.modelName = some name) (hlength : earlier.length < tools.generators.length)
      (hearlier : ∀ listing ∈ earlier, ¬Offers name r.variant listing)
      (hlast : Offers name r.variant last) :
      Chooses tools r (listedFrom 0 (earlier ++ [last])) (.ok earlier.length)
  | refused {name : String} {listings : List Listing} (h : tools.generators ≠ [])
      (hname : r.modelName = some name) (hlength : listings.length = tools.generators.length)
      (hall : ∀ listing ∈ listings, ¬Offers name r.variant listing) :
      Chooses tools r (listedFrom 0 listings)
        (.error (.execution (.modelNotOffered name r.variant tools.generators)))

/-- A search among so many generators, the first of which stands at the position: it asks them until
one offers the model, or none is left. -/
def Searches (name : String) (variant : ModelVariant) (position count : Nat)
    (calls : List (Event N)) (found : Option Nat) : Prop :=
  (∃ earlier last, calls = listedFrom position (earlier ++ [last]) ∧ earlier.length < count ∧
    found = some (position + earlier.length) ∧
    (∀ listing ∈ earlier, ¬Offers name variant listing) ∧ Offers name variant last) ∨
  ∃ listings, calls = listedFrom position listings ∧ listings.length = count ∧ found = .none ∧
    ∀ listing ∈ listings, ¬Offers name variant listing

/-- A generator that does not offer the model is passed over. -/
theorem Searches.cons {position count : Nat} {calls : List (Event N)} {found : Option Nat}
    (hnot : ¬Offers name variant listing)
    (h : Searches name variant (position + 1) count calls found) :
    Searches name variant position (count + 1)
      (.answered (.listModels position) listing :: calls) found := by
  rcases h with ⟨earlier, last, rfl, hlength, rfl, hearlier, hlast⟩ |
    ⟨listings, rfl, hlength, rfl, hall⟩
  · refine .inl ⟨listing :: earlier, last, rfl, Nat.succ_lt_succ hlength, ?_,
      List.forall_mem_cons.mpr ⟨hnot, hearlier⟩, hlast⟩
    rw [List.length_cons, Nat.add_assoc, Nat.add_comm 1]
  · exact .inr ⟨listing :: listings, rfl, congrArg (· + 1) hlength, rfl,
      List.forall_mem_cons.mpr ⟨hnot, hall⟩⟩

theorem searches_of_reaches {position : Nat} {titles : List String} {calls : List (Event N)}
    {found : Option Nat}
    (h : (askForModel name variant position titles).Reaches calls (.done found)) :
    Searches name variant position titles.length calls found := by
  induction titles generalizing position calls with
  | nil =>
    obtain ⟨rfl, heq⟩ := Activity.reaches_done_iff.mp h
    cases heq
    exact .inr ⟨[], rfl, rfl, rfl, List.forall_mem_nil _⟩
  | cons title rest ih =>
    cases h with
    | @answered _ _ answer calls _ h =>
      cases answer with
      | error e => exact .cons not_offers_error (ih h)
      | ok models =>
        replace h : Activity.Reaches (if models.any (·.serves name variant) then _ else _) _ _ := h
        split at h
        next hserves =>
          obtain ⟨rfl, heq⟩ := Activity.reaches_done_iff.mp h
          cases heq
          exact .inl ⟨[], .ok models, rfl, Nat.zero_lt_succ _, rfl, List.forall_mem_nil _,
            offers_ok_iff.mpr hserves⟩
        next hnot => exact .cons (mt offers_ok_iff.mp hnot) (ih h)

/-- **A generator is chosen as the rules say**, whatever the generators answer. -/
theorem chooses_of_reaches {calls : List (Event N)} {chosen : Result Nat}
    (h : (tools.chooseGenerator r).Reaches calls (.done chosen)) : tools.Chooses r calls chosen := by
  unfold chooseGenerator at h
  split at h
  next hnone =>
    obtain ⟨rfl, heq⟩ := Activity.reaches_done_iff.mp h
    cases heq
    exact .missing hnone
  next hsome hname =>
    obtain ⟨rfl, heq⟩ := Activity.reaches_done_iff.mp h
    cases heq
    exact .any (by simp [hsome]) hname
  next titles name hname hne =>
    obtain ⟨h₁, h₂, found, rfl, hasked, hdone⟩ := Activity.reaches_bind_iff.mp h
    rcases searches_of_reaches hasked with ⟨earlier, last, rfl, hlength, rfl, hearlier, hlast⟩ |
      ⟨listings, rfl, hlength, rfl, hall⟩
    · obtain ⟨rfl, heq⟩ := Activity.reaches_done_iff.mp hdone
      cases heq
      rw [List.append_nil, Nat.zero_add]
      exact .offered hname hlength hearlier hlast
    · obtain ⟨rfl, heq⟩ := Activity.reaches_done_iff.mp hdone
      cases heq
      rw [List.append_nil]
      exact .refused hne hname hlength hall

end Tools

/-! ## Listings that do not change -/

/-- In the states that satisfy the condition the generators list these models, and to ask them leads
to such a state again. -/
structure Environment.Lists (env : Environment (StateM σ) N) (holds : σ → Prop)
    (listings : List Listing) : Prop where
  answer : ∀ i listing s, listings[i]? = some listing → holds s →
    ((env.answer (.listModels i)).run s).1 = listing
  keeps : ∀ i s, holds s → holds ((env.answer (.listModels i)).run s).2

/-- Whether the event is a listing, and agrees with the ones that are given. -/
def Event.Lists (listings : List Listing) (e : Event N) : Prop :=
  ∃ i listing, e = .answered (.listModels i) listing ∧
    ∀ given, listings[i]? = some given → listing = given

/-- An activity that only asks for listings gets the ones that are given. -/
theorem Environment.Lists.exists_reaches {env : Environment (StateM σ) N} {holds : σ → Prop}
    (h : env.Lists holds listings) {a : Activity N α}
    (ha : a.Confined fun e => ∃ i listing, e = .answered (.listModels i) listing) {s : σ}
    (hs : holds s) :
    ∃ history, a.Reaches history (.done ((a.run env).run s).1) ∧
      ∀ e ∈ history, e.Lists listings := by
  induction a generalizing s with
  | done x => exact ⟨[], .refl _, List.forall_mem_nil _⟩
  | isCancelled next =>
    obtain ⟨i, listing, heq⟩ := (ha true).1
    cases heq
  | notify p next =>
    obtain ⟨i, listing, heq⟩ := ha.1
    cases heq
  | ask c next ih =>
    obtain ⟨⟨i, listing, heq⟩, hnext⟩ := ha ((env.answer c).run s).1
    cases heq
    obtain ⟨history, hreaches, hall⟩ := ih _ hnext (h.keeps i s hs)
    refine ⟨_ :: history, .answered hreaches, List.forall_mem_cons.mpr ⟨⟨i, _, rfl, ?_⟩, hall⟩⟩
    exact fun given hgiven => h.answer i given s hgiven hs

/-- The generator offers the model, and none before it does. -/
structure FirstOffer (listings : List Listing) (name : String) (variant : ModelVariant) (i : Nat) :
    Prop where
  offers : ∃ listing, listings[i]? = some listing ∧ Offers name variant listing
  first : ∀ j < i, ∀ listing, listings[j]? = some listing → ¬Offers name variant listing

theorem FirstOffer.unique {j : Nat} (hi : FirstOffer listings name variant i)
    (hj : FirstOffer listings name variant j) : i = j := by
  obtain ⟨listing, hget, hoffers⟩ := hi.offers
  obtain ⟨listing', hget', hoffers'⟩ := hj.offers
  rcases Nat.lt_trichotomy i j with hlt | heq | hlt
  · exact absurd hoffers (hj.first i hlt listing hget)
  · exact heq
  · exact absurd hoffers' (hi.first j hlt listing' hget')

/-- If some listing offers the model, there is a first one. -/
theorem exists_firstOffer_iff :
    (∃ i, FirstOffer listings name variant i) ↔ ∃ listing ∈ listings, Offers name variant listing := by
  constructor
  · rintro ⟨i, ⟨listing, hget, hoffers⟩, -⟩
    exact ⟨listing, List.mem_of_getElem? hget, hoffers⟩
  · rintro ⟨listing, hmem, hoffers⟩
    obtain ⟨i, hget⟩ := List.mem_iff_getElem?.mp hmem
    classical
    have hex : ∃ i listing, listings[i]? = some listing ∧ Offers name variant listing :=
      ⟨i, listing, hget, hoffers⟩
    exact ⟨Nat.find hex, Nat.find_spec hex,
      fun j hj listing hget hoffers => Nat.find_min hex hj ⟨listing, hget, hoffers⟩⟩

/-- The listings that were asked for are the ones that are given. -/
theorem eq_of_lists {asked : List Listing} {given : Listing}
    (hlists : ∀ e ∈ listedFrom (N := N) 0 asked, e.Lists listings) (hasked : asked[i]? = some listing)
    (hgiven : listings[i]? = some given) : listing = given := by
  obtain ⟨j, listing', heq, hall⟩ := hlists _ (mem_listedFrom 0 hasked)
  cases heq
  exact hall given (by rwa [Nat.zero_add])

namespace Tools

/-- **Where listings do not change, the first generator that offers a model is chosen for it**, or
none if none does. -/
theorem Chooses.firstOffer {calls : List (Event N)} {chosen : Result Nat}
    (h : tools.Chooses r calls chosen) (hname : r.modelName = some name)
    (hlength : tools.generators.length = listings.length)
    (hlists : ∀ e ∈ calls, e.Lists listings) :
    (∃ i, chosen = .ok i ∧ FirstOffer listings name r.variant i) ∨
      (∃ fault, chosen = .error (.execution fault) ∧ fault.isFinal = true) ∧
        ∀ listing ∈ listings, ¬Offers name r.variant listing := by
  cases h with
  | missing h =>
    have hnone : listings = [] := List.eq_nil_of_length_eq_zero (by rw [← hlength, h]; rfl)
    rw [hnone]
    exact .inr ⟨⟨_, rfl, rfl⟩, List.forall_mem_nil _⟩
  | any _ hnone =>
    rw [hname] at hnone
    cases hnone
  | @offered name' earlier last hname' hlt hearlier hlast =>
    cases hname.symm.trans hname'
    refine .inl ⟨earlier.length, rfl, ?_, fun j hj listing hget => ?_⟩
    · rw [hlength] at hlt
      have hgiven := List.getElem?_eq_getElem hlt
      have hsame := eq_of_lists hlists List.getElem?_concat_length hgiven
      exact ⟨_, hgiven, hsame ▸ hlast⟩
    · have hasked : (earlier ++ [last])[j]? = some earlier[j] := by
        rw [List.getElem?_append_left hj, List.getElem?_eq_getElem hj]
      rw [← eq_of_lists hlists hasked hget]
      exact hearlier _ (List.getElem_mem hj)
  | @refused name' asked hne hname' hasked hall =>
    cases hname.symm.trans hname'
    refine .inr ⟨⟨_, rfl, rfl⟩, fun listing hmem => ?_⟩
    obtain ⟨i, hget⟩ := List.mem_iff_getElem?.mp hmem
    have hi : i < asked.length := by
      rw [hasked, hlength]
      exact (List.getElem?_eq_some_iff.mp hget).1
    rw [← eq_of_lists hlists (List.getElem?_eq_getElem hi) hget]
    exact hall _ (List.getElem_mem hi)

variable {env : Environment (StateM σ) N} {holds : σ → Prop} {s : σ}

/-- A run that chooses a generator for a model chooses the first one that offers it. -/
theorem run_chooseGenerator_eq_ok_iff (henv : env.Lists holds listings) (hs : holds s)
    (hlength : tools.generators.length = listings.length) (hname : r.modelName = some name) :
    (((tools.chooseGenerator r).run env).run s).1 = .ok i ↔
      FirstOffer listings name r.variant i := by
  obtain ⟨history, hreaches, hlists⟩ := henv.exists_reaches
    (tools.chooseGenerator_confined (fun i listing => ⟨i, listing, rfl⟩) r) hs
  rcases (chooses_of_reaches hreaches).firstOffer hname hlength hlists with
    ⟨j, hchosen, hfirst⟩ | ⟨⟨fault, hchosen, -⟩, hnone⟩
  · rw [hchosen]
    constructor
    · intro h
      cases h
      exact hfirst
    · intro hi
      rw [hi.unique hfirst]
  · rw [hchosen]
    constructor
    · intro h
      cases h
    · intro hi
      obtain ⟨listing, hmem, hoffers⟩ := exists_firstOffer_iff.mp ⟨i, hi⟩
      exact absurd hoffers (hnone listing hmem)

end Tools

/-! ## The registry -/

/-- All models of the listings that did not fail. -/
def registry (listings : List Listing) : List AvailableModel :=
  listings.flatMap fun listing => listing.toOption.getD []

theorem mem_registry_iff : (∃ m ∈ registry listings, m.name = name ∧ m.variant = variant) ↔
    ∃ listing ∈ listings, Offers name variant listing := by
  unfold registry Offers
  constructor
  · rintro ⟨m, hm, hserves⟩
    obtain ⟨listing, hlisting, hm⟩ := List.mem_flatMap.mp hm
    cases listing with
    | error e => cases hm
    | ok models => exact ⟨_, hlisting, models, rfl, m, hm, hserves⟩
  · rintro ⟨listing, hlisting, models, rfl, m, hm, hserves⟩
    exact ⟨m, List.mem_flatMap.mpr ⟨_, hlisting, hm⟩, hserves⟩

namespace Pipeline

/-- **Validated models are dispatchable.** Let the listings of the generators not change. With all
models that they list as the registry, the rule about models passes if and only if a generator is
found for each task that is a template of a prompt and names a model. What is found for a model is
the first generator of which the listing does not fail and has the model with its variant. -/
theorem checkModels_iff_dispatchable (p : Pipeline) (tools : Tools) (listings : List Listing)
    (hlength : tools.generators.length = listings.length) (env : Environment (StateM σ) N)
    (holds : σ → Prop) (henv : env.Lists holds listings) (s : σ) (hs : holds s) :
    (p.checkModels (some (registry listings)) = .ok () ↔
      ∀ t ∈ p.tasks, t.executionType = .promptTemplate → ∀ r, t.modelRequirements = some r →
        r.modelName.isSome = true →
        ∃ i, (((tools.chooseGenerator r).run env).run s).1 = .ok i) ∧
    ∀ r name i, r.modelName = some name →
      (((tools.chooseGenerator r).run env).run s).1 = .ok i →
      (∃ models, listings[i]? = some (.ok models) ∧
        ∃ m ∈ models, m.name = name ∧ m.variant = r.variant) ∧
      ∀ j < i, ∀ models, listings[j]? = some (.ok models) →
        ∀ m ∈ models, ¬(m.name = name ∧ m.variant = r.variant) := by
  refine ⟨?_, fun r name i hname hchosen => ?_⟩
  · rw [checkModels_eq_ok_iff]
    constructor
    · intro hknown t ht htype r hr hnamed
      obtain ⟨name, hname⟩ := Option.isSome_iff_exists.mp hnamed
      have hoffered := mem_registry_iff.mp (hknown _ rfl t ht htype r hr name hname)
      obtain ⟨i, hi⟩ := exists_firstOffer_iff.mpr hoffered
      exact ⟨i, (Tools.run_chooseGenerator_eq_ok_iff henv hs hlength hname).mpr hi⟩
    · rintro hall models ⟨⟩ t ht htype r hr name hname
      obtain ⟨i, hi⟩ := hall t ht htype r hr (by rw [hname]; rfl)
      have hfirst := (Tools.run_chooseGenerator_eq_ok_iff henv hs hlength hname).mp hi
      exact mem_registry_iff.mpr (exists_firstOffer_iff.mp ⟨i, hfirst⟩)
  · obtain ⟨⟨listing, hget, models, rfl, hserves⟩, hfirst⟩ :=
      (Tools.run_chooseGenerator_eq_ok_iff henv hs hlength hname).mp hchosen
    exact ⟨⟨models, hget, hserves⟩, fun j hj models hget m hm hserves =>
      hfirst j hj _ hget ⟨models, rfl, m, hm, hserves⟩⟩

end Pipeline

/-- To ask a bench for models leaves it as it is. -/
theorem Bench.run_listModels (b : Bench) (i : Nat) :
    (Bench.environment.answer (.listModels i)).run b =
      ((b.generators[i]?.map (·.models)).getD (.error (.execution .noGenerator)), b) := by
  show (Bench.answer (.listModels i)).run b = _
  simp only [Bench.answer, StateT.run_bind, StateT.run_get, pure_bind]
  cases b.generators[i]? <;> rfl

/-- A bench lists the models of its generators, and goes on to do so. -/
theorem Bench.environment_lists (listings : List Listing) :
    Bench.environment.Lists (fun b => b.generators.map (·.models) = listings) listings := by
  refine ⟨?_, ?_⟩
  · rintro i listing b hget rfl
    have hmodels : b.generators[i]?.map (·.models) = some listing :=
      (List.getElem?_map ..).symm.trans hget
    rw [Bench.run_listModels, hmodels]
    rfl
  · rintro i b rfl
    rw [Bench.run_listModels]

/-- A bench of which the first generator does not answer when it is asked for its models. -/
def Bench.faltering : Bench :=
  { generators := [
      .prepared
        { title := "Offline", models := .error (.execution (.reported "offline" true)), answers := []
          usage := 0, isStrict := true, cancelOnCall := none },
      .echo, .filler 10] }

/-- A pipeline of one prompt, which names the model that repeats it. -/
def Pipeline.namedEcho : Pipeline :=
  { Pipeline.greetings with
    parameters := [{ name := "greeting", isOutput := true }]
    tasks := [{ Task.fillIn "greet" "Hi" "greeting" [] with
      executionType := .promptTemplate
      modelRequirements := some { modelName := some "mocked-echo" } }] }

namespace Pipeline

/-- On the bench with the generator that does not answer, the prompt goes to the next one. -/
theorem namedEcho_dispatchable :
    namedEcho.checkModels (some (registry (Bench.faltering.generators.map (·.models)))) = .ok () ∧
      ∃ i, (((Bench.faltering.tools.chooseGenerator { modelName := some "mocked-echo" }).run
        Bench.environment).run Bench.faltering).1 = .ok i ∧ i = 1 := by
  obtain ⟨hrule, hfirst⟩ := checkModels_iff_dispatchable namedEcho Bench.faltering.tools _
    (by simp [Bench.tools]) Bench.environment _ (Bench.environment_lists _) Bench.faltering rfl
  have hvalid :
      namedEcho.checkModels (some (registry (Bench.faltering.generators.map (·.models)))) =
        .ok () := by decide
  obtain ⟨i, hi⟩ := hrule.mp hvalid _ List.mem_cons_self rfl _ rfl rfl
  refine ⟨hvalid, i, hi, ?_⟩
  obtain ⟨⟨models, hget, m, hm, hname, -⟩, -⟩ := hfirst _ _ i rfl hi
  match i, hget with
  | 1, _ => rfl
  | 2, hget =>
    -- The filler lists no model of this name.
    cases hget
    simp only [List.mem_cons, List.not_mem_nil, or_false] at hm
    rcases hm with rfl | rfl <;> exact absurd hname (by decide)

end Pipeline

end PromptPipeline
