import PromptPipeline.Collection
import PromptPipeline.Proofs.Bindings
import PromptPipeline.Proofs.Document.Interchange
import PromptPipeline.Proofs.Result

/-!
# What a collection holds

Whatever is entered into a collection, and whether or not it could be, the collection holds valid
pipelines under their own URLs (`Sound.afterEntering`). A list of pipelines makes a collection if
and only if each of them has a URL of its own and is valid (`exists_ofPipelines_iff`), and what the
collection binds depends on the members of the list only (`get?_ofPipelines`); so order does not
matter, and a collection is the one of its own pipelines, which is how it is read back from its
text.
-/

namespace PromptPipeline

namespace Collection

variable {c d : Collection} {p : Pipeline} {ps : List Pipeline} {url : String}

/-- Collections that have the same pipelines under the same URLs are equal. -/
theorem ext (h : ∀ url, c.get? url = d.get? url) : c = d := by
  cases c
  cases d
  exact congrArg Collection.mk (Bindings.ext h)

/-- Every pipeline stands under its own URL and is valid. -/
def Sound (c : Collection) : Prop :=
  ∀ url p, c.get? url = some p → p.url = some url ∧ ∃ v, p.validate none = .ok v

theorem Sound.empty : Sound {} :=
  fun _ _ h => nomatch h

/-! ## One call -/

theorem get?_insert (c : Collection) (p : Pipeline) (url key : String) :
    get? ⟨c.pipelines.insert url p⟩ key = if key = url then some p else c.get? key :=
  Bindings.get?_insert

theorem get?_eq_none_iff : c.get? url = none ↔ c.pipelines.contains url = false :=
  Bindings.not_contains_iff.symm

/-- A call that succeeds adds the pipeline. -/
theorem run_enter_eq_ok_iff : (enter p).run c = (.ok (), d) ↔ c.add p = .ok d := by
  unfold add
  rcases (enter p).run c with ⟨_ | _, d'⟩
  · constructor <;> rintro ⟨⟩
  · constructor <;> rintro ⟨⟩ <;> rfl

/-- A call that fails leaves the collection as it was. -/
theorem run_enter_of_error {e : PipelineError} (h : (enter p).run c = (.error e, d)) : d = c := by
  rw [run_enter] at h
  split at h
  next => exact (Prod.mk.inj h).2.symm
  next =>
    split at h
    next => exact (Prod.mk.inj h).2.symm
    next =>
      split at h
      next => exact (Prod.mk.inj h).2.symm
      next => cases h

/-- What is found after a pipeline was added was found before, or is this pipeline. -/
theorem get?_of_add {q : Pipeline} (h : c.add q = .ok d) :
    d.get? url = some p ↔ p = q ∧ p.url = some url ∨ c.get? url = some p := by
  obtain ⟨key, v, hq, hnew, -, rfl⟩ := add_eq_ok_iff.mp h
  rw [get?_insert]
  split
  next heq =>
    subst heq
    rw [get?_eq_none_iff.mpr hnew, Option.some.injEq]
    constructor
    · rintro rfl
      exact .inl ⟨rfl, hq⟩
    · rintro (⟨rfl, -⟩ | hnone)
      · rfl
      · cases hnone
  next hne =>
    refine (or_iff_right ?_).symm
    rintro ⟨rfl, hp⟩
    rw [hq] at hp
    exact hne (Option.some.inj hp).symm

/-- A new pipeline is valid and stands under its URL. -/
theorem Sound.add (hc : c.Sound) (h : c.add p = .ok d) : d.Sound := by
  obtain ⟨-, v, -, -, hvalid, -⟩ := add_eq_ok_iff.mp h
  intro url q hq
  rcases (get?_of_add h).mp hq with ⟨rfl, hurl⟩ | hold
  · exact ⟨hurl, v, hvalid⟩
  · exact hc url q hold

/-- Each call leaves the collection sound. -/
theorem Sound.enter (hc : c.Sound) (p : Pipeline) : ((enter p).run c).2.Sound := by
  rcases hrun : (Collection.enter p).run c with ⟨e | ⟨⟩, d⟩
  · rw [run_enter_of_error hrun]
    exact hc
  · exact hc.add (run_enter_eq_ok_iff.mp hrun)

/-- Any number of calls leaves the collection sound. -/
theorem Sound.afterEntering (hc : c.Sound) (ps : List Pipeline) : (c.afterEntering ps).Sound := by
  induction ps generalizing c with
  | nil => exact hc
  | cons p ps ih => exact ih (hc.enter p)

/-! ## Many calls -/

/-- Every pipeline of the list is valid and has a URL that is new to the collection and to the rest
of the list. -/
structure Addable (c : Collection) (ps : List Pipeline) : Prop where
  url : ∀ p ∈ ps, ∃ url, p.url = some url ∧ c.get? url = none
  nodup : (ps.map (·.url)).Nodup
  valid : ∀ p ∈ ps, ∃ v, p.validate none = .ok v

theorem addable_cons_iff :
    c.Addable (p :: ps) ↔ ∃ d, c.add p = .ok d ∧ d.Addable ps := by
  constructor
  · rintro ⟨hurl, hnodup, hvalid⟩
    obtain ⟨⟨url, hp, hnew⟩, hurls⟩ := List.forall_mem_cons.mp hurl
    obtain ⟨⟨v, hv⟩, hvalids⟩ := List.forall_mem_cons.mp hvalid
    rw [List.map_cons, List.nodup_cons] at hnodup
    refine ⟨⟨c.pipelines.insert url p⟩,
      add_eq_ok_iff.mpr ⟨url, v, hp, get?_eq_none_iff.mp hnew, hv, rfl⟩, fun q hq => ?_, hnodup.2,
      hvalids⟩
    obtain ⟨key, hkey, hfree⟩ := hurls q hq
    refine ⟨key, hkey, ?_⟩
    rw [get?_insert, if_neg, hfree]
    rintro rfl
    exact hnodup.1 (List.mem_map.mpr ⟨q, hq, by rw [hkey, hp]⟩)
  · rintro ⟨d, hadd, hurl, hnodup, hvalid⟩
    obtain ⟨url, v, hp, hnew, hv, rfl⟩ := add_eq_ok_iff.mp hadd
    -- a URL that is new after the first call was new before it, and is not the one just added
    have hfree : ∀ q ∈ ps, ∃ key, q.url = some key ∧ key ≠ url ∧ c.get? key = none := by
      intro q hq
      obtain ⟨key, hkey, hnone⟩ := hurl q hq
      rw [get?_insert] at hnone
      split at hnone
      next => cases hnone
      next hne => exact ⟨key, hkey, hne, hnone⟩
    refine ⟨List.forall_mem_cons.mpr ⟨⟨url, hp, get?_eq_none_iff.mpr hnew⟩, fun q hq => ?_⟩, ?_,
      List.forall_mem_cons.mpr ⟨⟨v, hv⟩, hvalid⟩⟩
    · obtain ⟨key, hkey, -, hnone⟩ := hfree q hq
      exact ⟨key, hkey, hnone⟩
    · rw [List.map_cons, List.nodup_cons]
      refine ⟨fun hmem => ?_, hnodup⟩
      obtain ⟨q, hq, heq⟩ := List.mem_map.mp hmem
      obtain ⟨key, hkey, hne, -⟩ := hfree q hq
      rw [hkey, hp] at heq
      exact hne (Option.some.inj heq)

/-- Pipelines can be added one after the other if and only if they are addable together. -/
theorem exists_foldlM_add_iff : (∃ d, ps.foldlM add c = .ok d) ↔ c.Addable ps := by
  induction ps generalizing c with
  | nil =>
    exact ⟨fun _ => ⟨List.forall_mem_nil _, List.nodup_nil, List.forall_mem_nil _⟩,
      fun _ => ⟨c, rfl⟩⟩
  | cons p ps ih =>
    rw [addable_cons_iff]
    simp only [foldlM_cons_eq_ok_iff, ← ih]
    constructor
    · rintro ⟨d, c', hadd, h⟩
      exact ⟨c', hadd, d, h⟩
    · rintro ⟨c', hadd, d, h⟩
      exact ⟨d, c', hadd, h⟩

/-- What is found in the end was found before, or is one of the pipelines that were added. -/
theorem get?_of_foldlM_add (h : ps.foldlM add c = .ok d) :
    d.get? url = some p ↔ (p ∈ ps ∧ p.url = some url) ∨ c.get? url = some p := by
  induction ps generalizing c with
  | nil =>
    cases h
    simp
  | cons q ps ih =>
    obtain ⟨c', hadd, h⟩ := foldlM_cons_eq_ok_iff.mp h
    rw [ih h, get?_of_add hadd, List.mem_cons, or_and_right, or_assoc, or_left_comm]

/-- Where all calls succeed, they lead to the collection that they lead to anyway. -/
theorem afterEntering_of_foldlM_add (h : ps.foldlM add c = .ok d) : c.afterEntering ps = d := by
  induction ps generalizing c with
  | nil =>
    cases h
    rfl
  | cons p ps ih =>
    obtain ⟨c', hadd, h⟩ := foldlM_cons_eq_ok_iff.mp h
    show ((enter p).run c).2.afterEntering ps = d
    rw [run_enter_eq_ok_iff.mpr hadd]
    exact ih h

/-! ## The collection of a list -/

/-- A list of pipelines makes a collection if and only if each has a URL of its own and is valid. -/
theorem exists_ofPipelines_iff : (∃ c, ofPipelines ps = .ok c) ↔
    (∀ p ∈ ps, ∃ url, p.url = some url) ∧ (ps.map (·.url)).Nodup ∧
      ∀ p ∈ ps, ∃ v, p.validate none = .ok v := by
  unfold ofPipelines
  rw [exists_foldlM_add_iff]
  constructor
  · rintro ⟨hurl, hnodup, hvalid⟩
    refine ⟨fun p hp => ?_, hnodup, hvalid⟩
    obtain ⟨url, hp, -⟩ := hurl p hp
    exact ⟨url, hp⟩
  · rintro ⟨hurl, hnodup, hvalid⟩
    refine ⟨fun p hp => ?_, hnodup, hvalid⟩
    obtain ⟨url, hp⟩ := hurl p hp
    exact ⟨url, hp, rfl⟩

/-- A collection binds the URLs of its pipelines to them. -/
theorem get?_of_ofPipelines (h : ofPipelines ps = .ok c) :
    c.get? url = some p ↔ p ∈ ps ∧ p.url = some url := by
  rw [get?_of_foldlM_add h]
  exact or_iff_left fun hnone => nomatch hnone

/-- The order of the pipelines does not matter. -/
theorem ofPipelines_of_perm {ps' : List Pipeline} (hperm : ps.Perm ps')
    (h : ofPipelines ps = .ok c) : ofPipelines ps' = .ok c := by
  obtain ⟨hurl, hnodup, hvalid⟩ := exists_ofPipelines_iff.mp ⟨c, h⟩
  obtain ⟨c', h'⟩ : ∃ c', ofPipelines ps' = .ok c' :=
    exists_ofPipelines_iff.mpr ⟨fun p hp => hurl p (hperm.mem_iff.mpr hp),
      (hperm.map _).nodup_iff.mp hnodup, fun p hp => hvalid p (hperm.mem_iff.mpr hp)⟩
  have heq : c' = c := ext fun url => Option.ext fun p => by
    rw [get?_of_ofPipelines h', get?_of_ofPipelines h, hperm.mem_iff]
  rw [h', heq]

/-- The pipelines of a sound collection are those that it finds under their URLs. -/
theorem Sound.mem_toList_iff (hc : c.Sound) :
    p ∈ c.toList ↔ ∃ url, p.url = some url ∧ c.get? url = some p := by
  unfold toList
  rw [List.mem_map]
  constructor
  · rintro ⟨⟨url, q⟩, hmem, rfl⟩
    have hget : c.get? url = some q := Bindings.get?_eq_some_iff_mem.mpr hmem
    exact ⟨url, (hc url q hget).1, hget⟩
  · rintro ⟨url, -, hget⟩
    exact ⟨(url, p), Bindings.get?_eq_some_iff_mem.mp hget, rfl⟩

/-- A sound collection is the collection of its pipelines. -/
theorem Sound.ofPipelines_toList (hc : c.Sound) : ofPipelines c.toList = .ok c := by
  have hurls : c.toList.map (·.url) = c.urls.map some := by
    unfold toList urls Bindings.keys
    rw [List.map_map, List.map_map]
    refine List.map_congr_left fun e he => ?_
    exact (hc e.1 e.2 (Bindings.get?_eq_some_iff_mem.mpr he)).1
  have hnodup : (c.toList.map (·.url)).Nodup := by
    rw [hurls]
    refine List.pairwise_map.mpr (c.pipelines.keys_nodup.imp fun hne heq => ?_)
    exact hne (Option.some.inj heq)
  obtain ⟨d, hd⟩ : ∃ d, ofPipelines c.toList = .ok d := by
    refine exists_ofPipelines_iff.mpr ⟨fun p hp => ?_, hnodup, fun p hp => ?_⟩
    · obtain ⟨url, hurl, -⟩ := hc.mem_toList_iff.mp hp
      exact ⟨url, hurl⟩
    · obtain ⟨url, -, hget⟩ := hc.mem_toList_iff.mp hp
      exact (hc url p hget).2
  have heq : d = c := ext fun url => Option.ext fun p => by
    rw [get?_of_ofPipelines hd, hc.mem_toList_iff]
    constructor
    · rintro ⟨⟨key, hkey, hget⟩, hurl⟩
      rw [hkey] at hurl
      rwa [Option.some.inj hurl] at hget
    · intro hget
      exact ⟨⟨url, (hc url p hget).1, hget⟩, (hc url p hget).1⟩
  rw [hd, heq]

/-- A sound collection is read back from its text. -/
theorem Sound.ofJsonText_eq (hc : c.Sound) : ofJsonText c.toJsonText = .ok c := by
  have hreadable : (Json.array (c.toList.map Pipeline.toJson)).Readable :=
    Json.itemsReadableAt_map (fun p => p.toJson_readableAt 121) _
  unfold ofJsonText toJsonText
  rw [Json.read?_pretty hreadable, Option.bind_some, Json.list?_map Pipeline.ofJson?_toJson]
  exact hc.ofPipelines_toList

/-- **A collection holds what could be entered.** After any sequence of calls of `enter`, each
pipeline that it holds stands under its own URL and is valid; and a call that fails leaves any
collection as it was. So a list of pipelines makes a collection if and only if each of them has a
URL, the URLs differ, and each is valid; this is the collection of any other order of the list. And
what the calls lead to, and so what a list makes, is read back from its text. -/
theorem entered_pipelines_kept (ps : List Pipeline) :
    (∀ url p, (afterEntering {} ps).get? url = some p →
      p.url = some url ∧ ∃ v, p.validate none = .ok v) ∧
    (∀ c p e d, (enter p).run c = (.error e, d) → d = c) ∧
    ((∃ c, ofPipelines ps = .ok c) ↔
      (∀ p ∈ ps, ∃ url, p.url = some url) ∧ (ps.map (·.url)).Nodup ∧
        ∀ p ∈ ps, ∃ v, p.validate none = .ok v) ∧
    (∀ c, ofPipelines ps = .ok c → c = afterEntering {} ps ∧
      ∀ ps', ps.Perm ps' → ofPipelines ps' = .ok c) ∧
    ofJsonText (afterEntering {} ps).toJsonText = .ok (afterEntering {} ps) := by
  have hsound : (afterEntering {} ps).Sound := Sound.empty.afterEntering ps
  refine ⟨hsound, fun c p e d => run_enter_of_error, exists_ofPipelines_iff, fun c h => ?_,
    hsound.ofJsonText_eq⟩
  exact ⟨(afterEntering_of_foldlM_add h).symm, fun ps' hperm => ofPipelines_of_perm hperm h⟩

end Collection

/-- A pipeline that gives back its input. -/
def Pipeline.echo (url : String) : Pipeline :=
  { url := some url, title := "Echo", dialectVersion := "1.0.0", description := none
    parameters := [{ name := "text", isInput := true, isOutput := true }]
    tasks := [], knowledge := [] }

namespace Collection

/-- Two pipelines with URLs of their own make one collection in either order, which is read back
from its text. -/
theorem echoes_kept : ∃ c,
    ofPipelines [.echo "https://example.com/b.ptbk.md", .echo "https://example.com/a.ptbk.md"] =
      .ok c ∧
    ofPipelines [.echo "https://example.com/a.ptbk.md", .echo "https://example.com/b.ptbk.md"] =
      .ok c ∧
    ofJsonText c.toJsonText = .ok c := by
  obtain ⟨-, -, hiff, hlist, htext⟩ := entered_pipelines_kept
    [.echo "https://example.com/b.ptbk.md", .echo "https://example.com/a.ptbk.md"]
  have hvalid (url : String) : ∃ v, (Pipeline.echo url).validate none = .ok v := ⟨_, rfl⟩
  obtain ⟨c, hc⟩ := hiff.mpr ⟨by simp [Pipeline.echo], by decide, by simp [hvalid]⟩
  obtain ⟨heq, hperm⟩ := hlist c hc
  exact ⟨c, hc, hperm _ (.swap _ _ _), heq ▸ htext⟩

end Collection

end PromptPipeline
