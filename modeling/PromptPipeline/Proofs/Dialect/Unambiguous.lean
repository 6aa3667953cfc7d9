import PromptPipeline.Proofs.Dialect.Grammar

/-!
# The grammar is unambiguous

The leading words of an item and their number tell the only form that it may have
(`Form.ofWords?`), so the languages of the forms are disjoint. Only one form can read an item, and
it does not matter in which order the forms are tried. What a form reads is never an unknown
command, so an item is unknown if and only if it is in no language.

Main statement: `Command.parse_unambiguous`.
-/

namespace PromptPipeline

open Text

variable {s : List Char}

/-! ## Disjointness -/

namespace Form

/-- The only form whose language may have an item with these words, when case is folded. -/
def ofWords? : List String → Option Form
  | "pipeline" :: _ | "promptbook" :: "url" :: _ => some .pipelineUrl
  | "promptbook" :: _ | "ptbk" :: _ => some .dialectVersion
  | "execute" :: _ | "prompt" :: _ | "simple" :: _ | "script" :: _ => some .execute
  | "model" :: "variant" :: _ => some .modelVariant
  | "model" :: "name" :: _ => some .modelName
  | "model" :: _ => some .modelMaxTokens
  | "joker" :: _ => some .joker
  | "input" :: _ | "output" :: _ | "param" :: _ | "parameter" :: _ => some .parameter
  | "postprocess" :: _ | "postprocessing" :: _ => some .postprocess
  | ["expect", _, _, _] => some .expectAmount
  | "expect" :: _ => some .expectFormat
  | _ => none

theorem ofWords?_execute (h : s ∈ Form.execute.language) :
    ofWords? ((words s).map folded) = some .execute := by
  obtain ⟨type, h⟩ := mem_execute_iff.mp h
  have hkeywords := type.isKeyword_keywords
  rcases mem_lead_language.mp h with h | h
  · rw [map_folded_words (List.forall_mem_cons.mp hkeywords).2 h]
    cases type <;> rfl
  · rw [map_folded_words hkeywords h]
    cases type <;> rfl

theorem ofWords?_parameter (h : s ∈ Form.parameter.language) :
    ofWords? ((words s).map folded) = some .parameter := by
  obtain ⟨w, hw, g, hg, t, rfl⟩ := exists_firstWord_of_mem_parameter h
  have hfolded : folded w ∈ ["input", "output", "param", "parameter"] := folded_mem_of_anyOf hw
  rw [words_append (anyOf_le_solid (by decide) hw) hg, List.map_cons]
  generalize folded w = first at hfolded
  simp only [List.mem_cons, List.not_mem_nil, or_false] at hfolded
  rcases hfolded with rfl | rfl | rfl | rfl <;> rfl

/-- The leading words of an item and their number tell its form. -/
theorem ofWords?_of_mem (f : Form) (h : s ∈ f.language) :
    ofWords? ((words s).map folded) = some f := by
  cases f
  case execute => exact ofWords?_execute h
  case parameter => exact ofWords?_parameter h
  case joker =>
    obtain ⟨w, hw, g, hg, name, -, rfl⟩ := mem_joker_iff.mp h
    have hfolded : folded w = "joker" := spells_iff.mp hw
    rw [words_append (keyword_le_solid (by decide) hw) hg]
    simp [hfolded, ofWords?]
  case expectFormat =>
    rcases mem_expectFormat_iff.mp h with h | h
    · rw [map_folded_words (by decide) h]
      rfl
    · rw [map_folded_words (by decide) h]
      rfl
  -- the other forms are phrases of two to four words
  all_goals
    replace h := forall₂_words_of_mem_phrase
      (by simp (disch := decide) [keyword_le_solid, anyOf_le_solid, letters_le_solid]) h
    simp only [List.forall₂_cons_right_iff, List.forall₂_nil_right_iff] at h
  case pipelineUrl =>
    obtain ⟨a, _, ha, ⟨b, _, hb, ⟨c, _, -, rfl, rfl⟩, rfl⟩, heq⟩ := h
    have ha : folded a = "pipeline" ∨ folded a = "promptbook" :=
      List.mem_pair.mp (folded_mem_of_anyOf ha)
    have hb : folded b = "url" := spells_iff.mp hb
    rcases ha with ha | ha <;> simp [heq, ha, hb, ofWords?]
  case dialectVersion =>
    obtain ⟨a, _, ha, ⟨b, _, hb, ⟨c, _, -, rfl, rfl⟩, rfl⟩, heq⟩ := h
    have ha : folded a = "promptbook" ∨ folded a = "ptbk" :=
      List.mem_pair.mp (folded_mem_of_anyOf ha)
    have hb : folded b = "version" := spells_iff.mp hb
    rcases ha with ha | ha <;> simp [heq, ha, hb, ofWords?]
  case modelVariant =>
    obtain ⟨a, _, ha, ⟨b, _, hb, ⟨c, _, -, rfl, rfl⟩, rfl⟩, heq⟩ := h
    have ha : folded a = "model" := spells_iff.mp ha
    have hb : folded b = "variant" := spells_iff.mp hb
    simp [heq, ha, hb, ofWords?]
  case modelName =>
    obtain ⟨a, _, ha, ⟨b, _, hb, ⟨c, _, -, rfl, rfl⟩, rfl⟩, heq⟩ := h
    have ha : folded a = "model" := spells_iff.mp ha
    have hb : folded b = "name" := spells_iff.mp hb
    simp [heq, ha, hb, ofWords?]
  case modelMaxTokens =>
    obtain ⟨a, _, ha, ⟨b, _, hb, ⟨c, _, -, ⟨d, _, -, rfl, rfl⟩, rfl⟩, rfl⟩, heq⟩ := h
    have ha : folded a = "model" := spells_iff.mp ha
    have hb : folded b = "max" := spells_iff.mp hb
    simp [heq, ha, hb, ofWords?]
  case postprocess =>
    obtain ⟨a, _, ha, ⟨b, _, -, rfl, rfl⟩, heq⟩ := h
    have ha : folded a = "postprocess" ∨ folded a = "postprocessing" :=
      List.mem_pair.mp (folded_mem_of_anyOf ha)
    rcases ha with ha | ha <;> simp [heq, ha, ofWords?]
  case expectAmount =>
    obtain ⟨a, _, ha, ⟨b, _, -, ⟨c, _, -, ⟨d, _, -, rfl, rfl⟩, rfl⟩, rfl⟩, heq⟩ := h
    have ha : folded a = "expect" := spells_iff.mp ha
    simp [heq, ha, ofWords?]

/-- **No item has two forms.** -/
theorem eq_of_mem {f f' : Form} (h : s ∈ f.language) (h' : s ∈ f'.language) : f = f' :=
  Option.some.inj ((ofWords?_of_mem f h).symm.trans (ofWords?_of_mem f' h'))

end Form

/-! ## Faults -/

/-- What was read is a command, even if something is wrong with it. -/
def Recognised {α : Type} (r : Except DialectFault α) : Prop :=
  ∀ text, r ≠ .error (.unknownCommand text)

section

variable {α β : Type} {r : Except DialectFault α}

@[simp]
theorem recognised_ok (a : α) : Recognised (.ok a) :=
  nofun

theorem Recognised.bind {next : α → Except DialectFault β} (h : Recognised r)
    (hnext : ∀ a, Recognised (next a)) : Recognised (r >>= next) := by
  cases r with
  | ok a => exact hnext a
  | error fault =>
    intro text heq
    obtain rfl := Except.error.inj heq
    exact h text rfl

@[simp]
theorem Recognised.map (h : Recognised r) (f : α → β) : Recognised (r.map f) := by
  cases r with
  | ok a => exact recognised_ok (f a)
  | error fault =>
    intro text heq
    obtain rfl := Except.error.inj heq
    exact h text rfl

end

@[simp]
theorem recognised_parameterName (text : List Char) : Recognised (parameterName text) := by
  unfold parameterName
  dsimp only
  split <;> nofun

theorem recognised_amountOfText (text : List Char) : Recognised (amountOfText text) := by
  unfold amountOfText
  split <;> nofun

theorem recognised_unitOfText (text : List Char) : Recognised (unitOfText text) := by
  unfold unitOfText
  dsimp only
  split <;> nofun

@[simp]
theorem recognised_urlCommand (url : List Char) : Recognised (urlCommand url) := by
  unfold urlCommand
  split_ifs <;> nofun

@[simp]
theorem recognised_versionCommand (version : List Char) : Recognised (versionCommand version) := by
  unfold versionCommand
  split_ifs <;> nofun

@[simp]
theorem recognised_maxTokensCommand (text : List Char) : Recognised (maxTokensCommand text) := by
  refine (recognised_amountOfText text).bind fun n => ?_
  split_ifs <;> nofun

@[simp]
theorem recognised_amountCommand (sign text unit : List Char) :
    Recognised (amountCommand sign text unit) :=
  (recognised_amountOfText text).bind fun _ =>
    (recognised_unitOfText unit).bind fun _ => recognised_ok _

@[simp]
theorem recognised_declarationCommand (parts : Bool × Bool × List Char × List Char) :
    Recognised (declarationCommand parts) :=
  (recognised_parameterName parts.2.2.1).bind fun _ => recognised_ok _

namespace Form

variable {f : Form} {r : Except DialectFault Command}

theorem recognised_of_read? (h : f.read? s = some r) : Recognised r := by
  unfold read? at h
  split at h
  all_goals try split_ifs at h
  all_goals first
    | cases h
    | obtain ⟨_, -, rfl⟩ := Option.map_eq_some_iff.mp h
  all_goals simp

/-! ## The order of the forms -/

theorem mem_all (f : Form) : f ∈ Form.all := by
  cases f <;> decide

/-- The form that reads an item reads it wherever it stands among the forms. -/
theorem findSome?_read? (hs : Trimmed s) (hread : f.read? s = some r) {order : List Form}
    (hf : f ∈ order) : order.findSome? (·.read? s) = some r := by
  cases hfirst : order.findSome? (·.read? s) with
  | none => cases hread.symm.trans (List.findSome?_eq_none_iff.mp hfirst f hf)
  | some r' =>
    obtain ⟨f', -, hread'⟩ := List.exists_of_findSome?_eq_some hfirst
    obtain rfl : f' = f :=
      eq_of_mem ((isSome_read?_iff f' hs).mp (Option.isSome_of_eq_some hread'))
        ((isSome_read?_iff f hs).mp (Option.isSome_of_eq_some hread))
    exact hread'.symm.trans hread

end Form

namespace Command

/-- The command of a list item, where the forms are tried in the given order. -/
def ofItemTrying (order : List Form) (item : String) : Except DialectFault Command :=
  let text := trim item.toList
  (order.findSome? (·.read? text)).getD (.error (.unknownCommand (.ofList text)))

/-- The command of the list item on a line, where the forms are tried in the given order. -/
def parseTrying (order : List Form) (item : String) (line : Nat) : Result Command :=
  (ofItemTrying order item).mapError (.dialect line)

theorem parseTrying_all (item : String) (line : Nat) :
    parseTrying Form.all item line = parse item line :=
  rfl

variable {item : String}

theorem parseTrying_of_read? {f : Form} {r : Except DialectFault Command}
    (hread : f.read? (trim item.toList) = some r) {order : List Form} (hf : f ∈ order) (line : Nat) :
    parseTrying order item line = r.mapError (.dialect line) := by
  unfold parseTrying ofItemTrying
  dsimp only
  rw [Form.findSome?_read? (trimmed_trim _) hread hf]
  rfl

theorem parseTrying_of_forall_notMem (hnone : ∀ f : Form, trim item.toList ∉ f.language)
    (order : List Form) (line : Nat) : parseTrying order item line =
      .error (.dialect line (.unknownCommand (.ofList (trim item.toList)))) := by
  have hread : order.findSome? (·.read? (trim item.toList)) = none := by
    refine List.findSome?_eq_none_iff.mpr fun f _ => ?_
    rw [← Option.not_isSome_iff_eq_none, Form.isSome_read?_iff f (trimmed_trim _)]
    exact hnone f
  unfold parseTrying ofItemTrying
  dsimp only
  rw [hread]
  rfl

/-- **The grammar is unambiguous.** A form reads an item if and only if the trimmed item is in its
language, and the languages of two forms have no item in common; so whatever the order in which the
forms are tried, the command is the same. It is unknown if and only if the item is in no language. -/
theorem parse_unambiguous (item : String) :
    (∀ f : Form, (f.read? (trim item.toList)).isSome = true ↔ trim item.toList ∈ f.language) ∧
    (∀ f f' : Form, trim item.toList ∈ f.language → trim item.toList ∈ f'.language → f = f') ∧
    (∀ order : List Form, (∀ f, f ∈ order) → ∀ line,
      parseTrying order item line = parse item line) ∧
    ∀ line, (∃ text, parse item line = .error (.dialect line (.unknownCommand text))) ↔
      ∀ f : Form, trim item.toList ∉ f.language := by
  have hreads (f : Form) := Form.isSome_read?_iff f (trimmed_trim item.toList)
  refine ⟨hreads, fun f f' => Form.eq_of_mem, fun order horder line => ?_, fun line => ⟨?_, ?_⟩⟩
  -- if there is a form that reads the item, each order finds it, and otherwise no order finds any
  · rw [← parseTrying_all]
    by_cases hsome : ∃ f : Form, trim item.toList ∈ f.language
    · obtain ⟨f, hf⟩ := hsome
      obtain ⟨r, hread⟩ := Option.isSome_iff_exists.mp ((hreads f).mpr hf)
      rw [parseTrying_of_read? hread (horder f), parseTrying_of_read? hread (Form.mem_all f)]
    · have hnone : ∀ f : Form, trim item.toList ∉ f.language := not_exists.mp hsome
      rw [parseTrying_of_forall_notMem hnone, parseTrying_of_forall_notMem hnone]
  · rintro ⟨text, hparse⟩ f hf
    obtain ⟨r, hread⟩ := Option.isSome_iff_exists.mp ((hreads f).mpr hf)
    rw [← parseTrying_all, parseTrying_of_read? hread (Form.mem_all f)] at hparse
    cases r with
    | ok command => cases hparse
    | error fault =>
      cases hparse
      exact Form.recognised_of_read? hread text rfl
  · intro hnone
    exact ⟨_, parseTrying_of_forall_notMem hnone Form.all line⟩

end Command

end PromptPipeline
