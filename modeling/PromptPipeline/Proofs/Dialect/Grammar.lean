import PromptPipeline.Dialect.Command
import PromptPipeline.Proofs.Text.Spelling

/-!
# The grammar of commands

Each form of a command has a language, the pattern of its list items (`Form.language`). Some are
phrases, matched word by word; a joker and a declaration have a name in braces, which may have white
space in it. A form reads the items in its language and no others.

Main statement: `Form.isSome_read?_iff`.
-/

namespace PromptPipeline

open Text

/-! ## The languages -/

/-- A text in braces. -/
def inBraces : Language Char :=
  {s | ∃ name, '\x7d' ∉ name ∧ s = '\x7b' :: (name ++ ['\x7d'])}

/-- The words of the execution type. -/
def ExecutionType.keywords : ExecutionType → List String
  | .promptTemplate => ["PROMPT", "TEMPLATE"]
  | .simpleTemplate => ["SIMPLE", "TEMPLATE"]
  | .script => ["SCRIPT"]
  | .promptDialog => ["PROMPT", "DIALOG"]

/-- The texts that spell the execution type. -/
def ExecutionType.language (type : ExecutionType) : Language Char :=
  phrase (type.keywords.map keyword)

/-- The texts that say what may come before the name of an execution type: nothing, or its
keyword. -/
def executeLead : Language Char :=
  1 + keyword "EXECUTE" * gap

/-- The facets of a parameter before the keyword of its declaration. -/
def facetsLead : Language Char :=
  1 + (keyword "INPUT" * gap * keyword "OUTPUT" + keyword "INPUT" + keyword "OUTPUT") * gap

/-- A declaration without facets: the keyword, the name in braces, and a description on one line. -/
def bareDeclaration : Language Char :=
  anyOf ["PARAM", "PARAMETER"] * gap * inBraces * many isBlank * many (· != '\n')

/-- The items of the form. -/
def Form.language : Form → Language Char
  | .pipelineUrl => phrase [anyOf ["PIPELINE", "PROMPTBOOK"], keyword "URL", solid]
  | .dialectVersion => phrase [anyOf ["PROMPTBOOK", "PTBK"], keyword "VERSION", solid]
  | .execute =>
    executeLead * (ExecutionType.promptTemplate.language + ExecutionType.simpleTemplate.language +
      ExecutionType.script.language + ExecutionType.promptDialog.language)
  | .modelVariant =>
    phrase [keyword "MODEL", keyword "VARIANT", anyOf ["CHAT", "COMPLETION"]]
  | .modelName => phrase [keyword "MODEL", keyword "NAME", solid]
  | .modelMaxTokens => phrase [keyword "MODEL", keyword "MAX", keyword "TOKENS", solid]
  | .joker => keyword "JOKER" * gap * inBraces
  | .parameter => facetsLead * bareDeclaration
  | .postprocess => phrase [anyOf ["POSTPROCESS", "POSTPROCESSING"], solid]
  | .expectAmount =>
    phrase [keyword "EXPECT", anyOf ["EXACTLY", "MIN", "MINIMUM", "MAX", "MAXIMUM"], solid, letters]
  | .expectFormat => keyword "EXPECT" * gap * (1 + keyword "FORMAT" * gap) * keyword "JSON"

variable {s t w g name : List Char}

/-! ## Execution types -/

/-- The words name the execution type. -/
def ExecutionType.NamedBy (type : ExecutionType) (kind : List (List Char)) : Prop :=
  List.Forall₂ (· ∈ ·) kind (type.keywords.map keyword)

theorem namesExecutionType_iff {kind : List (List Char)} :
    namesExecutionType kind = true ↔ ∃ type : ExecutionType, type.NamedBy kind := by
  constructor
  · intro h
    unfold namesExecutionType at h
    split at h
    next a => exact ⟨.script, .cons h .nil⟩
    next a b =>
      simp only [Bool.or_eq_true, Bool.and_eq_true, spellsAny, List.any_cons, List.any_nil,
        Bool.or_false] at h
      rcases h with ⟨hprompt | hsimple, htemplate⟩ | ⟨hprompt, hdialog⟩
      · exact ⟨.promptTemplate, .cons hprompt (.cons htemplate .nil)⟩
      · exact ⟨.simpleTemplate, .cons hsimple (.cons htemplate .nil)⟩
      · exact ⟨.promptDialog, .cons hprompt (.cons hdialog .nil)⟩
    next => cases h
  · rintro ⟨type, h⟩
    cases type with
    | script =>
      obtain ⟨a, _, ha, hnil, rfl⟩ := List.forall₂_cons_right_iff.mp h
      obtain rfl := List.forall₂_nil_right_iff.mp hnil
      exact ha
    | promptTemplate | simpleTemplate | promptDialog =>
      obtain ⟨a, _, ha, hrest, rfl⟩ := List.forall₂_cons_right_iff.mp h
      obtain ⟨b, _, hb, hnil, rfl⟩ := List.forall₂_cons_right_iff.mp hrest
      obtain rfl := List.forall₂_nil_right_iff.mp hnil
      simp [namesExecutionType, spellsAny, mem_keyword.mp ha, mem_keyword.mp hb]

theorem ExecutionType.isKeyword_keywords (type : ExecutionType) :
    ∀ k ∈ "EXECUTE" :: type.keywords, IsKeyword k := by
  cases type <;> decide

/-- No execution type is called like the command. -/
theorem ExecutionType.NamedBy.head_ne_execute {type : ExecutionType} {first : List Char}
    {rest : List (List Char)} (h : type.NamedBy (first :: rest)) :
    spells "EXECUTE" first = false := by
  cases type <;>
    exact spells_eq_false (List.forall₂_cons.mp h).1 (by decide)

namespace Form

theorem mem_execute_iff :
    s ∈ Form.execute.language ↔ ∃ type : ExecutionType, s ∈ executeLead * type.language := by
  simp only [language, mul_add, Language.mem_add]
  constructor
  · rintro (((h | h) | h) | h) <;> exact ⟨_, h⟩
  · rintro ⟨type, h⟩
    cases type with
    | promptTemplate => exact .inl (.inl (.inl h))
    | simpleTemplate => exact .inl (.inl (.inr h))
    | script => exact .inl (.inr h)
    | promptDialog => exact .inr h

theorem mem_lead_phrase {L : Language Char} {Ls : List (Language Char)} :
    s ∈ executeLead * phrase (L :: Ls) ↔
      s ∈ phrase (L :: Ls) ∨ s ∈ phrase (keyword "EXECUTE" :: L :: Ls) := by
  unfold executeLead
  rw [add_mul, one_mul, Language.mem_add]
  rfl

theorem mem_expectFormat_iff : s ∈ Form.expectFormat.language ↔
    s ∈ phrase (["EXPECT", "JSON"].map keyword) ∨
      s ∈ phrase (["EXPECT", "FORMAT", "JSON"].map keyword) := by
  simp only [language, phrase, List.map, mul_add, add_mul, mul_one, mul_assoc, Language.mem_add]

theorem mem_joker_iff : s ∈ Form.joker.language ↔
    ∃ w ∈ keyword "JOKER", ∃ g ∈ gap, ∃ name, '\x7d' ∉ name ∧
      s = w ++ (g ++ '\x7b' :: (name ++ ['\x7d'])) := by
  simp only [language, Language.mem_mul]
  constructor
  · rintro ⟨_, ⟨w, hw, g, hg, rfl⟩, _, ⟨name, hname, rfl⟩, rfl⟩
    exact ⟨w, hw, g, hg, name, hname, List.append_assoc ..⟩
  · rintro ⟨w, hw, g, hg, name, hname, rfl⟩
    exact ⟨_, ⟨w, hw, g, hg, rfl⟩, _, ⟨name, hname, rfl⟩, List.append_assoc ..⟩

end Form

/-! ## Braces -/

theorem head?_braced (rest : List Char) : ∀ c ∈ ('\x7b' :: rest).head?, isBlank c = false := by
  intro c hc
  obtain rfl := Option.some.inj hc
  decide

theorem bracedText?_eq_some_iff :
    bracedText? s = some (name, t) ↔ '\x7d' ∉ name ∧ s = '\x7b' :: (name ++ '\x7d' :: t) := by
  constructor
  · intro h
    unfold bracedText? at h
    split at h
    next rest =>
      obtain ⟨c, rfl, hc, hname⟩ := eq_append_of_splitOnce? h
      obtain rfl : c = '\x7d' := by simpa using hc
      exact ⟨fun hmem => by simpa using hname _ hmem, rfl⟩
    next => cases h
  · rintro ⟨hname, rfl⟩
    refine splitOnce?_append (fun c hc => ?_) (by simp)
    simpa using ne_of_mem_of_not_mem hc hname

/-- A joker has its name in braces behind the keyword, and nothing behind them. -/
theorem jokerText?_eq_some_iff : jokerText? s = some name ↔ ∃ w ∈ keyword "JOKER", ∃ g ∈ gap,
    '\x7d' ∉ name ∧ s = w ++ (g ++ '\x7b' :: (name ++ ['\x7d'])) := by
  constructor
  · intro h
    obtain ⟨⟨w, rest⟩, hfirst, hjoker⟩ := Option.bind_eq_some_iff.mp h
    obtain ⟨g, hg, rfl, -, -⟩ := firstWord?_eq_some_iff.mp hfirst
    dsimp only at hjoker
    split at hjoker
    next hw =>
      obtain ⟨⟨text, after⟩, hbraced, hend⟩ := Option.bind_eq_some_iff.mp hjoker
      obtain ⟨hname, rfl⟩ := bracedText?_eq_some_iff.mp hbraced
      split at hend
      next heq =>
        cases heq
        cases hend
        exact ⟨w, hw, g, hg, hname, rfl⟩
      next => cases hend
    next => cases hjoker
  · rintro ⟨w, hw, g, hg, hname, rfl⟩
    have hfirst := firstWord?_append (keyword_le_solid (by decide) hw) hg
      (head?_braced (name ++ ['\x7d']))
    have hbraced := bracedText?_eq_some_iff.mpr ⟨hname, Eq.refl ('\x7b' :: (name ++ ['\x7d']))⟩
    unfold jokerText?
    simp [hfirst, hbraced, mem_keyword.mp hw]

theorem isSome_jokerText?_iff : (jokerText? s).isSome = true ↔ s ∈ Form.joker.language := by
  rw [Form.mem_joker_iff, Option.isSome_iff_exists]
  simp only [jokerText?_eq_some_iff]
  constructor
  · rintro ⟨name, w, hw, g, hg, h⟩
    exact ⟨w, hw, g, hg, name, h⟩
  · rintro ⟨w, hw, g, hg, name, h⟩
    exact ⟨name, w, hw, g, hg, h⟩

/-! ## Declarations -/

theorem mem_bareDeclaration : s ∈ bareDeclaration ↔
    ∃ w ∈ anyOf ["PARAM", "PARAMETER"], ∃ g ∈ gap, ∃ name rest, '\x7d' ∉ name ∧
      s = w ++ (g ++ '\x7b' :: (name ++ '\x7d' :: rest)) ∧ '\n' ∉ trimStart rest := by
  unfold bareDeclaration
  simp only [Language.mem_mul]
  constructor
  · rintro ⟨_, ⟨_, ⟨_, ⟨w, hw, g, hg, rfl⟩, _, ⟨name, hname, rfl⟩, rfl⟩, b, hb, rfl⟩, l, hl, rfl⟩
    refine ⟨w, hw, g, hg, name, b ++ l, hname, by simp, fun hmem => ?_⟩
    unfold trimStart at hmem
    rw [List.dropWhile_append_of_pos hb] at hmem
    exact absurd (hl _ ((List.dropWhile_sublist _).mem hmem)) (by simp)
  · rintro ⟨w, hw, g, hg, name, rest, hname, rfl, hline⟩
    refine ⟨_, ⟨_, ⟨_, ⟨w, hw, g, hg, rfl⟩, _, ⟨name, hname, rfl⟩, rfl⟩, rest.takeWhile isBlank,
      fun c hc => List.mem_takeWhile_imp hc, rfl⟩, trimStart rest, fun c hc => ?_, ?_⟩
    · simpa using ne_of_mem_of_not_mem hc hline
    · unfold trimStart
      simp [List.takeWhile_append_dropWhile]

/-- The declaration starts behind the facets that are found. -/
theorem exists_lead_of_facetsOfItem? {isInput isOutput : Bool}
    (h : facetsOfItem? s = some (isInput, isOutput, t)) : ∃ lead ∈ facetsLead, s = lead ++ t := by
  obtain ⟨⟨w, rest⟩, hfirst, hrest⟩ := Option.bind_eq_some_iff.mp h
  obtain ⟨g, hg, rfl, -, -⟩ := firstWord?_eq_some_iff.mp hfirst
  dsimp only at hrest
  split at hrest
  next hinput =>
    obtain ⟨⟨v, after⟩, hsecond, hend⟩ := Option.bind_eq_some_iff.mp hrest
    obtain ⟨g', hg', rfl, -, -⟩ := firstWord?_eq_some_iff.mp hsecond
    dsimp only at hend
    split at hend
    next houtput =>
      cases hend
      exact ⟨w ++ g ++ v ++ g',
        .inr ⟨_, .inl (.inl ⟨_, ⟨w, hinput, g, hg, rfl⟩, v, houtput, rfl⟩), g', hg', rfl⟩, by simp⟩
    next =>
      cases hend
      exact ⟨w ++ g, .inr ⟨w, .inl (.inr hinput), g, hg, rfl⟩, by simp⟩
  next =>
    split at hrest
    next houtput =>
      cases hrest
      exact ⟨w ++ g, .inr ⟨w, .inr houtput, g, hg, rfl⟩, by simp⟩
    next =>
      cases hrest
      exact ⟨[], .inl rfl, rfl⟩

/-- The facets are found before the keyword of a declaration. -/
theorem exists_facetsOfItem?_eq_some {lead : List Char} (hlead : lead ∈ facetsLead)
    (hw : w ∈ anyOf ["PARAM", "PARAMETER"]) (hg : g ∈ gap)
    (ht : ∀ c ∈ t.head?, isBlank c = false) : ∃ isInput isOutput,
      facetsOfItem? (lead ++ (w ++ (g ++ t))) = some (isInput, isOutput, w ++ (g ++ t)) := by
  have hsolid : w ∈ solid := anyOf_le_solid (by decide) hw
  have hfirst := firstWord?_append hsolid hg ht
  have hstart := head?_solid_append hsolid (g ++ t)
  have hdiffer : ∀ k ∈ ["PARAM", "PARAMETER"], folded k.toList ≠ folded "INPUT".toList ∧
      folded k.toList ≠ folded "OUTPUT".toList := by decide
  obtain ⟨k, hk, hspells⟩ := spellsAny_iff.mp hw
  have hinput := spells_eq_false hspells (hdiffer k hk).1
  have houtput := spells_eq_false hspells (hdiffer k hk).2
  unfold facetsOfItem?
  -- nothing, both facets, an input, or an output
  rcases hlead with rfl | ⟨_, (⟨_, ⟨i, hi, g₁, hg₁, rfl⟩, o, ho, rfl⟩ | hi) | ho, g₂, hg₂, rfl⟩
  · exact ⟨false, false, by simp [hfirst, hinput, houtput]⟩
  · have hisolid : i ∈ solid := keyword_le_solid (by decide) hi
    have hosolid : o ∈ solid := keyword_le_solid (by decide) ho
    have hsecond := firstWord?_append hosolid hg₂ hstart
    have hthird := firstWord?_append hisolid hg₁
      (head?_solid_append hosolid (g₂ ++ (w ++ (g ++ t))))
    exact ⟨true, true, by simp [hsecond, hthird, mem_keyword.mp hi, mem_keyword.mp ho]⟩
  · have hsecond := firstWord?_append (keyword_le_solid (by decide) hi) hg₂ hstart
    exact ⟨true, false, by simp [hfirst, hsecond, mem_keyword.mp hi, houtput]⟩
  · have hsecond := firstWord?_append (keyword_le_solid (by decide) ho) hg₂ hstart
    have hnot := spells_eq_false (k := "INPUT") ho (by decide)
    exact ⟨false, true, by simp [hsecond, hnot, mem_keyword.mp ho]⟩

/-- A declaration starts with its keyword or that of a facet. -/
theorem exists_firstWord_of_mem_parameter (h : s ∈ Form.parameter.language) :
    ∃ w ∈ anyOf ["INPUT", "OUTPUT", "PARAM", "PARAMETER"], ∃ g ∈ gap, ∃ t, s = w ++ (g ++ t) := by
  have hsub {ks ks' : List String} (hks : ks ⊆ ks') {w : List Char} (hw : w ∈ anyOf ks) :
      w ∈ anyOf ks' := by
    obtain ⟨k, hk, hspells⟩ := spellsAny_iff.mp hw
    exact spellsAny_iff.mpr ⟨k, hks hk, hspells⟩
  have hkeyword {k : String} {w : List Char} (hw : w ∈ keyword k) : w ∈ anyOf [k] :=
    spellsAny_iff.mpr ⟨k, List.mem_singleton_self k, hw⟩
  obtain ⟨lead, hlead, bare, hbare, rfl⟩ := h
  rcases hlead with rfl | ⟨_, (⟨_, ⟨i, hi, g₁, hg₁, rfl⟩, o, -, rfl⟩ | hi) | ho, g₂, hg₂, rfl⟩
  · obtain ⟨w, hw, g, hg, name, rest, -, rfl, -⟩ := mem_bareDeclaration.mp hbare
    exact ⟨w, hsub (by decide) hw, g, hg, _, rfl⟩
  · exact ⟨i, hsub (by decide) (hkeyword hi), g₁, hg₁, o ++ (g₂ ++ bare), by simp⟩
  · exact ⟨_, hsub (by decide) (hkeyword hi), g₂, hg₂, bare, List.append_assoc ..⟩
  · exact ⟨_, hsub (by decide) (hkeyword ho), g₂, hg₂, bare, List.append_assoc ..⟩

/-- A declaration gives the text in its braces and what is behind them. -/
theorem exists_declarationParts?_eq_some {lead rest : List Char} (hlead : lead ∈ facetsLead)
    (hw : w ∈ anyOf ["PARAM", "PARAMETER"]) (hg : g ∈ gap) (hname : '\x7d' ∉ name)
    (hline : '\n' ∉ trimStart rest) : ∃ isInput isOutput,
      declarationParts? (lead ++ (w ++ (g ++ '\x7b' :: (name ++ '\x7d' :: rest)))) =
        some (isInput, isOutput, name, trimStart rest) := by
  have hstart := head?_braced (name ++ '\x7d' :: rest)
  obtain ⟨isInput, isOutput, hfacets⟩ := exists_facetsOfItem?_eq_some hlead hw hg hstart
  have hfirst := firstWord?_append (anyOf_le_solid (by decide) hw) hg hstart
  have hbraced := bracedText?_eq_some_iff.mpr
    ⟨hname, Eq.refl ('\x7b' :: (name ++ '\x7d' :: rest))⟩
  refine ⟨isInput, isOutput, ?_⟩
  unfold declarationParts?
  simp [hfacets, hfirst, hbraced, mem_anyOf.mp hw, hline]

theorem isSome_declarationParts?_iff :
    (declarationParts? s).isSome = true ↔ s ∈ Form.parameter.language := by
  rw [Option.isSome_iff_exists]
  constructor
  · rintro ⟨parts, h⟩
    obtain ⟨⟨isInput, isOutput, bare⟩, hfacets, hbare⟩ := Option.bind_eq_some_iff.mp h
    obtain ⟨⟨w, rest⟩, hfirst, hrest⟩ := Option.bind_eq_some_iff.mp hbare
    obtain ⟨g, hg, rfl, -, -⟩ := firstWord?_eq_some_iff.mp hfirst
    dsimp only at hrest
    split at hrest
    next hw =>
      obtain ⟨⟨name, after⟩, hbraced, hend⟩ := Option.bind_eq_some_iff.mp hrest
      obtain ⟨hname, rfl⟩ := bracedText?_eq_some_iff.mp hbraced
      dsimp only at hend
      split at hend
      next => cases hend
      next hline =>
        obtain ⟨lead, hlead, rfl⟩ := exists_lead_of_facetsOfItem? hfacets
        exact ⟨lead, hlead, _, mem_bareDeclaration.mpr
          ⟨w, hw, g, hg, name, after, hname, rfl, by simpa using hline⟩, rfl⟩
    next => cases hrest
  · rintro ⟨lead, hlead, bare, hbare, rfl⟩
    obtain ⟨w, hw, g, hg, name, rest, hname, rfl, hline⟩ := mem_bareDeclaration.mp hbare
    obtain ⟨isInput, isOutput, hparts⟩ := exists_declarationParts?_eq_some hlead hw hg hname hline
    exact ⟨_, hparts⟩

/-! ## Forms and their languages -/

namespace Form

theorem mem_lead_language {type : ExecutionType} : s ∈ executeLead * type.language ↔
    s ∈ phrase (type.keywords.map keyword) ∨
      s ∈ phrase (("EXECUTE" :: type.keywords).map keyword) := by
  cases type <;> exact mem_lead_phrase

/-- The words behind the keyword of an execution command, or all of them without it, name an
execution type. -/
theorem mem_lead_iff (hs : Trimmed s) (type : ExecutionType) :
    s ∈ executeLead * type.language ↔ type.NamedBy (words s) ∨
      ∃ first kind, words s = first :: kind ∧ spells "EXECUTE" first = true ∧ type.NamedBy kind := by
  have hkeywords := type.isKeyword_keywords
  rw [mem_lead_language,
    mem_phrase_iff (keywords_le_solid (List.forall_mem_cons.mp hkeywords).2) hs,
    mem_phrase_iff (keywords_le_solid hkeywords) hs, List.map_cons, List.forall₂_cons_right_iff]
  exact or_congr Iff.rfl ⟨fun ⟨first, kind, hfirst, hkind, heq⟩ => ⟨first, kind, heq, hfirst, hkind⟩,
    fun ⟨first, kind, heq, hfirst, hkind⟩ => ⟨first, kind, hfirst, hkind, heq⟩⟩

/-- An item that says an execution type is read with the type that its last words have in ASCII
capitals. -/
theorem read?_execute_of_mem (hs : Trimmed s) {type : ExecutionType}
    (h : s ∈ executeLead * type.language) : ∃ lead kind, words s = lead ++ kind ∧
      (∀ w ∈ lead, spells "EXECUTE" w = true) ∧ type.NamedBy kind ∧
      Form.execute.read? s = some (.ok (.execute (executionTypeOfWords kind))) := by
  rcases (mem_lead_iff hs type).mp h with hkind | ⟨first, kind, heq, hfirst, hkind⟩
  · refine ⟨[], words s, rfl, List.forall_mem_nil _, hkind, ?_⟩
    have hnames := namesExecutionType_iff.mpr ⟨type, hkind⟩
    unfold read?
    cases hwords : words s with
    | nil => cases hwords ▸ hnames
    | cons first rest =>
      rw [hwords] at hkind hnames
      simp [hkind.head_ne_execute, hnames]
  · refine ⟨[first], kind, heq, List.forall_mem_singleton.mpr hfirst, hkind, ?_⟩
    unfold read?
    simp [heq, hfirst, namesExecutionType_iff.mpr ⟨type, hkind⟩]

theorem isSome_read?_execute (hs : Trimmed s) :
    (Form.execute.read? s).isSome = true ↔ s ∈ Form.execute.language := by
  rw [mem_execute_iff]
  constructor
  · intro h
    unfold read? at h
    cases hwords : words s with
    | nil => simp [hwords] at h
    | cons first kind =>
      simp only [hwords] at h
      split at h
      next hexecute =>
        obtain ⟨hfirst, hnames⟩ := Bool.and_eq_true_iff.mp hexecute
        obtain ⟨type, hkind⟩ := namesExecutionType_iff.mp hnames
        exact ⟨type, (mem_lead_iff hs type).mpr (.inr ⟨first, kind, hwords, hfirst, hkind⟩)⟩
      next =>
        split at h
        next hnames =>
          obtain ⟨type, hkind⟩ := namesExecutionType_iff.mp hnames
          exact ⟨type, (mem_lead_iff hs type).mpr (.inl (hwords ▸ hkind))⟩
        next => cases h
  · rintro ⟨type, h⟩
    obtain ⟨_, kind, -, -, -, hread⟩ := read?_execute_of_mem hs h
    rw [hread]
    rfl

/-- **A form reads the items in its language, and no others.** -/
theorem isSome_read?_iff (f : Form) (hs : Trimmed s) :
    (f.read? s).isSome = true ↔ s ∈ f.language := by
  have hsolid : ∀ w ∈ words s, w ∈ solid := fun _ => solid_of_mem_words
  cases f
  case execute => exact isSome_read?_execute hs
  case joker =>
    unfold read?
    rw [Option.isSome_map]
    exact isSome_jokerText?_iff
  case parameter =>
    unfold read?
    rw [Option.isSome_map]
    exact isSome_declarationParts?_iff
  case expectFormat =>
    rw [mem_expectFormat_iff, mem_phrase_iff (keywords_le_solid (by decide)) hs,
      mem_phrase_iff (keywords_le_solid (by decide)) hs]
    unfold read?
    generalize words s = ws at hsolid
    rcases ws with _ | ⟨a, _ | ⟨b, _ | ⟨c, _ | ⟨d, ws⟩⟩⟩⟩ <;> simp_all [mem_keyword, and_assoc]
  -- the other forms are phrases of two to four words
  all_goals
    rw [language, mem_phrase_iff
      (by simp (disch := decide) [keyword_le_solid, anyOf_le_solid, letters_le_solid]) hs]
    unfold read?
    generalize words s = ws at hsolid
    rcases ws with _ | ⟨a, _ | ⟨b, _ | ⟨c, _ | ⟨d, _ | ⟨e, ws⟩⟩⟩⟩⟩ <;>
      simp_all [mem_keyword, mem_anyOf, mem_letters_of_solid, and_assoc]
  case modelVariant =>
    rw [spellsAny_iff]
    split_ifs <;> simp_all

end Form

end PromptPipeline
