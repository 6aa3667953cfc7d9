import PromptPipeline.Proofs.Dialect.Forms
import PromptPipeline.Proofs.Dialect.Template

/-!
# Names that templates can use

A template has a placeholder for each name of a parameter that stands in braces somewhere in it, and
so for some template each name of a parameter (`Template.exists_mem_parameters_iff`). A source names
a parameter in a declaration, in a joker or on an arrow line. Each of the three takes the names of
parameters and nothing else, so what a source can name is what a template can use.

Main statement: `Template.mem_parameters_iff_braced`.
-/

namespace PromptPipeline

open Text

variable {name : String}

/-! ## Names as texts -/

theorem isBlank_of_isParameterPart {c : Char} (h : Name.isParameterPart c = true) :
    isBlank c = false := by
  simp only [Name.isParameterPart, Char.isAlphanum, Bool.or_eq_true, beq_iff_eq] at h
  rcases h with (hletter | hdigit) | rfl
  · exact isBlank_of_isAlpha hletter
  · exact isBlank_of_isDigit hdigit
  · decide

theorem ne_nil_of_isParameter {text : List Char} (h : Name.isParameter text = true) :
    text ≠ [] := by
  intro hnil
  rw [hnil] at h
  cases h

theorem notMem_of_isParameterPart {text : List Char} {c : Char} (h : Name.isParameter text = true)
    (hc : Name.isParameterPart c = false) : c ∉ text := by
  intro hmem
  rw [Template.isParameterPart_of_mem h hmem] at hc
  cases hc

/-- The name of a parameter is one word. -/
theorem solid_of_isParameter {text : List Char} (h : Name.isParameter text = true) :
    text ∈ solid :=
  mem_solid.mpr ⟨ne_nil_of_isParameter h, fun _ hc =>
    isBlank_of_isParameterPart (Template.isParameterPart_of_mem h hc)⟩

theorem notMem_of_isParameter {text : List Char} (h : Name.isParameter text = true) :
    '\x7d' ∉ text :=
  notMem_of_isParameterPart h (by decide)

theorem parameterName_of_isParameter (h : Name.isParameter name.toList = true) :
    parameterName name.toList = .ok name := by
  rw [parameterName_eq_ok_iff, trim_of_solid (solid_of_isParameter h)]
  exact ⟨h, name.ofList_toList.symm⟩

theorem isParameter_of_parameterName {text : List Char} (h : parameterName text = .ok name) :
    Name.isParameter name.toList = true := by
  obtain ⟨hname, rfl⟩ := parameterName_eq_ok_iff.mp h
  rw [String.toList_ofList]
  exact hname

/-- A word and a name in braces. -/
def namingItem (word name : String) : String :=
  word ++ " " ++ braced name

theorem toList_namingItem (word name : String) : (namingItem word name).toList =
    word.toList ++ ([' '] ++ '\x7b' :: (name.toList ++ ['\x7d'])) := by
  simp [namingItem, Template.toList_braced]

theorem trim_namingItem {word : String} (hword : word.toList ∈ solid) (name : String) :
    trim (namingItem word name).toList = (namingItem word name).toList := by
  rw [toList_namingItem]
  refine Trimmed.trim_eq ⟨head?_solid_append hword _, fun c hc => ?_⟩
  have hlast : (word.toList ++ ([' '] ++ '\x7b' :: (name.toList ++ ['\x7d']))).getLast? =
      some '\x7d' := by
    simp [List.getLast?_append, List.getLast?_cons]
  obtain rfl := Option.some.inj (hlast.symm.trans hc)
  decide

/-! ## What a source can name -/

/-- A declaration can name each parameter, and nothing else. -/
theorem exists_parse_parameter_iff :
    (∃ item line d, Command.parse item line = .ok (.parameter d) ∧ d.name = name) ↔
      Name.isParameter name.toList = true := by
  constructor
  · intro h
    obtain ⟨item, line, d, hparse, rfl⟩ := h
    have hread := Command.ofItem_eq_ok_iff.mp (Command.parse_eq_ok_iff.mp hparse)
    obtain ⟨⟨isInput, isOutput, text, rest⟩, -, hcommand⟩ := Option.map_eq_some_iff.mp hread
    obtain ⟨name, hname, heq⟩ := declarationCommand_eq_ok_iff.mp hcommand
    obtain rfl := Command.parameter.inj heq
    exact isParameter_of_parameterName hname
  · intro h
    have hword : "PARAMETER".toList ∈ anyOf ["PARAM", "PARAMETER"] := mem_anyOf.mpr (by decide)
    have hsolid : "PARAMETER".toList ∈ solid := anyOf_le_solid (by decide) hword
    have hlead : [] ∈ facetsLead := .inl rfl
    have hline : '\n' ∉ trimStart [] := List.not_mem_nil
    obtain ⟨isInput, isOutput, hparts⟩ := exists_declarationParts?_eq_some hlead hword space_mem_gap
      (notMem_of_isParameter h) hline
    have hread : Form.parameter.read? (trim (namingItem "PARAMETER" name).toList) =
        some (.ok (.parameter ⟨name, none, isInput, isOutput⟩)) := by
      rw [trim_namingItem hsolid, toList_namingItem]
      refine Option.map_eq_some_iff.mpr ⟨_, hparts, ?_⟩
      exact declarationCommand_eq_ok_iff.mpr ⟨name, parameterName_of_isParameter h, rfl⟩
    exact ⟨_, 1, _, Command.parse_eq_ok_iff.mpr (Command.ofItem_eq_ok_iff.mpr hread), rfl⟩

/-- A joker can name each parameter, and nothing else. -/
theorem exists_parse_joker_iff : (∃ item line, Command.parse item line = .ok (.joker name)) ↔
    Name.isParameter name.toList = true := by
  constructor
  · intro h
    obtain ⟨item, line, hparse⟩ := h
    have hread := Command.ofItem_eq_ok_iff.mp (Command.parse_eq_ok_iff.mp hparse)
    obtain ⟨text, -, hcommand⟩ := Option.map_eq_some_iff.mp hread
    obtain ⟨name, hname, heq⟩ := map_eq_ok_iff.mp hcommand
    obtain rfl := Command.joker.inj heq
    exact isParameter_of_parameterName hname
  · intro h
    have hword : "JOKER".toList ∈ keyword "JOKER" := mem_keyword.mpr (by decide)
    have hsolid : "JOKER".toList ∈ solid := keyword_le_solid (by decide) hword
    have hread : Form.joker.read? (trim (namingItem "JOKER" name).toList) =
        some (.ok (.joker name)) := by
      rw [trim_namingItem hsolid, toList_namingItem]
      refine Option.map_eq_some_iff.mpr ⟨name.toList, jokerText?_eq_some_iff.mpr
        ⟨_, hword, _, space_mem_gap, notMem_of_isParameter h, rfl⟩, ?_⟩
      rw [parameterName_of_isParameter h]
      rfl
    exact ⟨_, 1, Command.parse_eq_ok_iff.mpr (Command.ofItem_eq_ok_iff.mpr hread)⟩

/-- The name on an arrow line is the one in its braces. -/
theorem arrowName?_namingItem (h : Name.isParameter name.toList = true) :
    arrowName? (namingItem "->" name).toList = some name.toList := by
  have hdrop : dropStart? ['-', '>'] (namingItem "->" name).toList =
      some (' ' :: '\x7b' :: (name.toList ++ ['\x7d'])) := by
    simp [toList_namingItem, dropStart?]
  have hstart : trimStart (' ' :: '\x7b' :: (name.toList ++ ['\x7d'])) =
      '\x7b' :: (name.toList ++ ['\x7d']) := by
    unfold trimStart
    rw [List.dropWhile_cons_of_pos (by decide), List.dropWhile_cons_of_neg (by decide)]
  have hbraced := bracedText?_eq_some_iff.mpr
    ⟨notMem_of_isParameter h, hstart⟩
  refine Option.bind_eq_some_iff.mpr ⟨_, hdrop, ?_⟩
  refine Option.bind_eq_some_iff.mpr ⟨_, hbraced, ?_⟩
  -- there is nothing behind the braces
  show some (trim name.toList) = some name.toList
  rw [trim_of_solid (solid_of_isParameter h)]

/-- An arrow line can name each parameter, and nothing else. -/
theorem exists_readArrow_iff :
    (∃ (d d' : Draft) (task text : String) (line : Nat), d.readArrow task text line = .ok d' ∧
      d'.result = some name) ↔ Name.isParameter name.toList = true := by
  constructor
  · intro h
    obtain ⟨d, d', task, text, line, hread, hresult⟩ := h
    obtain ⟨-, -, text', -, hname, rfl⟩ := Draft.readArrow_eq_ok_iff.mp hread
    obtain rfl := Option.some.inj hresult
    rw [String.toList_ofList]
    exact hname
  · intro h
    refine ⟨{ parameters := [], model := {}, code := some ⟨none, "", 1⟩ }, _, "", _, 1,
      Draft.readArrow_eq_ok_iff.mpr ⟨rfl, rfl, name.toList, arrowName?_namingItem h, h, rfl⟩, ?_⟩
    exact congrArg some name.ofList_toList

/-! ## What a template can use -/

namespace Template

/-- A template can use each parameter, and nothing else. -/
theorem exists_mem_parameters_iff :
    (∃ template, name ∈ parameters template) ↔ Name.isParameter name.toList = true := by
  constructor
  · intro h
    obtain ⟨template, hmem⟩ := h
    exact (mem_parameters_iff_mentions.mp hmem).1
  · intro h
    exact ⟨braced name, mem_parameters_iff_mentions.mpr ⟨h, List.infix_rfl⟩⟩

/-- **Placeholders are the names of parameters in braces.** The parameters of a template are the
names of parameters that stand in braces anywhere in it. What a template can use is what a
declaration, a joker or an arrow line can name. -/
theorem mem_parameters_iff_braced (name : String) :
    (∀ template, name ∈ parameters template ↔
      Name.isParameter name.toList = true ∧ (braced name).toList <:+: template.toList) ∧
    ((∃ template, name ∈ parameters template) ↔
      ∃ item line d, Command.parse item line = .ok (.parameter d) ∧ d.name = name) ∧
    ((∃ template, name ∈ parameters template) ↔
      ∃ item line, Command.parse item line = .ok (.joker name)) ∧
    ((∃ template, name ∈ parameters template) ↔
      ∃ (d d' : Draft) (task text : String) (line : Nat), d.readArrow task text line = .ok d' ∧
        d'.result = some name) := by
  rw [exists_mem_parameters_iff]
  exact ⟨fun template => mem_parameters_iff_mentions, exists_parse_parameter_iff.symm,
    exists_parse_joker_iff.symm, exists_readArrow_iff.symm⟩

end Template

end PromptPipeline
