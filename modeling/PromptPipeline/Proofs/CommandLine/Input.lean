import PromptPipeline.CommandLine.Input
import PromptPipeline.Proofs.Bindings
import PromptPipeline.Proofs.Dialect.Placeholders
import PromptPipeline.Proofs.Result

/-!
# The names of inputs

The name of an input is the text before its first equals sign. White space is taken off first, then
the braces, and nothing after that: white space on the inner side of a brace (`Padded`) stays in
the name. It is the only way to a name that is blank or has white space at an end
(`Gives.isReal_iff`). The dialect does trim the text in its braces, so the two disagree on the name
of a parameter in padded braces, and agree on it elsewhere (`readAll_names`).
-/

namespace PromptPipeline.CommandLine.Input

open Text

variable {text key value : String} {before core : List Char}

/-! ## What an input gives -/

/-- The text before the first equals sign. -/
def left (text : String) : List Char :=
  text.toList.takeWhile (· != '=')

/-- The text gives the value to the key: the name before its first equals sign is the key, and what
follows the sign is the value, as it stands. -/
structure Gives (text key value : String) : Prop where
  split : text.toList = left text ++ '=' :: value.toList
  named : key.toList = name (left text)
  nonempty : key ≠ ""

theorem notMem_left (text : String) : '=' ∉ left text := by
  intro hmem
  exact absurd (List.mem_takeWhile_imp hmem) (by decide)

theorem left_eq_of_split (hb : '=' ∉ before) {after : List Char}
    (h : text.toList = before ++ '=' :: after) : left text = before := by
  have hrun : ∀ c ∈ before, (c != '=') = true := by
    intro c hc
    exact bne_iff_ne.mpr fun heq => hb (heq ▸ hc)
  unfold left
  rw [h]
  exact takeWhile_run_append hrun fun c hc => by simp [← Option.some.inj hc]

theorem read_eq_ok_iff : read text = .ok (key, value) ↔ Gives text key value := by
  constructor
  · intro h
    unfold read at h
    split at h
    next => cases h
    next before after hsplit =>
      split at h
      next => cases h
      next hne =>
        cases h
        obtain ⟨c, heq, hc, hbefore⟩ := eq_append_of_splitOnce? hsplit
        obtain rfl := beq_iff_eq.mp hc
        have hb : '=' ∉ before := fun hmem => absurd (hbefore _ hmem) (by decide)
        have hleft : left text = before := left_eq_of_split hb heq
        refine ⟨?_, ?_, ?_⟩
        · rw [hleft, String.toList_ofList, heq]
        · rw [hleft, String.toList_ofList]
        · intro hempty
          have hnil : (String.ofList (name before)).toList = [] := congrArg String.toList hempty
          rw [String.toList_ofList] at hnil
          exact hne hnil
  · rintro ⟨hsplit, hnamed, hne⟩
    have hname : name (left text) ≠ [] := by
      rw [← hnamed]
      exact fun hnil => hne (String.toList_eq_nil_iff.mp hnil)
    rw [← text.ofList_toList, hsplit, read_eq_ok (notMem_left text) hname, ← hnamed,
      key.ofList_toList, value.ofList_toList]

/-! ## White space inside braces -/

/-- White space stands on the inner side of the braces at an end of the text. -/
inductive Padded (before : List Char) : Prop
  | opening {b rest : List Char} {c : Char} (hb : b ∈ many1 (· == '\x7b')) (hc : isBlank c = true)
    (h : trim before = b ++ c :: rest) : Padded before
  | closing {b rest : List Char} {c : Char} (hb : b ∈ many1 (· == '\x7d')) (hc : isBlank c = true)
    (h : trim before = rest ++ c :: b) : Padded before

/-- The key is no blank text and has no white space at its ends. -/
def IsReal (key : String) : Prop :=
  Trimmed key.toList ∧ ¬∀ c ∈ key.toList, isBlank c = true

/-- Nothing but braces is taken off a trimmed text. -/
theorem exists_eq_append_name (before : List Char) : ∃ b ∈ many (· == '\x7b'),
    ∃ b' ∈ many (· == '\x7d'), trim before = b ++ (name before ++ b') := by
  obtain ⟨b', hb', heq⟩ :=
    exists_eq_dropEndWhile_append (· == '\x7d') ((trim before).dropWhile (· == '\x7b'))
  refine ⟨(trim before).takeWhile (· == '\x7b'), fun c => List.mem_takeWhile_imp, b', hb', ?_⟩
  unfold name
  rw [← heq, List.takeWhile_append_dropWhile]

theorem beq_eq_false_of_isBlank {c d : Char} (hc : isBlank c = true) (hd : isBlank d = false) :
    (c == d) = false := by
  rw [beq_eq_false_iff_ne]
  rintro rfl
  rw [hc] at hd
  cases hd

/-- White space behind the first braces starts the name. -/
theorem name_eq_cons {b rest : List Char} {c : Char} (hb : b ∈ many (· == '\x7b'))
    (hc : isBlank c = true) (h : trim before = b ++ c :: rest) :
    name before = c :: dropEndWhile (· == '\x7d') rest := by
  have hdrop : (trim before).dropWhile (· == '\x7b') = c :: rest := by
    rw [h]
    refine dropWhile_run_append hb fun d hd => ?_
    obtain rfl := Option.some.inj hd
    exact beq_eq_false_of_isBlank hc (by decide)
  have hclose : (c == '\x7d') = false := beq_eq_false_of_isBlank hc (by decide)
  unfold name
  rw [hdrop]
  exact dropEndWhile_append_cons (p := (· == '\x7d')) hclose [] rest

/-- White space in front of the last braces ends the name. -/
theorem name_eq_concat {b rest : List Char} {c : Char} (hb : b ∈ many (· == '\x7d'))
    (hc : isBlank c = true) (h : trim before = rest ++ c :: b) :
    name before = rest.dropWhile (· == '\x7b') ++ [c] := by
  have hopen : (c == '\x7b') = false := beq_eq_false_of_isBlank hc (by decide)
  unfold name
  rw [h, dropWhile_append_cons (p := (· == '\x7b')) hopen, List.append_cons]
  refine dropEndWhile_append_run hb fun d hd => ?_
  rw [List.getLast?_concat] at hd
  obtain rfl := Option.some.inj hd
  exact beq_eq_false_of_isBlank hc (by decide)

/-- The name has white space at an end if and only if the text is padded. -/
theorem trimmed_name_iff : Trimmed (name before) ↔ ¬Padded before := by
  constructor
  · intro hname hpad
    cases hpad with
    | opening hb hc h =>
      have hstart := hname.start
      rw [name_eq_cons hb.2 hc h] at hstart
      exact absurd (hstart _ rfl) (by simp [hc])
    | closing hb hc h =>
      have hstop := hname.stop
      rw [name_eq_concat hb.2 hc h, List.getLast?_concat] at hstop
      exact absurd (hstop _ rfl) (by simp [hc])
  · intro hpad
    obtain ⟨b, hb, b', hb', heq⟩ := exists_eq_append_name before
    have htrim : Trimmed (trim before) := trimmed_trim before
    -- Without a brace in front of it, the end of the name is an end of the trimmed text.
    constructor
    · intro c hc
      obtain ⟨rest, hrest⟩ := List.head?_eq_some_iff.mp hc
      rw [hrest] at heq
      refine Bool.eq_false_iff.mpr fun hblank => ?_
      by_cases hnone : b = []
      · have hstart := htrim.start
        rw [heq, hnone, List.nil_append] at hstart
        exact absurd (hstart c rfl) (by simp [hblank])
      · exact hpad (.opening (mem_many1.mpr ⟨hnone, hb⟩) hblank heq)
    · intro c hc
      obtain ⟨rest, hrest⟩ := List.getLast?_eq_some_iff.mp hc
      rw [hrest, List.append_assoc, List.singleton_append, ← List.append_assoc] at heq
      refine Bool.eq_false_iff.mpr fun hblank => ?_
      by_cases hnone : b' = []
      · have hstop := htrim.stop
        rw [heq, hnone, List.getLast?_concat] at hstop
        exact absurd (hstop c rfl) (by simp [hblank])
      · exact hpad (.closing (mem_many1.mpr ⟨hnone, hb'⟩) hblank heq)

theorem Gives.isReal_iff (h : Gives text key value) : IsReal key ↔ ¬Padded (left text) := by
  unfold IsReal
  rw [← trimmed_name_iff, ← h.named]
  refine and_iff_left_of_imp fun htrim hblank => h.nonempty ?_
  cases hkey : key.toList with
  | nil => exact String.toList_eq_nil_iff.mp hkey
  | cons c rest =>
    rw [hkey] at htrim hblank
    exact absurd (htrim.start c rfl) (by simp [hblank c List.mem_cons_self])

/-! ## The last input counts -/

/-- Of the texts that give a value to the key, the last one gives it this value. -/
def LastGives (texts : List String) (key value : String) : Prop :=
  ∃ earlier text later, texts = earlier ++ text :: later ∧ Gives text key value ∧
    ∀ other ∈ later, ∀ value', ¬Gives other key value'

/-- The value that the text gives to the key. -/
def valueFor? (key text : String) : Option String :=
  match read text with
  | .ok (name, value) => if key = name then some value else none
  | .error _ => none

theorem valueFor?_eq_some_iff : valueFor? key text = some value ↔ Gives text key value := by
  rw [← read_eq_ok_iff]
  unfold valueFor?
  split
  next name value' hread => simp [hread, eq_comm]
  next hread => simp [hread]

theorem valueFor?_eq_none_iff : valueFor? key text = none ↔ ∀ value, ¬Gives text key value := by
  rw [Option.eq_none_iff_forall_ne_some]
  exact forall_congr' fun value => not_congr valueFor?_eq_some_iff

theorem lastGives_iff {texts : List String} :
    LastGives texts key value ↔ texts.reverse.findSome? (valueFor? key) = some value := by
  rw [List.findSome?_eq_some_iff]
  simp only [valueFor?_eq_some_iff, valueFor?_eq_none_iff]
  constructor
  · rintro ⟨earlier, text, later, rfl, hgives, hlater⟩
    refine ⟨later.reverse, text, earlier.reverse, by simp, hgives, ?_⟩
    exact fun other hother => hlater other (List.mem_reverse.mp hother)
  · rintro ⟨later, text, earlier, htexts, hgives, hlater⟩
    refine ⟨earlier.reverse, text, later.reverse, ?_, hgives, ?_⟩
    · rw [← List.reverse_reverse texts, htexts]
      simp
    · exact fun other hother => hlater other (List.mem_reverse.mp hother)

theorem readInto_cons_eq_ok_iff {texts : List String} {b b' : Bindings String} :
    readInto b (text :: texts) = .ok b' ↔
      ∃ key value, Gives text key value ∧ readInto (b.insert key value) texts = .ok b' := by
  simp only [readInto, bind_eq_ok_iff, Prod.exists, read_eq_ok_iff]

/-- Inputs are read if and only if each of them gives something. -/
theorem exists_readInto_eq_ok_iff {texts : List String} {b : Bindings String} :
    (∃ b', readInto b texts = .ok b') ↔ ∀ text ∈ texts, ∃ key value, Gives text key value := by
  induction texts generalizing b with
  | nil => exact iff_of_true ⟨b, rfl⟩ (List.forall_mem_nil _)
  | cons text texts ih =>
    simp only [readInto_cons_eq_ok_iff, List.forall_mem_cons]
    constructor
    · rintro ⟨b', key, value, hgives, hrest⟩
      exact ⟨⟨key, value, hgives⟩, ih.mp ⟨b', hrest⟩⟩
    · rintro ⟨⟨key, value, hgives⟩, hrest⟩
      obtain ⟨b', hb'⟩ := ih.mpr hrest
      exact ⟨b', key, value, hgives, hb'⟩

/-- A key has the value of the last text that gives it one, and else the value that it had. -/
theorem get?_of_readInto {texts : List String} {b b' : Bindings String}
    (h : readInto b texts = .ok b') :
    b'.get? key = (texts.reverse.findSome? (valueFor? key)).or (b.get? key) := by
  induction texts generalizing b with
  | nil =>
    cases h
    rfl
  | cons text texts ih =>
    obtain ⟨name, value, hgives, hrest⟩ := readInto_cons_eq_ok_iff.mp h
    -- The first text comes last in the search, as the others overwrite what it gives.
    have hfirst : (b.insert name value).get? key = (valueFor? key text).or (b.get? key) := by
      unfold valueFor?
      rw [read_eq_ok_iff.mpr hgives, Bindings.get?_insert]
      dsimp only
      split <;> rfl
    rw [ih hrest, hfirst, List.reverse_cons, List.findSome?_append, Option.or_assoc]
    simp

theorem get?_readAll {texts : List String} {inputs : Bindings String}
    (h : readAll texts = .ok inputs) :
    inputs.get? key = some value ↔ LastGives texts key value := by
  have hempty : (Bindings.empty : Bindings String).get? key = none := rfl
  rw [get?_of_readInto h, hempty, Option.or_none, lastGives_iff]

/-- What a text names is a key of the inputs, whatever stands in the other texts. -/
theorem contains_readAll {texts : List String} {inputs : Bindings String}
    (h : readAll texts = .ok inputs) :
    inputs.contains key = true ↔ ∃ text ∈ texts, ∃ value, Gives text key value := by
  rw [Bindings.contains, get?_of_readInto h]
  show ((texts.reverse.findSome? (valueFor? key)).or none).isSome = true ↔ _
  rw [Option.or_none, List.findSome?_isSome_iff]
  simp only [List.mem_reverse, Option.isSome_iff_exists, valueFor?_eq_some_iff]

/-! ## Names of parameters -/

/-- The input with the text on the left of its first equals sign, and the value on its right. -/
def assignment (before : List Char) (value : String) : String :=
  .ofList (before ++ '=' :: value.toList)

/-- A text in braces. -/
def inBraces (core : List Char) : List Char :=
  '\x7b' :: (core ++ ['\x7d'])

theorem Gives.unique {key' value' : String} (h : Gives text key value)
    (h' : Gives text key' value') : key = key' ∧ value = value' := by
  have hread := (read_eq_ok_iff.mpr h).symm.trans (read_eq_ok_iff.mpr h')
  exact Prod.mk.inj (Except.ok.inj hread)

theorem gives_assignment (hb : '=' ∉ before) (hname : name before = core) (hne : core ≠ []) :
    Gives (assignment before value) (.ofList core) value := by
  rw [← read_eq_ok_iff, assignment, read_eq_ok hb (hname ▸ hne), hname, value.ofList_toList]

variable {g g' u w : List Char}

/-- White space and braces around a text are taken off, if neither is in it. -/
theorem name_enclosed (hg : g ∈ many isBlank) (hg' : g' ∈ many isBlank) {b b' : List Char}
    (hb : b ∈ many (· == '\x7b')) (hb' : b' ∈ many (· == '\x7d'))
    (htrim : Trimmed (b ++ (core ++ b'))) (hne : core ≠ []) (hopen : '\x7b' ∉ core)
    (hclose : '\x7d' ∉ core) :
    name (g ++ ((b ++ (core ++ b')) ++ g')) = core := by
  have hstart : ∀ c ∈ (core ++ b').head?, (c == '\x7b') = false := by
    intro c hc
    rw [List.head?_append_of_ne_nil _ hne] at hc
    exact beq_eq_false_iff_ne.mpr fun heq => hopen (heq ▸ List.mem_of_head? hc)
  have hstop : ∀ c ∈ core.getLast?, (c == '\x7d') = false := by
    intro c hc
    exact beq_eq_false_iff_ne.mpr fun heq => hclose (heq ▸ List.mem_of_getLast? hc)
  unfold name
  rw [htrim.trim_append hg hg', dropWhile_run_append hb hstart, dropEndWhile_append_run hb' hstop]

theorem trimmed_of_isParameter (h : Name.isParameter core = true) : Trimmed core :=
  trim_of_solid (solid_of_isParameter h) ▸ trimmed_trim core

theorem name_spaced (h : Name.isParameter core = true) (hg : g ∈ many isBlank)
    (hg' : g' ∈ many isBlank) : name (g ++ (core ++ g')) = core := by
  have hname := name_enclosed hg hg' (List.forall_mem_nil _) (List.forall_mem_nil _)
    (core.append_nil.symm ▸ trimmed_of_isParameter h) (ne_nil_of_isParameter h)
    (notMem_of_isParameterPart h (by decide)) (notMem_of_isParameter h)
  rwa [List.nil_append, List.append_nil] at hname

theorem trimmed_inBraces (core : List Char) : Trimmed (inBraces core) where
  start := by
    intro c hc
    obtain rfl := Option.some.inj hc
    decide
  stop := by
    intro c hc
    rw [inBraces, ← List.cons_append, List.getLast?_concat] at hc
    obtain rfl := Option.some.inj hc
    decide

theorem name_inBraces (hg : g ∈ many isBlank) (hg' : g' ∈ many isBlank) (hne : core ≠ [])
    (hopen : '\x7b' ∉ core) (hclose : '\x7d' ∉ core) :
    name (g ++ (inBraces core ++ g')) = core := by
  have hfirst : ['\x7b'] ∈ many (· == '\x7b') := List.forall_mem_singleton.mpr (by decide)
  have hlast : ['\x7d'] ∈ many (· == '\x7d') := List.forall_mem_singleton.mpr (by decide)
  exact name_enclosed hg hg' hfirst hlast (trimmed_inBraces core) hne hopen hclose

theorem notMem_of_many (hg : g ∈ many isBlank) {d : Char} (hd : isBlank d = false) : d ∉ g :=
  fun hmem => absurd (hg d hmem) (by simp [hd])

/-- What is neither white space nor a part of a name is not in a name with white space around it. -/
theorem notMem_spaced (h : Name.isParameter core = true) (hu : u ∈ many isBlank)
    (hw : w ∈ many isBlank) {d : Char} (hblank : isBlank d = false)
    (hpart : Name.isParameterPart d = false) : d ∉ u ++ (core ++ w) := by
  simp only [List.mem_append, not_or]
  exact ⟨notMem_of_many hu hblank, notMem_of_isParameterPart h hpart, notMem_of_many hw hblank⟩

section

variable {parameter : String} (h : Name.isParameter parameter.toList = true)
  (hg : g ∈ many isBlank) (hg' : g' ∈ many isBlank) (hu : u ∈ many isBlank) (hw : w ∈ many isBlank)

include h hg hg'

theorem gives_parameter :
    Gives (assignment (g ++ (parameter.toList ++ g')) value) parameter value := by
  have hsign : '=' ∉ g ++ (parameter.toList ++ g') := notMem_spaced h hg hg' (by decide) (by decide)
  have hname := name_spaced h hg hg'
  rw [← parameter.ofList_toList, String.toList_ofList]
  exact gives_assignment hsign hname (ne_nil_of_isParameter h)

include hu hw

/-- White space inside the braces stays in the name. -/
theorem gives_inBraces :
    Gives (assignment (g ++ (inBraces (u ++ (parameter.toList ++ w)) ++ g')) value)
      (.ofList (u ++ (parameter.toList ++ w))) value := by
  have hnot {d : Char} : isBlank d = false → Name.isParameterPart d = false →
      d ∉ u ++ (parameter.toList ++ w) := notMem_spaced h hu hw
  have hopen : '\x7b' ∉ u ++ (parameter.toList ++ w) := hnot (by decide) (by decide)
  have hclose : '\x7d' ∉ u ++ (parameter.toList ++ w) := hnot (by decide) (by decide)
  have hsign : '=' ∉ g ++ (inBraces (u ++ (parameter.toList ++ w)) ++ g') := by
    have hleft : '=' ∉ g := notMem_of_many hg (by decide)
    have hcore : '=' ∉ u ++ (parameter.toList ++ w) := hnot (by decide) (by decide)
    have hright : '=' ∉ g' := notMem_of_many hg' (by decide)
    simp only [List.mem_append, not_or] at hcore
    simp [inBraces, hleft, hright, hcore]
  have hne : u ++ (parameter.toList ++ w) ≠ [] := by
    simp [ne_nil_of_isParameter h]
  exact gives_assignment hsign (name_inBraces hg hg' hne hopen hclose) hne

/-- So the text in braces names the parameter if and only if no white space is added inside. -/
theorem gives_inBraces_iff :
    Gives (assignment (g ++ (inBraces (u ++ (parameter.toList ++ w)) ++ g')) value) parameter
      value ↔ u = [] ∧ w = [] := by
  have hgives : Gives (assignment (g ++ (inBraces (u ++ (parameter.toList ++ w)) ++ g')) value)
      (.ofList (u ++ (parameter.toList ++ w))) value := gives_inBraces h hg hg' hu hw
  constructor
  · intro hnames
    -- The name that is given is longer by the white space.
    have hlength := congrArg (·.toList.length) (hnames.unique hgives).1
    simp only [String.toList_ofList, List.length_append] at hlength
    exact ⟨List.eq_nil_of_length_eq_zero (by omega), List.eq_nil_of_length_eq_zero (by omega)⟩
  · rintro ⟨rfl, rfl⟩
    rw [List.nil_append, List.append_nil, parameter.ofList_toList] at hgives
    rwa [List.nil_append, List.append_nil]

end

/-- The dialect takes off the white space inside its braces. -/
theorem parameterName_spaced {parameter : String} (h : Name.isParameter parameter.toList = true)
    (hu : u ∈ many isBlank) (hw : w ∈ many isBlank) :
    parameterName (u ++ (parameter.toList ++ w)) = .ok parameter := by
  rw [parameterName_eq_ok_iff, (trimmed_of_isParameter h).trim_append hu hw]
  exact ⟨h, parameter.ofList_toList.symm⟩

/-- **The names of inputs are real unless there is white space inside their braces.** Inputs are
read if each text gives a value to a key, and then a key has the value of the last text that gives
it one. All keys are real names if and only if no text is padded. For a parameter, white space
around its name, or around the braces of its name, makes no difference. White space inside the
braces does: the dialect reads the same name there, but for the input the spaces are part of it. -/
theorem readAll_names (texts : List String) :
    ((∃ inputs, readAll texts = .ok inputs) ↔ ∀ text ∈ texts, ∃ key value, Gives text key value) ∧
    (∀ inputs, readAll texts = .ok inputs →
      (∀ key value, inputs.get? key = some value ↔ LastGives texts key value) ∧
      ((∀ key, inputs.contains key = true → IsReal key) ↔
        ∀ text ∈ texts, ¬Padded (left text))) ∧
    ∀ (parameter value : String) (g g' u w : List Char), Name.isParameter parameter.toList = true →
      g ∈ many isBlank → g' ∈ many isBlank → u ∈ many isBlank → w ∈ many isBlank →
      Gives (assignment (g ++ (parameter.toList ++ g')) value) parameter value ∧
      Gives (assignment (g ++ (inBraces (u ++ (parameter.toList ++ w)) ++ g')) value)
        (.ofList (u ++ (parameter.toList ++ w))) value ∧
      (Gives (assignment (g ++ (inBraces (u ++ (parameter.toList ++ w)) ++ g')) value) parameter
        value ↔ u = [] ∧ w = []) ∧
      parameterName (u ++ (parameter.toList ++ w)) = .ok parameter := by
  refine ⟨exists_readInto_eq_ok_iff, fun inputs hread => ⟨fun key value => get?_readAll hread, ?_⟩,
    fun parameter value g g' u w h hg hg' hu hw => ⟨gives_parameter h hg hg',
      gives_inBraces h hg hg' hu hw, gives_inBraces_iff h hg hg' hu hw,
      parameterName_spaced h hu hw⟩⟩
  -- The keys are what the texts name, so it is enough to look at each text by itself.
  simp only [contains_readAll hread]
  constructor
  · intro hreal text hmem
    obtain ⟨key, value, hgives⟩ := exists_readInto_eq_ok_iff.mp ⟨inputs, hread⟩ text hmem
    exact hgives.isReal_iff.mp (hreal key ⟨text, hmem, value, hgives⟩)
  · rintro hpad key ⟨text, hmem, value, hgives⟩
    exact hgives.isReal_iff.mpr (hpad text hmem)

/-- Of three inputs for a parameter the second one has spaces inside its braces. It names something
else, although the dialect would read the same name in these braces. -/
theorem readAll_padded : ∃ inputs,
    readAll ["name=Ada", "\x7b name \x7d=Bob", " \x7bname\x7d =C=D"] = .ok inputs ∧
      inputs.get? "name" = some "C=D" ∧ inputs.get? " name " = some "Bob" ∧
      (¬∀ key, inputs.contains key = true → IsReal key) ∧
      ¬Gives "\x7b name \x7d=Bob" "name" "Bob" ∧
      parameterName [' ', 'n', 'a', 'm', 'e', ' '] = .ok "name" := by
  have hfirst : Gives "name=Ada" "name" "Ada" := read_eq_ok_iff.mp (by decide)
  have hlast : Gives " \x7bname\x7d =C=D" "name" "C=D" := read_eq_ok_iff.mp (by decide)
  obtain ⟨hok, hmap, hname⟩ :=
    readAll_names ["name=Ada", "\x7b name \x7d=Bob", " \x7bname\x7d =C=D"]
  have hnone : [] ∈ many isBlank := List.forall_mem_nil _
  have hblank : [' '] ∈ many isBlank := List.forall_mem_singleton.mpr (by decide)
  obtain ⟨-, hpadded, hbraces, hdialect⟩ :=
    hname "name" "Bob" [] [] [' '] [' '] (by decide) hnone hnone hblank hblank
  obtain ⟨inputs, hread⟩ := hok.mpr (by
    simp only [List.forall_mem_cons]
    exact ⟨⟨_, _, hfirst⟩, ⟨_, _, hpadded⟩, ⟨_, _, hlast⟩, List.forall_mem_nil _⟩)
  obtain ⟨hget, hreal⟩ := hmap inputs hread
  refine ⟨inputs, hread, (hget _ _).mpr ⟨[_, _], _, [], rfl, hlast, List.forall_mem_nil _⟩,
    (hget _ _).mpr ⟨[_], _, [_], rfl, hpadded, ?_⟩, ?_, ?_, hdialect⟩
  · refine List.forall_mem_singleton.mpr fun value hgives => ?_
    exact absurd (hgives.unique hlast).1 (by decide)
  · intro hall
    refine hreal.mp hall "\x7b name \x7d=Bob" (by simp) ?_
    have hbrace : ['\x7b'] ∈ many1 (· == '\x7b') := mem_many1.mpr (by simp)
    have htrim : trim (left "\x7b name \x7d=Bob") = ['\x7b'] ++ ' ' :: "name \x7d".toList := by
      decide
    exact .opening hbrace (by decide) htrim
  · intro hgives
    exact absurd (hbraces.mp hgives).1 (by decide)

end PromptPipeline.CommandLine.Input
