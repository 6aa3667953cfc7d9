import Mathlib
import PromptPipeline.Proofs.Dialect.Template
import PromptPipeline.Proofs.Result

/-!
# Substitution

A template is taken apart in one way only: into names and texts between them that have no
placeholder in them (`Split.Of`). The name in a placeholder has no opening brace, so none starts in
one of the texts and ends behind it (`placeholderAt?_of_plain`). Substitution leaves the texts as
they are and puts the value of each name in its place, without a look at the value.

Main statement: `Template.substitute_verbatim`.
-/

namespace PromptPipeline.Template

/-- A text, and behind it names with a text behind each. -/
structure Split where
  head : String
  tail : List (String × String)

/-- There is no placeholder in the text. -/
def Plain (text : List Char) : Prop :=
  ∀ name : String, Name.isParameter name.toList = true → ¬(braced name).toList <:+: text

namespace Split

/-- The names and the texts behind them, with each name written as `f` says. -/
def renderTail (f : String → String) : List (String × String) → String
  | [] => ""
  | (name, text) :: rest => f name ++ text ++ renderTail f rest

/-- The texts with the names between them, each written as `f` says. -/
def render (f : String → String) (s : Split) : String :=
  s.head ++ renderTail f s.tail

/-- The names, from left to right. -/
def names (s : Split) : List String :=
  s.tail.map (·.1)

/-- The texts before, between and behind the names. -/
def texts (s : Split) : List String :=
  s.head :: s.tail.map (·.2)

/-- The template is taken apart at all of its placeholders: with the names in braces it is the
template, and there is no placeholder in the texts between them. -/
structure Of (s : Split) (template : String) : Prop where
  render_eq : s.render braced = template
  named : ∀ name ∈ s.names, Name.isParameter name.toList = true
  plain : ∀ text ∈ s.texts, Plain text.toList

/-- The pieces that the names and the texts behind them come to. -/
def tailPieces : List (String × String) → List Piece
  | [] => []
  | (name, text) :: rest => .placeholder name :: (text.toList.map .char ++ tailPieces rest)

/-- The pieces that the texts and names come to. -/
def toPieces (s : Split) : List Piece :=
  s.head.toList.map .char ++ tailPieces s.tail

/-- The texts and names that the pieces come to. -/
def ofPieces : List Piece → Split
  | [] => ⟨"", []⟩
  | .char c :: rest => ⟨.ofList (c :: (ofPieces rest).head.toList), (ofPieces rest).tail⟩
  | .placeholder name :: rest => ⟨"", (name, (ofPieces rest).head) :: (ofPieces rest).tail⟩

end Split

/-! ## Texts without placeholders -/

section

variable {c : Char} {text rest : List Char}

theorem plain_nil : Plain [] := by
  intro name _ hinfix
  rw [toList_braced] at hinfix
  cases List.infix_nil.mp hinfix

theorem Plain.of_cons (h : Plain (c :: text)) : Plain text :=
  fun name hname hinfix => h name hname (List.infix_cons hinfix)

/-- No placeholder starts in a text without placeholders, since the text goes on behind it with an
opening brace or not at all. -/
theorem placeholderAt?_of_plain (h : Plain (c :: text)) (hrest : ∀ d ∈ rest.head?, d = '\x7b') :
    placeholderAt? (c :: (text ++ rest)) = none := by
  refine Option.eq_none_iff_forall_ne_some.mpr fun ⟨name, after⟩ hat => ?_
  obtain ⟨heq, hname⟩ := placeholderAt?_eq_some_iff.mp hat
  obtain ⟨rfl, htail⟩ := List.cons.inj heq
  have hclose : ∀ d ∈ ('\x7d' :: after).head?, d ≠ '\x7b' := by
    intro d hd
    obtain rfl := Option.some.inj hd
    decide
  rcases List.append_eq_append_iff.mp htail with ⟨more, rfl, rfl⟩ | ⟨more, rfl, hmore⟩
  · -- the name would go on behind the text
    cases more with
    | nil => exact hclose _ rfl (hrest _ rfl)
    | cons d more =>
      obtain rfl := hrest d rfl
      have hmem : '\x7b' ∈ text ++ '\x7b' :: more := by simp
      exact absurd (isParameterPart_of_mem hname hmem) (by decide)
  · cases more with
    | nil => exact hclose _ rfl (hrest _ (by rw [← List.nil_append rest, ← hmore]; rfl))
    | cons d more =>
      -- the whole placeholder would be in the text
      obtain ⟨rfl, -⟩ := List.cons.inj hmore
      have hlist : (String.ofList name).toList = name := String.toList_ofList
      refine h (.ofList name) (by rwa [hlist]) (List.IsPrefix.isInfix ⟨more, ?_⟩)
      simp [toList_braced]

/-- The characters of a text without placeholders are pieces of their own. -/
theorem pieces_append_of_plain (h : Plain text) (hrest : ∀ d ∈ rest.head?, d = '\x7b') :
    pieces (text ++ rest) = text.map .char ++ pieces rest := by
  induction text with
  | nil => rfl
  | cons c text ih =>
    rw [List.cons_append, pieces_cons_of_placeholderAt? (placeholderAt?_of_plain h hrest),
      ih h.of_cons]
    rfl

end

/-! ## Taking a template apart -/

namespace Split

variable {s s' : Split} {template : String} {tail : List (String × String)} {ps : List Piece}

theorem toList_renderTail_cons (f : String → String) (name text : String) :
    (renderTail f ((name, text) :: tail)).toList =
      (f name).toList ++ (text.toList ++ (renderTail f tail).toList) := by
  simp [renderTail]

theorem toList_render (f : String → String) (s : Split) :
    (s.render f).toList = s.head.toList ++ (renderTail f s.tail).toList :=
  String.toList_append

/-- Behind a text there is an opening brace or nothing. -/
theorem eq_brace_of_mem_head? {d : Char} (h : d ∈ (renderTail braced tail).toList.head?) :
    d = '\x7b' := by
  cases tail with
  | nil => cases h
  | cons entry rest =>
    rw [toList_renderTail_cons, toList_braced] at h
    exact (Option.some.inj h).symm

theorem pieces_renderTail (hnamed : ∀ entry ∈ tail, Name.isParameter entry.1.toList = true)
    (hplain : ∀ entry ∈ tail, Plain entry.2.toList) :
    pieces (renderTail braced tail).toList = tailPieces tail := by
  induction tail with
  | nil => simp [renderTail, tailPieces, pieces]
  | cons entry rest ih =>
    obtain ⟨name, text⟩ := entry
    obtain ⟨hname, hnamed⟩ := List.forall_mem_cons.mp hnamed
    obtain ⟨htext, hplain⟩ := List.forall_mem_cons.mp hplain
    have hat : placeholderAt? (renderTail braced ((name, text) :: rest)).toList =
        some (name.toList, text.toList ++ (renderTail braced rest).toList) := by
      rw [placeholderAt?_eq_some_iff, toList_renderTail_cons, toList_braced]
      exact ⟨by simp, hname⟩
    rw [pieces_of_placeholderAt? hat, String.ofList_toList,
      pieces_append_of_plain htext fun d => eq_brace_of_mem_head?, ih hnamed hplain]
    rfl

/-- The pieces of a template are those of each way to take it apart. -/
theorem Of.pieces_eq (h : s.Of template) : pieces template.toList = s.toPieces := by
  have hhead : Plain s.head.toList := h.plain _ List.mem_cons_self
  have hnamed : ∀ entry ∈ s.tail, Name.isParameter entry.1.toList = true :=
    fun entry hentry => h.named _ (List.mem_map_of_mem hentry)
  have hplain : ∀ entry ∈ s.tail, Plain entry.2.toList :=
    fun entry hentry => h.plain _ (List.mem_cons_of_mem _ (List.mem_map_of_mem hentry))
  rw [← h.render_eq, toList_render, pieces_append_of_plain hhead fun d => eq_brace_of_mem_head?,
    pieces_renderTail hnamed hplain]
  rfl

theorem ofPieces_chars_append (text : List Char) (ps : List Piece) :
    ofPieces (text.map .char ++ ps) =
      ⟨.ofList (text ++ (ofPieces ps).head.toList), (ofPieces ps).tail⟩ := by
  induction text with
  | nil => simp
  | cons c text ih => simp [ofPieces, ih]

theorem ofPieces_tailPieces (tail : List (String × String)) :
    ofPieces (tailPieces tail) = ⟨"", tail⟩ := by
  induction tail with
  | nil => rfl
  | cons entry rest ih =>
    simp [tailPieces, ofPieces, ofPieces_chars_append, ih]

/-- The texts and names can be had back from the pieces. -/
theorem ofPieces_toPieces (s : Split) : ofPieces s.toPieces = s := by
  simp [toPieces, ofPieces_chars_append, ofPieces_tailPieces]

/-- A template is taken apart in one way only. -/
theorem Of.unique (h : s.Of template) (h' : s'.Of template) : s' = s := by
  rw [← s.ofPieces_toPieces, ← s'.ofPieces_toPieces, ← h.pieces_eq, ← h'.pieces_eq]

/-- A character in front of a text without placeholders is a text without placeholders if no
placeholder starts there. -/
theorem of_cons {c : Char} {rest : List Char} (h : s.Of (.ofList rest))
    (hat : placeholderAt? (c :: rest) = none) :
    (⟨.ofList (c :: s.head.toList), s.tail⟩ : Split).Of (.ofList (c :: rest)) where
  render_eq := by
    have hrender : (s.render braced).toList = rest := by rw [h.render_eq, String.toList_ofList]
    rw [toList_render] at hrender
    rw [← String.toList_inj, toList_render]
    simp [hrender]
  named := h.named
  plain := by
    refine List.forall_mem_cons.mpr ⟨?_, (List.forall_mem_cons.mp h.plain).2⟩
    intro name hname hinfix
    rw [String.toList_ofList] at hinfix
    rcases List.infix_cons_iff.mp hinfix with hfirst | hinfix
    · -- the placeholder would be the first piece of the template
      have hrender : (s.render braced).toList = rest := by rw [h.render_eq, String.toList_ofList]
      have hlong : c :: s.head.toList <+: c :: rest := by
        rw [← hrender, toList_render]
        exact List.prefix_append (c :: s.head.toList) _
      obtain ⟨after, hafter⟩ := (braced_prefix_iff hname).mp (hfirst.trans hlong)
      rw [hat] at hafter
      cases hafter
    · exact h.plain _ List.mem_cons_self name hname hinfix

/-- Every template can be taken apart: at its placeholders. -/
theorem of_ofPieces (text : List Char) : (ofPieces (pieces text)).Of (.ofList text) := by
  induction text using pieces.induct with
  | case1 =>
    rw [pieces]
    refine ⟨rfl, fun name hname => (by cases hname), fun text htext => ?_⟩
    obtain rfl := List.mem_singleton.mp htext
    exact plain_nil
  | case2 c rest name after hat ih =>
    rw [pieces_of_placeholderAt? hat]
    obtain ⟨heq, hname⟩ := placeholderAt?_eq_some_iff.mp hat
    refine ⟨?_, ?_, ?_⟩
    · have hrender := congrArg String.toList ih.render_eq
      rw [toList_render, String.toList_ofList] at hrender
      rw [← String.toList_inj, toList_render, heq, ofPieces, toList_renderTail_cons, toList_braced]
      simp [hrender]
    · exact List.forall_mem_cons.mpr ⟨by rwa [String.toList_ofList], ih.named⟩
    · exact List.forall_mem_cons.mpr ⟨plain_nil, ih.plain⟩
  | case3 c rest hat ih =>
    rw [pieces_cons_of_placeholderAt? hat]
    exact of_cons ih hat

theorem placeholderNames_chars_append (text : List Char) (ps : List Piece) :
    placeholderNames (text.map .char ++ ps) = placeholderNames ps := by
  induction text with
  | nil => rfl
  | cons c text ih => exact ih

theorem placeholderNames_tailPieces (tail : List (String × String)) :
    placeholderNames (tailPieces tail) = tail.map (·.1) := by
  induction tail with
  | nil => rfl
  | cons entry rest ih =>
    obtain ⟨name, text⟩ := entry
    show name :: placeholderNames (text.toList.map .char ++ tailPieces rest) = _
    rw [placeholderNames_chars_append, ih]
    rfl

theorem placeholderNames_toPieces (s : Split) : placeholderNames s.toPieces = s.names := by
  rw [toPieces, placeholderNames_chars_append, placeholderNames_tailPieces, names]

theorem Of.mem_parameters_iff (h : s.Of template) {name : String} :
    name ∈ parameters template ↔ name ∈ s.names := by
  rw [mem_parameters, h.pieces_eq, placeholderNames_toPieces]

end Split

/-! ## Filling in the values -/

variable {values values' : Bindings String} {f : String → String} {template : String}

theorem fill_chars_append (text : List Char) (ps : List Piece) :
    fill values (text.map .char ++ ps) = (fill values ps).map (text ++ ·) := by
  induction text with
  | nil => cases h : fill values ps <;> simp [h, Except.map]
  | cons c text ih =>
    rw [List.map_cons, List.cons_append, fill, ih]
    cases fill values ps <;> rfl

theorem fill_tailPieces {tail : List (String × String)}
    (h : ∀ entry ∈ tail, values.get? entry.1 = some (f entry.1)) :
    fill values (Split.tailPieces tail) = .ok (Split.renderTail f tail).toList := by
  induction tail with
  | nil => rfl
  | cons entry rest ih =>
    obtain ⟨name, text⟩ := entry
    obtain ⟨hvalue, h⟩ := List.forall_mem_cons.mp h
    rw [Split.tailPieces, fill, hvalue, fill_chars_append, ih h, Split.toList_renderTail_cons]
    rfl

/-- A value is put in the place of each name, and the texts stay as they are. -/
theorem Split.Of.substitute_eq {s : Split} (hs : s.Of template)
    (h : ∀ name ∈ s.names, values.get? name = some (f name)) :
    substitute template values = .ok (s.render f) := by
  have htail : ∀ entry ∈ s.tail, values.get? entry.1 = some (f entry.1) :=
    fun entry hentry => h _ (List.mem_map_of_mem hentry)
  rw [substitute, hs.pieces_eq, toPieces, fill_chars_append, fill_tailPieces htail]
  show Except.ok (String.ofList (s.head.toList ++ (renderTail f s.tail).toList)) = _
  rw [← toList_render, String.ofList_toList]

/-- The values of names that are not in the pieces do not matter. -/
theorem fill_congr {ps : List Piece}
    (h : ∀ name ∈ placeholderNames ps, values'.get? name = values.get? name) :
    fill values' ps = fill values ps := by
  induction ps with
  | nil => rfl
  | cons piece rest ih =>
    cases piece with
    | char c => rw [fill, fill, ih h]
    | placeholder name =>
      obtain ⟨hvalue, h⟩ := List.forall_mem_cons.mp
        (show ∀ n ∈ name :: placeholderNames rest, values'.get? n = values.get? n from h)
      rw [fill, fill, hvalue, ih h]

theorem substitute_congr
    (h : ∀ name ∈ parameters template, values'.get? name = values.get? name) :
    substitute template values' = substitute template values := by
  rw [substitute, substitute, fill_congr fun name hname => h name (mem_parameters.mpr hname)]

theorem Split.Of.substitute_eq_ok_iff {s : Split} (hs : s.Of template) {text : String} :
    substitute template values = .ok text ↔
      ∃ f : String → String, (∀ name ∈ s.names, values.get? name = some (f name)) ∧
        text = s.render f := by
  constructor
  · intro h
    have hbound := substitute_isOk_iff.mp ⟨text, h⟩
    have hvalue : ∀ name ∈ s.names, values.get? name = some ((values.get? name).getD "") := by
      intro name hname
      have hsome := hbound name (hs.mem_parameters_iff.mpr hname)
      rw [Bindings.contains] at hsome
      obtain ⟨value, hvalue⟩ := Option.isSome_iff_exists.mp hsome
      rw [hvalue, Option.getD_some]
    refine ⟨_, hvalue, ?_⟩
    rw [hs.substitute_eq hvalue] at h
    exact (Except.ok.inj h).symm
  · intro h
    obtain ⟨f, hvalue, rfl⟩ := h
    exact hs.substitute_eq hvalue

theorem Split.Of.substitute_eq_error_iff {s : Split} (hs : s.Of template) {e : PipelineError} :
    substitute template values = .error e ↔
      ∃ name, s.names.find? (!values.contains ·) = some name ∧
        e = .unexpected (.unresolvedPlaceholder name) := by
  rw [substitute, map_eq_error_iff, fill_eq_error_iff, hs.pieces_eq, placeholderNames_toPieces]

/-- **Substitution is simultaneous and verbatim.** A template is taken apart in one way only, into
the names of its parameters and texts between them without placeholders. If all of these names have
values, substitution puts each value in the place of its name and changes nothing else; if not, it
fails with the first name without a value. Values of other names do not matter, and each name in
braces as its own value gives the template back. -/
theorem substitute_verbatim (template : String) :
    ∃ s : Split, s.Of template ∧ (∀ s' : Split, s'.Of template → s' = s) ∧
      (∀ name, name ∈ parameters template ↔ name ∈ s.names) ∧
      ∀ values : Bindings String,
        ((∃ text, substitute template values = .ok text) ↔
          ∀ name ∈ parameters template, values.contains name = true) ∧
        (∀ e, substitute template values = .error e ↔
          ∃ name, s.names.find? (!values.contains ·) = some name ∧
            e = .unexpected (.unresolvedPlaceholder name)) ∧
        (∀ text, substitute template values = .ok text ↔
          ∃ f : String → String, (∀ name ∈ s.names, values.get? name = some (f name)) ∧
            text = s.render f) ∧
        (∀ values', (∀ name ∈ parameters template, values'.get? name = values.get? name) →
          substitute template values' = substitute template values) ∧
        ((∀ name ∈ parameters template, values.get? name = some (braced name)) →
          substitute template values = .ok template) := by
  have hs : (Split.ofPieces (pieces template.toList)).Of template := by
    simpa only [String.ofList_toList] using Split.of_ofPieces template.toList
  refine ⟨_, hs, fun s' hs' => hs.unique hs', fun name => hs.mem_parameters_iff, fun values =>
    ⟨substitute_isOk_iff, fun e => hs.substitute_eq_error_iff, fun text => hs.substitute_eq_ok_iff,
      fun values' => substitute_congr, fun h => ?_⟩⟩
  rw [hs.substitute_eq fun name hname => h name (hs.mem_parameters_iff.mpr hname), hs.render_eq]

/-- Values with placeholders in them stay as they are, next to each other and within braces. -/
theorem substitute_values_not_expanded :
    substitute "\x7ba\x7d\x7ba\x7d \x7b\x7bb\x7d\x7d" (.ofList [("a", "\x7bb\x7d"), ("b", "1")]) =
      .ok "\x7bb\x7d\x7bb\x7d \x7b1\x7d" ∧
    substitute "\x7ba\x7d\x7ba\x7d \x7b\x7bb\x7d\x7d"
      (.ofList [("a", "\x7ba\x7d"), ("b", "\x7bb\x7d"), ("c", "2")]) =
      .ok "\x7ba\x7d\x7ba\x7d \x7b\x7bb\x7d\x7d" := by
  obtain ⟨s, hs, -, hmem, hvalues⟩ := substitute_verbatim "\x7ba\x7d\x7ba\x7d \x7b\x7bb\x7d\x7d"
  have heq : s = ⟨"", [("a", ""), ("a", " \x7b"), ("b", "\x7d")]⟩ := by
    rw [← s.ofPieces_toPieces, ← hs.pieces_eq]
    cbv
  have hnames : s.names = ["a", "a", "b"] := by
    rw [heq]
    rfl
  constructor
  · refine ((hvalues _).2.2.1 _).mpr ⟨fun name => if name = "a" then "\x7bb\x7d" else "1", ?_, ?_⟩
    · rw [hnames]
      decide
    · rw [heq]
      decide
  · refine (hvalues _).2.2.2.2 fun name hname => ?_
    rw [hmem, hnames] at hname
    revert name
    decide

end PromptPipeline.Template
