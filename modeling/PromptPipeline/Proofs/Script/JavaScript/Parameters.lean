import PromptPipeline.Proofs.Script.JavaScript.Expression
import PromptPipeline.Proofs.Script.JavaScript.Layout
import PromptPipeline.Proofs.Script.JavaScript.Nesting
import PromptPipeline.Proofs.Script.JavaScript.Scope
import PromptPipeline.Script.Scan

/-!
# Default values of parameters

A parameter list binds names, some with a default value. A name is taken for bound by the token
right before it, and inside the brackets of a default value the names have the same tokens before
them as the names of the list: a bracket or a comma. So what stands in brackets in a default value
is taken for bound (`Value.nested`), and only a default value that is nothing but a name is read
(`FunctionHead.bare`). Values and parameters are trees here, and what the tokens of each bind and
use is known whatever stands behind them (`Yields`).

Main statement: `FunctionHead.freeNames_of_spells`.
-/

namespace PromptPipeline.JavaScript

/-! ## Values and parameter lists -/

/-- A default value: a name, a call of a function by its name, or an array. -/
inductive Value where
  | var (v : Variable)
  | call (callee : Variable) (arguments : List Value)
  | array (elements : List Value)

/-- A name that is bound, perhaps with a default value. -/
structure Entry where
  name : Variable
  default : Option Value

/-- A parameter: a name, a pattern of names for an object or an array, or a name for the rest. -/
inductive Parameter where
  | entry (e : Entry)
  | object (entries : List Entry)
  | array (entries : List Entry)
  | rest (v : Variable)

/-- A function without a body. That a name for the rest is the last parameter is not asked for. -/
structure FunctionHead where
  name : Variable
  parameters : List Parameter

/-- The chunks with a comma between each two. -/
def separated : List (List Token) → List Token
  | [] => []
  | [chunk] => chunk
  | chunk :: rest => chunk ++ .punctuation .comma :: separated rest

/-- The tokens between the bracket and its partner. -/
def bracketed (p : Punctuation) (ts : List Token) : List Token :=
  .punctuation p :: (ts ++ [.punctuation p.partner])

namespace Value

def tokens : Value → List Token
  | .var v => [.identifier v.name]
  | .call f arguments =>
    .identifier f.name :: bracketed .openRound (separated (arguments.map tokens))
  | .array elements => bracketed .openSquare (separated (elements.map tokens))

/-- The names that the value uses, as values and not as functions. -/
def used : Value → List String
  | .var v => [v.name]
  | .call _ arguments => (arguments.map used).flatten
  | .array elements => (elements.map used).flatten

/-- All names in the value. -/
def mentioned : Value → List String
  | .var v => [v.name]
  | .call f arguments => f.name :: (arguments.map mentioned).flatten
  | .array elements => (elements.map mentioned).flatten

/-- The names in brackets. -/
def nested : Value → List String
  | .var _ => []
  | .call _ arguments => (arguments.map mentioned).flatten
  | .array elements => (elements.map mentioned).flatten

/-- The name that the value is, if it is nothing else. -/
def bare : Value → List String
  | .var v => [v.name]
  | _ => []

end Value

namespace Entry

/-- The tokens of the name, and of the default value behind an equals sign. -/
def tokens (e : Entry) : List Token :=
  .identifier e.name.name :: e.default.elim [] fun value => .punctuation .operator :: value.tokens

/-- The name and those of its default value. -/
def names (ofValue : Value → List String) (e : Entry) : List String :=
  e.name.name :: e.default.elim [] ofValue

end Entry

namespace Parameter

def tokens : Parameter → List Token
  | .entry e => e.tokens
  | .object entries => bracketed .openCurly (separated (entries.map Entry.tokens))
  | .array entries => bracketed .openSquare (separated (entries.map Entry.tokens))
  | .rest v => [.punctuation .spread, .identifier v.name]

/-- The names that the parameter binds, with their default values. -/
def entries : Parameter → List Entry
  | .entry e => [e]
  | .object entries => entries
  | .array entries => entries
  | .rest v => [⟨v, none⟩]

end Parameter

namespace FunctionHead

/-- The tokens of the function, whose body is empty. -/
def tokens (h : FunctionHead) : List Token :=
  .identifier "function" :: .identifier h.name.name ::
    (bracketed .openRound (separated (h.parameters.map Parameter.tokens)) ++
      bracketed .openCurly [])

def entries (h : FunctionHead) : List Entry :=
  h.parameters.flatMap Parameter.entries

/-- The names that the parameter list binds. -/
def bound (h : FunctionHead) : List String :=
  h.entries.map (·.name.name)

/-- The default values. -/
def defaults (h : FunctionHead) : List Value :=
  h.entries.filterMap (·.default)

/-- The names that a default value uses. -/
def used (h : FunctionHead) : List String :=
  h.defaults.flatMap Value.used

/-- The names in the brackets of a default value. -/
def nested (h : FunctionHead) : List String :=
  h.defaults.flatMap Value.nested

/-- The names that are default values. -/
def bare (h : FunctionHead) : List String :=
  h.defaults.flatMap Value.bare

end FunctionHead

/-! ## What a row of tokens binds and uses -/

variable {t : Token} {ts rest chunk : List Token} {p : Punctuation} {v : Variable} {binds : Bool}
  {bound used bound' used' : List String}

/-- The names bound in the tokens; `binds` says whether a name at their start is. -/
def boundIn (binds : Bool) : List Token → List String
  | [] => []
  | .identifier name :: rest => (if binds then [name] else []) ++ boundIn false rest
  | .punctuation p :: rest => boundIn (Token.punctuation p).introducesBinding rest

/-- Without colons there are no keys, so the token before a name tells whether it is bound. -/
theorem boundNames_cons (h : ∀ t ∈ ts, t.labels = false) :
    boundNames (t :: ts) = boundIn t.introducesBinding ts := by
  induction ts generalizing t with
  | nil => cases t <;> rfl
  | cons t' ts ih =>
    obtain ⟨-, hts⟩ := List.forall_mem_cons.mp h
    cases t' with
    | punctuation p =>
      rw [boundIn, ← ih hts, boundNames]
      simp
    | identifier name =>
      have hkey : ts.head?.any (·.isPunctuation .colon) = false := by
        cases ts with
        | nil => rfl
        | cons next ts => exact (Bool.or_eq_false_iff.mp (hts next List.mem_cons_self)).2
      have hlater := ih (t := .identifier name) hts
      rw [boundIn, boundNames, hkey]
      cases t.introducesBinding with
      | true => exact congrArg (name :: ·) hlater
      | false => exact hlater

/-- What default values and patterns consist of: names of variables, and no label or arrow. -/
def Token.IsPlain : Token → Prop
  | .identifier name => ∃ v : Variable, v.name = name
  | .punctuation p => p ∉ [.dot, .colon, .arrow]

theorem Token.isPlain_punctuation (h : p ∉ [.dot, .colon, .arrow]) :
    (Token.punctuation p).IsPlain :=
  h

theorem Token.IsPlain.labels_eq (h : t.IsPlain) : t.labels = false := by
  cases t with
  | identifier name => rfl
  | punctuation p => cases p <;> first | rfl | exact absurd (by decide) h

theorem Token.IsPlain.declares_eq (h : t.IsPlain) : t.declares = false := by
  cases t with
  | identifier name =>
    obtain ⟨v, rfl⟩ := h
    exact declares_of_notMem_keywords v.notMem_keywords
  | punctuation p => cases p <;> first | rfl | exact absurd (by decide) h

theorem Token.IsPlain.isWritable_eq (h : t.IsPlain) : t.isWritable = true := by
  cases t with
  | identifier name =>
    obtain ⟨v, rfl⟩ := h
    exact v.isAscii
  | punctuation p => rfl

theorem Variable.readName?_eq (v : Variable) :
    (Token.identifier v.name).readName? = some v.name := by
  simp [Token.readName?, v.notMem_keywords, v.notMem_globals]

/-- Before punctuation that does not make a call of them, the tokens bind and use the names, and
they leave nothing open; `binds` says whether a name at their start is bound. -/
structure Yields (binds : Bool) (chunk : List Token) (bound used : List String) : Prop where
  isPlain : ∀ t ∈ chunk, t.IsPlain
  nested : Nested chunk
  boundIn_append : ∀ q rest, q ≠ .openRound →
    boundIn binds (chunk ++ .punctuation q :: rest) =
      bound ++ boundIn false (.punctuation q :: rest)
  valuesIn_append : ∀ q rest, q ≠ .openRound →
    valuesIn (chunk ++ .punctuation q :: rest) =
      used ++ valuesIn (.punctuation q :: rest)

namespace Yields

theorem nil (binds : Bool) : Yields binds [] [] [] where
  isPlain := List.forall_mem_nil _
  nested := .nil
  boundIn_append _ _ _ := rfl
  valuesIn_append _ _ _ := rfl

theorem var (v : Variable) (binds : Bool) :
    Yields binds [.identifier v.name] (if binds then [v.name] else []) [v.name] where
  isPlain := List.forall_mem_singleton.mpr ⟨v, rfl⟩
  nested := .cons rfl rfl .nil
  boundIn_append _ _ _ := rfl
  valuesIn_append q rest hq := by
    have hround : (Token.punctuation q).isPunctuation .openRound = false :=
      beq_eq_false_iff_ne.mpr hq.symm
    rw [List.singleton_append, valuesIn, List.head?_cons, Option.any_some, hround,
      v.readName?_eq]
    rfl

/-- A name is used before any punctuation, except where that makes a call. -/
theorem cons_var (h : Yields false (.punctuation p :: chunk) bound used) (v : Variable)
    (binds : Bool) : Yields binds (.identifier v.name :: .punctuation p :: chunk)
      ((if binds then [v.name] else []) ++ bound)
      ((if p = .openRound then [] else [v.name]) ++ used) where
  isPlain := List.forall_mem_cons.mpr ⟨⟨v, rfl⟩, h.isPlain⟩
  nested := .cons rfl rfl h.nested
  boundIn_append q rest hq := by
    rw [List.cons_append, boundIn, h.boundIn_append q rest hq, List.append_assoc]
  valuesIn_append q rest hq := by
    rw [List.cons_append, valuesIn, h.valuesIn_append q rest hq, v.readName?_eq, List.append_assoc]
    cases p <;> rfl

/-- Whether a name behind punctuation is bound depends on nothing else. -/
theorem cons_punctuation (h : Yields (Token.punctuation p).introducesBinding chunk bound used)
    (hlabel : p ∉ [.dot, .colon, .arrow]) (hopens : (Token.punctuation p).opens = false)
    (hcloses : (Token.punctuation p).closes = false) (binds : Bool) :
    Yields binds (.punctuation p :: chunk) bound used where
  isPlain := List.forall_mem_cons.mpr ⟨Token.isPlain_punctuation hlabel, h.isPlain⟩
  nested := .cons hopens hcloses h.nested
  boundIn_append := h.boundIn_append
  valuesIn_append q rest hq := by
    rw [List.cons_append, valuesIn_punctuation, h.valuesIn_append q rest hq]

theorem append_comma (h : Yields binds chunk bound used) (hrest : Yields true rest bound' used') :
    Yields binds (chunk ++ .punctuation .comma :: rest) (bound ++ bound') (used ++ used') where
  isPlain := List.forall_mem_append.mpr ⟨h.isPlain,
    List.forall_mem_cons.mpr ⟨Token.isPlain_punctuation (by decide), hrest.isPlain⟩⟩
  nested := h.nested.append (.cons rfl rfl hrest.nested)
  boundIn_append q tail hq := by
    rw [List.append_assoc, List.cons_append, h.boundIn_append _ _ (by decide), List.append_assoc,
      ← hrest.boundIn_append q tail hq]
    rfl
  valuesIn_append q tail hq := by
    rw [List.append_assoc, List.cons_append, h.valuesIn_append _ _ (by decide),
      valuesIn_punctuation, hrest.valuesIn_append q tail hq, List.append_assoc]

/-- All that is separated by commas binds and uses its names as each part does at its start. -/
theorem separated {α : Type} {l : List α} {chunkOf : α → List Token}
    {boundOf usedOf : α → List String}
    (h : ∀ x ∈ l, Yields true (chunkOf x) (boundOf x) (usedOf x)) :
    Yields true (separated (l.map chunkOf)) (l.flatMap boundOf) (l.flatMap usedOf) := by
  induction l with
  | nil => exact .nil true
  | cons x l ih =>
    obtain ⟨hx, hl⟩ := List.forall_mem_cons.mp h
    cases l with
    | nil => simpa [JavaScript.separated] using hx
    | cons y l => exact hx.append_comma (ih hl)

/-- Brackets hide what stands before them. -/
theorem bracketed (h : Yields true chunk bound used) (hp : p.opens = true) (binds : Bool) :
    Yields binds (bracketed p chunk) bound used := by
  have hplain : (Token.punctuation p).IsPlain ∧ (Token.punctuation p.partner).IsPlain := by
    cases p <;> first
      | exact ⟨Token.isPlain_punctuation (by decide), Token.isPlain_punctuation (by decide)⟩
      | cases hp
  have hintroduces : (Token.punctuation p).introducesBinding = true ∧
      (Token.punctuation p.partner).introducesBinding = false := by
    cases p <;> first | exact ⟨rfl, rfl⟩ | cases hp
  have hpartner : p.partner ≠ .openRound := by
    cases p <;> first | decide | cases hp
  refine ⟨?_, .group hp h.nested .nil, fun q rest hq => ?_, fun q rest hq => ?_⟩
  · exact List.forall_mem_cons.mpr ⟨hplain.1, List.forall_mem_append.mpr
      ⟨h.isPlain, List.forall_mem_singleton.mpr hplain.2⟩⟩
  · rw [JavaScript.bracketed, List.cons_append, List.append_assoc, List.singleton_append, boundIn,
      hintroduces.1, h.boundIn_append _ _ hpartner, boundIn, hintroduces.2]
  · rw [JavaScript.bracketed, List.cons_append, List.append_assoc, List.singleton_append,
      valuesIn_punctuation, h.valuesIn_append _ _ hpartner, valuesIn_punctuation]

end Yields

/-! ## Values, parameters and functions -/

/-- In a value that starts where names are bound every name is taken for bound, elsewhere those in
brackets. -/
theorem Value.yields (e : Value) (binds : Bool) :
    Yields binds e.tokens (if binds then e.mentioned else e.nested) e.used := by
  induction e using Value.used.induct generalizing binds with
  | case1 v =>
    rw [tokens, mentioned, nested, used]
    exact .var v binds
  | case2 f arguments ih =>
    have harguments : Yields true (separated (arguments.map tokens))
        (arguments.map mentioned).flatten (arguments.map used).flatten :=
      .separated fun e he => ih e he true
    -- The bracket makes a callee of the name, which may be taken for bound but is not used.
    have hcall := (harguments.bracketed (p := .openRound) rfl false).cons_var f binds
    rw [tokens, mentioned, nested, used]
    cases binds <;> exact hcall
  | case3 elements ih =>
    have helements : Yields true (separated (elements.map tokens))
        (elements.map mentioned).flatten (elements.map used).flatten :=
      .separated fun e he => ih e he true
    rw [tokens, mentioned, nested, used, ite_self]
    exact helements.bracketed rfl binds

theorem Entry.yields (e : Entry) :
    Yields true e.tokens (e.names Value.nested) (e.names Value.used) := by
  obtain ⟨v, default⟩ := e
  cases default with
  | none => exact .var v true
  | some value =>
    -- Behind the equals sign no name is bound, except in brackets.
    have hvalue : Yields false (.punctuation .operator :: value.tokens) value.nested value.used :=
      (value.yields false).cons_punctuation (p := .operator) (by decide) rfl rfl false
    exact hvalue.cons_var v true

theorem Parameter.yields (p : Parameter) : Yields true p.tokens
    (p.entries.flatMap (Entry.names Value.nested))
    (p.entries.flatMap (Entry.names Value.used)) := by
  cases p with
  | entry e => simpa [entries, tokens] using e.yields
  | object es => exact (Yields.separated fun e _ => e.yields).bracketed rfl true
  | array es => exact (Yields.separated fun e _ => e.yields).bracketed rfl true
  | rest v => exact (Yields.var v true).cons_punctuation (p := .spread) (by decide) rfl rfl true

theorem flatMap_subset {f g : Value → List String} {es : List Value} (h : ∀ e ∈ es, f e ⊆ g e) :
    es.flatMap f ⊆ es.flatMap g := by
  intro name hname
  obtain ⟨e, he, hname⟩ := List.mem_flatMap.mp hname
  exact List.mem_flatMap_of_mem he (h e he hname)

namespace Value

theorem used_subset_mentioned (e : Value) : e.used ⊆ e.mentioned := by
  induction e using Value.used.induct with
  | case1 v =>
    rw [used, mentioned]
    exact List.Subset.refl _
  | case2 f arguments ih =>
    rw [used, mentioned]
    exact List.subset_cons_of_subset _ (flatMap_subset ih)
  | case3 elements ih =>
    rw [used, mentioned]
    exact flatMap_subset ih

/-- What a value uses it has in brackets, or it is nothing else. -/
theorem used_subset (e : Value) : e.used ⊆ e.bare ++ e.nested := by
  cases e with
  | var v =>
    rw [used, bare]
    exact List.subset_append_left _ _
  | call f arguments =>
    rw [used, nested]
    exact flatMap_subset fun e _ => e.used_subset_mentioned
  | array elements =>
    rw [used, nested]
    exact flatMap_subset fun e _ => e.used_subset_mentioned

theorem bare_subset_used (e : Value) : e.bare ⊆ e.used := by
  cases e with
  | var v =>
    rw [used, bare]
    exact List.Subset.refl _
  | call f arguments => exact List.nil_subset _
  | array elements => exact List.nil_subset _

end Value

/-- The group that brackets are ends with them. -/
theorem takeGroup_bracketed (hp : p.opens = true) (h : Nested ts) (rest : List Token) :
    takeGroup 0 (bracketed p ts ++ rest) = bracketed p ts := by
  obtain ⟨hfirst, hlast, hlast'⟩ := Token.of_opens hp
  rw [bracketed, List.cons_append, List.append_assoc, List.singleton_append, takeGroup,
    if_pos hfirst, h.takeGroup_append, takeGroup, if_neg (by simp [hlast]), if_pos hlast',
    if_pos (Nat.le_refl 1)]

namespace FunctionHead

variable {h : FunctionHead} {name : String}

theorem yields_parameters (h : FunctionHead) :
    Yields true (separated (h.parameters.map Parameter.tokens))
      (h.entries.flatMap (Entry.names Value.nested))
      (h.entries.flatMap (Entry.names Value.used)) := by
  rw [entries, List.flatMap_assoc, List.flatMap_assoc]
  exact .separated fun p _ => p.yields

theorem mem_names_iff {ofValue : Value → List String} :
    name ∈ h.entries.flatMap (Entry.names ofValue) ↔
      name ∈ h.bound ∨ name ∈ h.defaults.flatMap ofValue := by
  rw [bound, defaults]
  induction h.entries with
  | nil => simp
  | cons e es ih =>
    obtain ⟨v, default⟩ := e
    cases default with
    | none => simp [Entry.names, ih, or_assoc]
    | some value => 
      simp [Entry.names, ih, or_assoc, or_left_comm]

/-- Behind the word for a function all tokens are plain. -/
theorem isPlain_tokens (h : FunctionHead) : ∀ t ∈ h.tokens.tail, t.IsPlain := by
  have hbody : ∀ t ∈ bracketed .openCurly [], t.IsPlain :=
    ((Yields.nil true).bracketed rfl true).isPlain
  exact List.forall_mem_cons.mpr ⟨⟨h.name, rfl⟩, List.forall_mem_append.mpr
    ⟨(h.yields_parameters.bracketed rfl true).isPlain, hbody⟩⟩

theorem isWritable_tokens (h : FunctionHead) : ∀ t ∈ h.tokens, t.isWritable = true :=
  List.forall_mem_cons.mpr ⟨by decide, fun t ht => (h.isPlain_tokens t ht).isWritable_eq⟩

/-- The function declares its name and what is taken for bound in its parameter list. -/
theorem declaredFrom_tokens (h : FunctionHead) : declaredFrom [] h.tokens =
    h.name.name :: h.entries.flatMap (Entry.names Value.nested) := by
  have hparameters := h.yields_parameters
  have hbound : boundNames
      (bracketed .openRound (separated (h.parameters.map Parameter.tokens))) =
        h.entries.flatMap (Entry.names Value.nested) := by
    have hlabels : ∀ t ∈ separated (h.parameters.map Parameter.tokens) ++
        [.punctuation .closeRound], t.labels = false :=
      List.forall_mem_append.mpr ⟨fun t ht => (hparameters.isPlain t ht).labels_eq, by decide⟩
    exact (boundNames_cons hlabels).trans ((hparameters.boundIn_append .closeRound []
      (by decide)).trans (List.append_nil _))
  have hlater : declaredFrom [.identifier "function"] h.tokens.tail = [] :=
    declaredFrom_eq_nil fun t ht => (h.isPlain_tokens t ht).declares_eq
  have hopens : Punctuation.openRound.opens = true := rfl
  rw [← hbound, ← takeGroup_bracketed hopens hparameters.nested (bracketed .openCurly [])]
  exact (congrArg (_ ++ ·) hlater).trans (List.append_nil _)

/-- It uses its parameters, and what the default values use. -/
theorem usedFrom_tokens (h : FunctionHead) : usedFrom none h.tokens =
    h.entries.flatMap (Entry.names Value.used) := by
  have hlabels : ∀ t ∈ h.tokens, t.labels = false :=
    List.forall_mem_cons.mpr ⟨rfl, fun t ht => (h.isPlain_tokens t ht).labels_eq⟩
  have hlist := (h.yields_parameters.bracketed (p := .openRound) rfl true).valuesIn_append
    .openCurly [.punctuation .closeCurly] (by decide)
  rw [usedFrom_eq_valuesIn (fun t ht => by cases ht) hlabels]
  exact hlist.trans (List.append_nil _)

/-- **What a function without a body reads, however it is laid out.** It reads the names that are
default values as they are; it does not read its own name, its parameters, and what stands in the
brackets of a default value. So it reads all that its default values use, but for its own name and
its parameters, if and only if none of these names stands in brackets; and it never reads others. -/
theorem freeNames_of_spells (h : FunctionHead) {script : String}
    (hscript : Spells h.tokens script.toList) :
    ScriptLanguage.javaScript.freeNames script =
      (NameSet.ofList h.bare).diff (.ofList (h.name.name :: h.bound ++ h.nested)) ∧
    (ScriptLanguage.javaScript.freeNames script =
        (NameSet.ofList h.used).diff (.ofList (h.name.name :: h.bound)) ↔
      ∀ name ∈ h.used, name ∈ h.nested → name ∈ h.name.name :: h.bound) ∧
    ∀ name ∈ ScriptLanguage.javaScript.freeNames script,
      name ∈ h.used ∧ name ∉ h.name.name :: h.bound := by
  have hmem (name : String) : name ∈ ScriptLanguage.javaScript.freeNames script ↔
      name ∈ h.used ∧ name ∉ h.name.name :: h.bound ∧ name ∉ h.nested := by
    show name ∈ JavaScript.freeNames (JavaScript.tokens script.toList) ↔ _
    rw [tokens_of_spells hscript, freeNames, declaredNames, NameSet.mem_diff, NameSet.mem_ofList,
      NameSet.mem_ofList, h.declaredFrom_tokens, h.usedFrom_tokens, mem_names_iff, List.mem_cons,
      mem_names_iff, List.mem_cons]
    show (_ ∨ name ∈ h.used) ∧ ¬(_ ∨ _ ∨ name ∈ h.nested) ↔ _
    tauto
  have hused (name : String) : name ∈ h.used → name ∈ h.bare ∨ name ∈ h.nested := by
    intro hname
    obtain ⟨e, he, hname⟩ := List.mem_flatMap.mp hname
    exact (List.mem_append.mp (e.used_subset hname)).imp (List.mem_flatMap_of_mem he)
      (List.mem_flatMap_of_mem he)
  have hbare (name : String) : name ∈ h.bare → name ∈ h.used := by
    intro hname
    obtain ⟨e, he, hname⟩ := List.mem_flatMap.mp hname
    exact List.mem_flatMap_of_mem he (e.bare_subset_used hname)
  refine ⟨NameSet.ext fun name => ?_, ⟨fun hall name hname hnested => ?_, fun hnone => ?_⟩, ?_⟩
  · rw [hmem, NameSet.mem_diff, NameSet.mem_ofList, NameSet.mem_ofList, List.mem_append, not_or]
    constructor
    · rintro ⟨hname, hbound, hnested⟩
      exact ⟨(hused name hname).resolve_right hnested, hbound, hnested⟩
    · rintro ⟨hname, hothers⟩
      exact ⟨hbare name hname, hothers⟩
  · by_contra hbound
    have hfree : name ∈ ScriptLanguage.javaScript.freeNames script := by
      rw [hall, NameSet.mem_diff, NameSet.mem_ofList, NameSet.mem_ofList]
      exact ⟨hname, hbound⟩
    exact ((hmem name).mp hfree).2.2 hnested
  · refine NameSet.ext fun name => ?_
    rw [hmem, NameSet.mem_diff, NameSet.mem_ofList, NameSet.mem_ofList]
    constructor
    · rintro ⟨hname, hbound, -⟩
      exact ⟨hname, hbound⟩
    · rintro ⟨hname, hbound⟩
      exact ⟨hname, hbound, fun hnested => hbound (hnone name hname hnested)⟩
  · intro name hname
    obtain ⟨hused, hbound, -⟩ := (hmem name).mp hname
    exact ⟨hused, hbound⟩

/-- A function with a parameter that is by default a call of `g` with `n`. -/
def calling : FunctionHead :=
  ⟨⟨"f", by decide, by decide, by decide⟩,
    [.entry ⟨⟨"a", by decide, by decide, by decide⟩,
      some (.call ⟨"g", by decide, by decide, by decide⟩
        [.var ⟨"n", by decide, by decide, by decide⟩])⟩]⟩

/-- A function with a pattern in which `b` is by default `c`. -/
def destructuring : FunctionHead :=
  ⟨⟨"f", by decide, by decide, by decide⟩,
    [.object [⟨⟨"b", by decide, by decide, by decide⟩,
      some (.var ⟨"c", by decide, by decide, by decide⟩)⟩],
      .rest ⟨"d", by decide, by decide, by decide⟩]⟩

/-- The argument of a call in a default value is not read; a default value that is a name is. -/
theorem argument_in_default_is_hidden :
    (spaced calling.tokens = "function f ( a = g ( n ) ) \x7b \x7d ".toList ∧
      calling.used = ["n"] ∧
      ScriptLanguage.javaScript.freeNames "function f ( a = g ( n ) ) \x7b \x7d " = .empty) ∧
    (spaced destructuring.tokens = "function f ( \x7b b = c \x7d , ... d ) \x7b \x7d ".toList ∧
      destructuring.used = ["c"] ∧
      ScriptLanguage.javaScript.freeNames "function f ( \x7b b = c \x7d , ... d ) \x7b \x7d " =
        .ofList ["c"]) := by
  have hcalling : spaced calling.tokens = "function f ( a = g ( n ) ) \x7b \x7d ".toList := by
    simp [calling, tokens, Parameter.tokens, Entry.tokens, Value.tokens, separated, bracketed,
      spaced, Punctuation.partner, Token.text, Punctuation.text]
  have hdestructuring : spaced destructuring.tokens =
      "function f ( \x7b b = c \x7d , ... d ) \x7b \x7d ".toList := by
    simp [destructuring, tokens, Parameter.tokens, Entry.tokens, Value.tokens, separated, bracketed,
      spaced, Punctuation.partner, Token.text, Punctuation.text]
  have hused : calling.used = ["n"] ∧ destructuring.used = ["c"] := by
    simp [used, defaults, entries, calling, destructuring, Parameter.entries, Value.used]
  have hnested : destructuring.nested = [] := rfl
  refine ⟨⟨hcalling, hused.1, ?_⟩, hdestructuring, hused.2, ?_⟩
  · rw [(freeNames_of_spells calling (hcalling ▸ spells_spaced calling.isWritable_tokens)).1]
    rfl
  · have hscript : Spells destructuring.tokens
        "function f ( \x7b b = c \x7d , ... d ) \x7b \x7d ".toList :=
      hdestructuring ▸ spells_spaced destructuring.isWritable_tokens
    have hall := (freeNames_of_spells destructuring hscript).2.1.mpr fun name _ hmem => by
      rw [hnested] at hmem
      cases hmem
    rw [hall, hused.2]
    decide

end FunctionHead

end PromptPipeline.JavaScript
