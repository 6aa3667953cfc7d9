import PromptPipeline.Proofs.Dialect.Outline
import PromptPipeline.Proofs.Dialect.Stages

/-!
# Blocks that are refused

Why the header or the section of a task can not go on with a block, said in terms of the blocks
before it (`Header.Refuses`, `Draft.Refuses`): a repeated command has the same keyword as an earlier
one, a second code block has one before it, an early arrow has none.

The compiler knows less of the blocks that it has read, only what they have set so far. So the loops
over header and section keep invariants that trace each thing that is set to a block
(`Header.Recalls`, `Draft.Recalls`).

Main statements: `Header.Recalls.refuses`, `Draft.Recalls.refuses`.
-/

namespace PromptPipeline

/-! ## Commands -/

/-- A list item among the contents asks for the command. -/
def Asks (contents : List Content) (command : Command) : Prop :=
  ∃ text line, .item text line ∈ contents ∧ Command.ofItem text = .ok command

/-- A list item declares the parameter, as an input and output or not. -/
def Declares (contents : List Content) (p : Parameter) : Prop :=
  ∃ d, Asks contents (.parameter d) ∧ d.name = p.name ∧ d.isInput = p.isInput ∧
    d.isOutput = p.isOutput

theorem Asks.mono {contents contents' : List Content} {command : Command}
    (h : Asks contents command) (hsubset : contents ⊆ contents') : Asks contents' command := by
  obtain ⟨text, line, hmem, hitem⟩ := h
  exact ⟨text, line, hsubset hmem, hitem⟩

theorem Declares.mono {contents contents' : List Content} {p : Parameter}
    (h : Declares contents p) (hsubset : contents ⊆ contents') : Declares contents' p := by
  obtain ⟨d, hasks, hfacets⟩ := h
  exact ⟨d, hasks.mono hsubset, hfacets⟩

/-- The command may stand once in a section. -/
def Command.IsSingle : Command → Prop
  | .pipelineUrl _ | .dialectVersion _ | .execute _ | .model _ => True
  | .joker _ | .parameter _ | .postprocess _ | .expect _ => False

/-- Why the command of a list item is refused, wherever it stands: it has no proper form, or sets
again what may be set once, or declares a parameter otherwise than before. The blocks `before` are
those of its section, and `earlier` are those of the source. -/
inductive Command.Refused (before earlier : List Content) (text : String) : DialectFault → Prop
  | rejected {fault : DialectFault} (hitem : Command.ofItem text = .error fault) :
    Refused before earlier text fault
  | repeated {command old : Command} (hitem : Command.ofItem text = .ok command)
    (hsingle : command.IsSingle) (hbefore : Asks before old)
    (hkeyword : old.keyword = command.keyword) :
    Refused before earlier text (.repeatedCommand command.keyword)
  | conflicting {d : Declaration} {p : Parameter} (hitem : Command.ofItem text = .ok (.parameter d))
    (hearlier : Declares earlier p) (hname : p.name = d.name)
    (hfacets : p.isInput ≠ d.isInput ∨ p.isOutput ≠ d.isOutput) :
    Refused before earlier text (.conflictingFacets d.name)

theorem Command.of_parse_eq_error {text : String} {line : Nat} {e : PipelineError}
    (h : Command.parse text line = .error e) :
    ∃ fault, e = .dialect line fault ∧ Command.ofItem text = .error fault := by
  unfold Command.parse at h
  cases hitem : Command.ofItem text with
  | error fault =>
    rw [hitem] at h
    cases h
    exact ⟨fault, rfl, rfl⟩
  | ok command =>
    rw [hitem] at h
    cases h

theorem of_setOnce_eq_error {α : Type} {old : Option α} {new : α} {keyword : String} {line : Nat}
    {e : PipelineError} (h : setOnce old new keyword line = .error e) :
    e = .dialect line (.repeatedCommand keyword) ∧ ∃ value, old = some value := by
  unfold setOnce at h
  split at h
  next value =>
    cases h
    exact ⟨rfl, value, rfl⟩
  next => cases h

namespace ModelSetting

/-- Each keyword that is set comes from one of the blocks. -/
def Recalls (setting : ModelSetting) (before : List Content) : Prop :=
  ∀ keyword ∈ setting.set, ∃ m : ModelCommand, Asks before (.model m) ∧ m.keyword = keyword

variable {setting setting' : ModelSetting} {before : List Content} {m : ModelCommand} {line : Nat}

theorem Recalls.mono {before' : List Content} (h : setting.Recalls before)
    (hsubset : before ⊆ before') : setting.Recalls before' := by
  intro keyword hkeyword
  obtain ⟨m, hasks, heq⟩ := h keyword hkeyword
  exact ⟨m, hasks.mono hsubset, heq⟩

theorem Recalls.apply (h : setting.Recalls before) (hm : Asks before (.model m))
    (happly : setting.apply m line = .ok setting') : setting'.Recalls before := by
  unfold ModelSetting.apply at happly
  split at happly
  next => cases happly
  next =>
    cases happly
    exact List.forall_mem_cons.mpr ⟨⟨m, hm, rfl⟩, h⟩

/-- A requirement is refused only where its keyword was set. -/
theorem Recalls.of_apply_eq_error (h : setting.Recalls before) {e : PipelineError}
    (happly : setting.apply m line = .error e) :
    e = .dialect line (.repeatedCommand (Command.model m).keyword) ∧
      ∃ old, Asks before old ∧ old.keyword = (Command.model m).keyword := by
  unfold ModelSetting.apply at happly
  split at happly
  next hset =>
    cases happly
    obtain ⟨old, hasks, hkeyword⟩ := h m.keyword (by simpa using hset)
    exact ⟨rfl, .model old, hasks, hkeyword⟩
  next => cases happly

end ModelSetting

/-- A declaration is refused only where a parameter of its name is declared otherwise. -/
theorem of_declare_eq_error {ps : List Parameter} {d : Declaration} {line : Nat}
    {e : PipelineError} (h : declare ps d line = .error e) :
    e = .dialect line (.conflictingFacets d.name) ∧ ∃ p ∈ ps, p.name = d.name ∧
      (p.isInput ≠ d.isInput ∨ p.isOutput ≠ d.isOutput) := by
  induction ps with
  | nil => cases h
  | cons p rest ih =>
    unfold declare at h
    split at h
    next hname =>
      split at h
      next hfacets =>
        cases h
        exact ⟨rfl, p, List.mem_cons_self, hname, hfacets⟩
      next => cases h
    next =>
      obtain ⟨heq, q, hq, hconflict⟩ := ih (map_eq_error_iff.mp h)
      exact ⟨heq, q, List.mem_cons_of_mem _ hq, hconflict⟩

/-- The declared parameters after one more declaration are those of the blocks with it. -/
theorem declares_of_declare {contents : List Content} {ps qs : List Parameter} {d : Declaration}
    {line : Nat} (hps : ∀ p ∈ ps, Declares contents p) (hd : Asks contents (.parameter d))
    (h : declare ps d line = .ok qs) : ∀ q ∈ qs, Declares contents q := by
  rcases declare_cases h with ⟨-, rfl⟩ | ⟨before, p, after, rfl, -, -, -, rfl⟩
  · exact List.forall_mem_append.mpr
      ⟨hps, List.forall_mem_singleton.mpr ⟨d, hd, rfl, rfl, rfl⟩⟩
  · obtain ⟨hbefore, hrest⟩ := List.forall_mem_append.mp hps
    obtain ⟨hp, hafter⟩ := List.forall_mem_cons.mp hrest
    exact List.forall_mem_append.mpr ⟨hbefore, List.forall_mem_cons.mpr ⟨hp, hafter⟩⟩

namespace Command

variable {before earlier : List Content} {text : String} {line : Nat} {e : PipelineError}

theorem refused_of_setOnce {α : Type} {old : Option α} {new : α} {make : α → Command}
    (hold : ∀ value, old = some value → Asks before (make value))
    (hitem : ofItem text = .ok (make new)) (hsingle : (make new).IsSingle)
    (hkeyword : ∀ value, (make value).keyword = (make new).keyword)
    (h : setOnce old new (make new).keyword line = .error e) :
    ∃ fault, e = .dialect line fault ∧ Refused before earlier text fault := by
  obtain ⟨rfl, value, hvalue⟩ := of_setOnce_eq_error h
  exact ⟨_, rfl, .repeated hitem hsingle (hold value hvalue) (hkeyword value)⟩

theorem refused_of_apply {setting : ModelSetting} {m : ModelCommand}
    (hsetting : setting.Recalls before) (hitem : ofItem text = .ok (.model m))
    (h : setting.apply m line = .error e) :
    ∃ fault, e = .dialect line fault ∧ Refused before earlier text fault := by
  obtain ⟨rfl, old, hbefore, hkeyword⟩ := hsetting.of_apply_eq_error h
  exact ⟨_, rfl, .repeated hitem trivial hbefore hkeyword⟩

theorem refused_of_declare {ps : List Parameter} {d : Declaration}
    (hps : ∀ p ∈ ps, Declares earlier p) (hitem : ofItem text = .ok (.parameter d))
    (h : declare ps d line = .error e) :
    ∃ fault, e = .dialect line fault ∧ Refused before earlier text fault := by
  obtain ⟨rfl, p, hp, hname, hfacets⟩ := of_declare_eq_error h
  exact ⟨_, rfl, .conflicting hitem (hps p hp) hname hfacets⟩

end Command

/-! ## The header -/

/-- Why the header can not go on with a block after those `before`. -/
inductive Header.Refuses (before : List Content) : Content → DialectFault → Prop
  | command {text : String} {line : Nat} {fault : DialectFault}
    (h : Command.Refused before before text fault) : Refuses before (.item text line) fault
  | misplaced {text : String} {line : Nat} {command : Command}
    (hitem : Command.ofItem text = .ok command) (hscope : command.scope = .task) :
    Refuses before (.item text line) (.taskCommandInHeader command.keyword)
  | code {language : Option String} {content : String} {line : Nat} :
    Refuses before (.code language content line) .contentInHeader
  | arrow {text : String} {line : Nat} : Refuses before (.arrow text line) .contentInHeader

namespace Header

/-- Whatever the header has set or declared comes from one of the blocks. -/
structure Recalls (h : Header) (before : List Content) : Prop where
  url : ∀ url, h.url = some url → Asks before (.pipelineUrl url)
  version : ∀ version, h.version = some version → Asks before (.dialectVersion version)
  model : h.model.Recalls before
  parameters : ∀ p ∈ h.parameters, Declares before p

variable {h h' : Header} {before : List Content} {c : Content}

theorem Recalls.mono {before' : List Content} (hr : h.Recalls before)
    (hsubset : before ⊆ before') : h.Recalls before' where
  url url hurl := (hr.url url hurl).mono hsubset
  version version hversion := (hr.version version hversion).mono hsubset
  model := hr.model.mono hsubset
  parameters p hp := (hr.parameters p hp).mono hsubset

/-- What one more block sets comes from this block. -/
theorem Recalls.read (hr : h.Recalls before) (hread : h.read c = .ok h') :
    h'.Recalls (before ++ [c]) := by
  have hold : h.Recalls (before ++ [c]) := hr.mono (List.subset_append_left before [c])
  have hasks {text : String} {line : Nat} {command : Command}
      (hitem : Command.ofItem text = .ok command) :
      Asks (before ++ [.item text line]) command :=
    ⟨text, line, List.mem_append_right _ List.mem_cons_self, hitem⟩
  cases read_eq_ok_iff.mp hread with
  | url hitem => exact { hold with url := by rintro _ ⟨⟩; exact hasks hitem }
  | version hitem => exact { hold with version := by rintro _ ⟨⟩; exact hasks hitem }
  | parameter hitem hdeclare =>
    exact { hold with parameters := declares_of_declare hold.parameters (hasks hitem) hdeclare }
  | model hitem happly => exact { hold with model := hold.model.apply (hasks hitem) happly }
  | paragraph => exact { hold with }

/-- A command that the header does not obey is refused, or it is one of a section. -/
theorem Recalls.refuses_of_obey (hr : h.Recalls before) {text : String} {line : Nat}
    {command : Command} {e : PipelineError} (hitem : Command.ofItem text = .ok command)
    (hobey : h.obey line command = .error e) :
    ∃ fault, e = .dialect line fault ∧ Refuses before (.item text line) fault := by
  suffices hrefused : (∃ fault, e = .dialect line fault ∧ Command.Refused before before text fault) ∨
      e = .dialect line (.taskCommandInHeader command.keyword) ∧ command.scope = .task by
    rcases hrefused with ⟨fault, heq, hfault⟩ | ⟨heq, hscope⟩
    · exact ⟨fault, heq, .command hfault⟩
    · exact ⟨_, heq, .misplaced hitem hscope⟩
  cases command with
  | pipelineUrl url =>
    exact .inl (Command.refused_of_setOnce hr.url hitem trivial (fun _ => rfl)
      (bind_ok_eq_error_iff.mp hobey))
  | dialectVersion version =>
    exact .inl (Command.refused_of_setOnce hr.version hitem trivial (fun _ => rfl)
      (bind_ok_eq_error_iff.mp hobey))
  | parameter d =>
    exact .inl (Command.refused_of_declare hr.parameters hitem (bind_ok_eq_error_iff.mp hobey))
  | model m =>
    exact .inl (Command.refused_of_apply hr.model hitem (bind_ok_eq_error_iff.mp hobey))
  | execute _ | joker _ | postprocess _ | expect _ =>
    cases hobey
    exact .inr ⟨rfl, rfl⟩

/-- A block at which the header fails is refused because of what it is and of those before it. -/
theorem Recalls.refuses (hr : h.Recalls before) {e : PipelineError} (hread : h.read c = .error e) :
    ∃ fault, e = .dialect c.line fault ∧ Refuses before c fault := by
  cases c with
  | item text line =>
    rcases bind_eq_error_iff.mp hread with hparse | ⟨command, hparse, hobey⟩
    · obtain ⟨fault, rfl, hitem⟩ := Command.of_parse_eq_error hparse
      exact ⟨fault, rfl, .command (.rejected hitem)⟩
    · exact hr.refuses_of_obey (Command.parse_eq_ok_iff.mp hparse) hobey
  | paragraph text line => cases hread
  | code language content line =>
    cases hread
    exact ⟨_, rfl, .code⟩
  | arrow text line =>
    cases hread
    exact ⟨_, rfl, .arrow⟩

theorem recalls_nil : ({} : Header).Recalls [] where
  url := nofun
  version := nofun
  model := List.forall_mem_nil _
  parameters := List.forall_mem_nil _

/-- What all blocks of the header set comes from them. -/
theorem recalls_of_foldlM {contents : List Content}
    (hread : contents.foldlM Header.read {} = .ok h) : h.Recalls contents :=
  foldlM_induction_prefix (P := fun before h => h.Recalls before)
    (fun _ _ _ _ => Recalls.read) [] recalls_nil hread

end Header

/-! ## Sections -/

/-- The content is a code block. -/
def Content.IsCode (c : Content) : Prop :=
  ∃ language content line, c = .code language content line

/-- The content is an arrow line. -/
def Content.IsArrow (c : Content) : Prop :=
  ∃ text line, c = .arrow text line

/-- Why the section of a task can not go on with a block after those `before`. The blocks `outer`
are those of the source before the section. -/
inductive Draft.Refuses (task : String) (outer before : List Content) :
    Content → DialectFault → Prop
  | command {text : String} {line : Nat} {fault : DialectFault}
    (h : Command.Refused before (outer ++ before) text fault) :
    Refuses task outer before (.item text line) fault
  | misplaced {text : String} {line : Nat} {command : Command}
    (hitem : Command.ofItem text = .ok command) (hscope : command.scope = .header) :
    Refuses task outer before (.item text line) (.headerCommandInTask command.keyword)
  | secondCode {language : Option String} {content : String} {line : Nat}
    (h : ∃ c ∈ before, c.IsCode) :
    Refuses task outer before (.code language content line) (.secondCodeBlock task)
  | secondArrow {text : String} {line : Nat} (h : ∃ c ∈ before, c.IsArrow) :
    Refuses task outer before (.arrow text line) (.secondArrow task)
  | malformedArrow {text : String} {line : Nat} (h : arrowName? text.toList = none) :
    Refuses task outer before (.arrow text line) (.malformedArrow text)
  | invalidName {text : String} {line : Nat} {name : List Char}
    (h : arrowName? text.toList = some name) (hname : Name.isParameter name = false) :
    Refuses task outer before (.arrow text line) (.invalidParameterName (.ofList name))
  | earlyArrow {text : String} {line : Nat} (h : ∀ c ∈ before, ¬c.IsCode) :
    Refuses task outer before (.arrow text line) .earlyArrow

namespace Draft

/-- Whatever the draft has set or declared comes from one of the blocks. -/
structure Traces (d : Draft) (outer before : List Content) : Prop where
  executionType : ∀ type, d.executionType = some type → Asks before (.execute type)
  model : d.model.Recalls before
  parameters : ∀ p ∈ d.parameters, Declares (outer ++ before) p
  code : ∀ code, d.code = some code → .code code.language code.content code.line ∈ before

/-- And it has a code block or a result if one of the blocks is code or an arrow. -/
structure Recalls (d : Draft) (outer before : List Content) : Prop extends
    d.Traces outer before where
  code_isSome_iff : d.code.isSome = true ↔ ∃ c ∈ before, c.IsCode
  result_isSome_iff : d.result.isSome = true ↔ ∃ c ∈ before, c.IsArrow

variable {d d' : Draft} {outer before : List Content} {c : Content} {task : String}

theorem exists_mem_append_singleton {P : Content → Prop} :
    (∃ c' ∈ before ++ [c], P c') ↔ (∃ c' ∈ before, P c') ∨ P c := by
  simp only [List.mem_append, List.mem_singleton, or_and_right, exists_or, exists_eq_left]

theorem Traces.append (h : d.Traces outer before) (c : Content) :
    d.Traces outer (before ++ [c]) where
  executionType type htype := (h.executionType type htype).mono (List.subset_append_left _ _)
  model := h.model.mono (List.subset_append_left _ _)
  parameters p hp := by
    rw [← List.append_assoc]
    exact (h.parameters p hp).mono (List.subset_append_left _ _)
  code code hcode := List.mem_append_left _ (h.code code hcode)

/-- A block that is neither code nor an arrow leaves what is known. -/
theorem Recalls.append (hr : d.Recalls outer before) (hcode : ¬c.IsCode) (harrow : ¬c.IsArrow) :
    d.Recalls outer (before ++ [c]) where
  toTraces := hr.toTraces.append c
  code_isSome_iff := by
    rw [hr.code_isSome_iff, exists_mem_append_singleton, or_iff_left hcode]
  result_isSome_iff := by
    rw [hr.result_isSome_iff, exists_mem_append_singleton, or_iff_left harrow]

/-- What one more block sets comes from this block. -/
theorem Recalls.read (hr : d.Recalls outer before) (hread : Draft.read task d c = .ok d') :
    d'.Recalls outer (before ++ [c]) := by
  have hplain (text : String) (line : Nat) : d.Recalls outer (before ++ [.item text line]) :=
    hr.append nofun nofun
  have hasks {text : String} {command : Command} (line : Nat)
      (hitem : Command.ofItem text = .ok command) :
      Asks (before ++ [.item text line]) command :=
    ⟨text, line, List.mem_append_right _ List.mem_cons_self, hitem⟩
  have hmem : c ∈ before ++ [c] := List.mem_append_right _ List.mem_cons_self
  cases read_eq_ok_iff.mp hread with
  | @execute text line _ hitem =>
    exact { hplain text line with executionType := by rintro _ ⟨⟩; exact hasks line hitem }
  | @model text line _ _ hitem happly =>
    exact { hplain text line with model := (hplain text line).model.apply (hasks line hitem) happly }
  | @parameter text line _ _ hitem hdeclare =>
    have hall := (hasks line hitem).mono (List.subset_append_right outer _)
    exact { hplain text line with
      parameters := declares_of_declare (hplain text line).parameters hall hdeclare }
  | @joker text _ line | @postprocess text _ line | @expect text line =>
    exact { hplain text line with }
  | @paragraph text line => exact { hr.append (c := .paragraph text line) nofun nofun with }
  | @code language content line =>
    exact { hr.toTraces.append _ with
      code := by rintro _ ⟨⟩; exact hmem
      code_isSome_iff := ⟨fun _ => ⟨_, hmem, language, content, line, rfl⟩, fun _ => rfl⟩
      result_isSome_iff := by
        rw [hr.result_isSome_iff, exists_mem_append_singleton, or_iff_left nofun] }
  | @arrow text line =>
    exact { hr.toTraces.append _ with
      code_isSome_iff := by
        rw [hr.code_isSome_iff, exists_mem_append_singleton, or_iff_left nofun]
      result_isSome_iff := ⟨fun _ => ⟨_, hmem, text, line, rfl⟩, fun _ => rfl⟩ }

theorem Recalls.refuses_of_readArrow {text : String} {line : Nat} (hr : d.Recalls outer before)
    {e : PipelineError} (hread : d.readArrow task text line = .error e) :
    ∃ fault, e = .dialect line fault ∧ Refuses task outer before (.arrow text line) fault := by
  unfold readArrow at hread
  split at hread
  next hsome =>
    cases hread
    exact ⟨_, rfl, .secondArrow (hr.result_isSome_iff.mp hsome)⟩
  next =>
    split at hread
    next hnone =>
      cases hread
      exact ⟨_, rfl, .malformedArrow hnone⟩
    next name hname =>
      split at hread
      next hinvalid =>
        cases hread
        exact ⟨_, rfl, .invalidName hname (by simpa using hinvalid)⟩
      next =>
        split at hread
        next hcode =>
          cases hread
          have hnone : ¬∃ c ∈ before, c.IsCode := by
            rw [← hr.code_isSome_iff]
            simpa using hcode
          exact ⟨_, rfl, .earlyArrow fun c hc hiscode => hnone ⟨c, hc, hiscode⟩⟩
        next => cases hread

/-- A command that the section does not obey is refused, or it is one of the header. -/
theorem Recalls.refuses_of_obey (hr : d.Recalls outer before) {text : String} {line : Nat}
    {command : Command} {e : PipelineError} (hitem : Command.ofItem text = .ok command)
    (hobey : d.obey line command = .error e) :
    ∃ fault, e = .dialect line fault ∧ Refuses task outer before (.item text line) fault := by
  suffices hrefused :
      (∃ fault, e = .dialect line fault ∧ Command.Refused before (outer ++ before) text fault) ∨
      e = .dialect line (.headerCommandInTask command.keyword) ∧ command.scope = .header by
    rcases hrefused with ⟨fault, heq, hfault⟩ | ⟨heq, hscope⟩
    · exact ⟨fault, heq, .command hfault⟩
    · exact ⟨_, heq, .misplaced hitem hscope⟩
  cases command with
  | execute type =>
    exact .inl (Command.refused_of_setOnce hr.executionType hitem trivial (fun _ => rfl)
      (bind_ok_eq_error_iff.mp hobey))
  | model m =>
    exact .inl (Command.refused_of_apply hr.model hitem (bind_ok_eq_error_iff.mp hobey))
  | parameter declaration =>
    exact .inl (Command.refused_of_declare hr.parameters hitem (bind_ok_eq_error_iff.mp hobey))
  | joker _ | postprocess _ | expect _ => cases hobey
  | pipelineUrl _ | dialectVersion _ =>
    cases hobey
    exact .inr ⟨rfl, rfl⟩

/-- A block at which the section fails is refused because of what it is and of those before it. -/
theorem Recalls.refuses (hr : d.Recalls outer before) {e : PipelineError}
    (hread : Draft.read task d c = .error e) :
    ∃ fault, e = .dialect c.line fault ∧ Refuses task outer before c fault := by
  cases c with
  | item text line =>
    rcases bind_eq_error_iff.mp hread with hparse | ⟨command, hparse, hobey⟩
    · obtain ⟨fault, rfl, hitem⟩ := Command.of_parse_eq_error hparse
      exact ⟨fault, rfl, .command (.rejected hitem)⟩
    · exact hr.refuses_of_obey (Command.parse_eq_ok_iff.mp hparse) hobey
  | paragraph text line => cases hread
  | code language content line =>
    simp only [Draft.read] at hread
    split at hread
    next hsome =>
      cases hread
      exact ⟨_, rfl, .secondCode (hr.code_isSome_iff.mp hsome)⟩
    next => cases hread
  | arrow text line => exact hr.refuses_of_readArrow hread

/-- What all blocks of a section set comes from them. -/
theorem Recalls.foldlM (hr : d.Recalls outer []) {contents : List Content}
    (hread : contents.foldlM (Draft.read task) d = .ok d') : d'.Recalls outer contents :=
  foldlM_induction_prefix (P := fun before d => d.Recalls outer before)
    (fun _ _ _ _ => Recalls.read) [] hr hread

/-- A draft that has read nothing knows the parameters declared before the section. -/
theorem recalls_nil {parameters : List Parameter} (hps : ∀ p ∈ parameters, Declares outer p)
    (model : ModelSetting) :
    ({ parameters, model := model.forSection } : Draft).Recalls outer [] where
  executionType := nofun
  model := List.forall_mem_nil _
  parameters p hp := by
    rw [List.append_nil]
    exact hps p hp
  code := nofun
  code_isSome_iff := by simp
  result_isSome_iff := by simp

end Draft

end PromptPipeline
