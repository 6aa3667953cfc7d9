import PromptPipeline.Proofs.Dialect.Layout
import PromptPipeline.Proofs.Dialect.Omission

/-!
# Where the faults of a source are

A source that does not compile has a fault with a line. Few faults are those of the source as a
whole, which lacks something, and have line 1; the others come from a block, and have the number of
the line on which it starts. A block is to blame (`Blamed`) for being refused, where the blocks
before it were read; or the heading or code of a section is, where the section makes no task as a
whole (`Section.Unfit`).

Main statement: `Pipeline.ofSource_located`.
-/

namespace PromptPipeline

/-! ## Sections -/

/-- The heading of a section. -/
def Section.heading (s : Section) : Block :=
  .heading 2 s.title s.line

/-- Why a section makes no task although its blocks can be read one by one; and which block is to
blame, the heading or the code. -/
inductive Section.Unfit (s : Section) : Block → DialectFault → Prop
  | nameless (h : Name.ofTitle s.title = "") : Unfit s s.heading (.namelessTask s.title)
  | codeless (h : ∀ c ∈ s.contents, ¬c.IsCode) :
    Unfit s s.heading (.missingCodeBlock (Name.ofTitle s.title))
  | arrowless (h : ∀ c ∈ s.contents, ¬c.IsArrow) :
    Unfit s s.heading (.missingArrow (Name.ofTitle s.title))
  | language {language : Option String} {content : String} {line : Nat}
    (hscript : Asks s.contents (.execute .script))
    (hcode : .code language content line ∈ s.contents)
    (hlanguage : ScriptLanguage.ofName? (language.getD "") = none) :
    Unfit s (.code language content line) (.unsupportedLanguage (language.getD ""))
  | model {m : ModelCommand} {type : ExecutionType} (hmodel : Asks s.contents (.model m))
    (htype : Asks s.contents (.execute type)) (hne : type ≠ .promptTemplate) :
    Unfit s s.heading (.misplacedModel (Name.ofTitle s.title) type)

theorem of_contentDependencies_eq_error {type : ExecutionType} {code : CodeBlock}
    {e : PipelineError} (h : contentDependencies type code = .error e) :
    e = .dialect code.line (.unsupportedLanguage (code.language.getD "")) ∧ type = .script ∧
      ScriptLanguage.ofName? (code.language.getD "") = none := by
  cases type with
  | script =>
    simp only [contentDependencies] at h
    split at h
    next => cases h
    next hnone =>
      cases h
      exact ⟨rfl, rfl, hnone⟩
  | promptTemplate | simpleTemplate | promptDialog => cases h

theorem of_taskRequirements_eq_error {type : ExecutionType} {model : ModelSetting} {task : String}
    {line : Nat} {e : PipelineError} (h : taskRequirements type model task line = .error e) :
    e = .dialect line (.misplacedModel task type) ∧ type ≠ .promptTemplate ∧ model.set ≠ [] := by
  cases type with
  | promptTemplate => cases h
  | script | simpleTemplate | promptDialog =>
    simp only [taskRequirements] at h
    split at h
    next => cases h
    next hset =>
      cases h
      exact ⟨rfl, nofun, hset⟩

/-- A type other than the default one is one that a block asks for. -/
theorem Draft.Recalls.asks_getD {d : Draft} {outer before : List Content}
    (hr : d.Recalls outer before) (h : d.executionType.getD .promptTemplate ≠ .promptTemplate) :
    Asks before (.execute (d.executionType.getD .promptTemplate)) := by
  cases htype : d.executionType with
  | none =>
    rw [htype] at h
    exact absurd rfl h
  | some type => exact hr.executionType type htype

theorem Draft.Recalls.unfit {d : Draft} {outer : List Content} {s : Section}
    (hr : d.Recalls outer s.contents) {e : PipelineError}
    (h : d.toTask (Name.ofTitle s.title) s = .error e) :
    ∃ b fault, e = .dialect b.line fault ∧ s.Unfit b fault := by
  unfold Draft.toTask at h
  split at h
  next hcode =>
    cases h
    have hnone : ¬∃ c ∈ s.contents, c.IsCode := by
      rw [← hr.code_isSome_iff, hcode]
      nofun
    exact ⟨s.heading, _, rfl, .codeless fun c hc hiscode => hnone ⟨c, hc, hiscode⟩⟩
  next _ hresult =>
    cases h
    have hnone : ¬∃ c ∈ s.contents, c.IsArrow := by
      rw [← hr.result_isSome_iff, hresult]
      nofun
    exact ⟨s.heading, _, rfl, .arrowless fun c hc hisarrow => hnone ⟨c, hc, hisarrow⟩⟩
  next code _ hcode _ =>
    rcases bind_eq_error_iff.mp h with hdependencies | ⟨_, -, h⟩
    · obtain ⟨rfl, htype, hlanguage⟩ := of_contentDependencies_eq_error hdependencies
      have hscript := hr.asks_getD (by rw [htype]; nofun)
      rw [htype] at hscript
      exact ⟨_, _, rfl, .language hscript (hr.code code hcode) hlanguage⟩
    · have hrequirements := bind_ok_eq_error_iff.mp h
      obtain ⟨rfl, hne, hset⟩ := of_taskRequirements_eq_error hrequirements
      obtain ⟨keyword, rest, hkeyword⟩ := List.exists_cons_of_ne_nil hset
      obtain ⟨m, hmodel, -⟩ := hr.model keyword (hkeyword ▸ List.mem_cons_self)
      exact ⟨s.heading, _, rfl, .model hmodel (hr.asks_getD hne) hne⟩

namespace Section

variable {s : Section} {model : ModelSetting} {ps : List Parameter} {outer : List Content}

/-- A section fails at a block that is refused, or is unfit as a whole. -/
theorem of_toTask_eq_error {e : PipelineError} (hps : ∀ p ∈ ps, Declares outer p)
    (h : s.toTask model ps = .error e) :
    (∃ b fault, e = .dialect b.line fault ∧ s.Unfit b fault) ∨
      ∃ before c after fault, s.contents = before ++ c :: after ∧ e = .dialect c.line fault ∧
        Draft.Refuses (Name.ofTitle s.title) outer before c fault := by
  unfold toTask at h
  dsimp only at h
  have hstart := Draft.recalls_nil hps model
  split at h
  next hname =>
    cases h
    exact .inl ⟨s.heading, _, rfl, .nameless hname⟩
  next =>
    rcases bind_eq_error_iff.mp h with hread | ⟨d, hread, h⟩
    · obtain ⟨before, c, after, d, hsplit, hbefore, hc⟩ := foldlM_eq_error_iff.mp hread
      obtain ⟨fault, heq, hrefuses⟩ := (hstart.foldlM hbefore).refuses hc
      exact .inr ⟨before, c, after, fault, hsplit, heq, hrefuses⟩
    · exact .inl ((hstart.foldlM hread).unfit (bind_ok_eq_error_iff.mp h))

/-- The parameters after a section are declared in it or before it. -/
theorem declares_of_toTask {t : Task} {qs : List Parameter} (hps : ∀ p ∈ ps, Declares outer p)
    (h : s.toTask model ps = .ok (t, qs)) : ∀ q ∈ qs, Declares (outer ++ s.contents) q := by
  obtain ⟨-, d, hread, -, rfl⟩ := toTask_eq_ok_iff.mp h
  exact ((Draft.recalls_nil hps model).foldlM hread).parameters

end Section

/-- The first section that fails, with the parameters declared before it. -/
theorem of_sectionTasks_eq_error {model : ModelSetting} {ps : List Parameter}
    {outer : List Content} {sections : List Section} {e : PipelineError}
    (hps : ∀ p ∈ ps, Declares outer p) (h : sectionTasks model ps sections = .error e) :
    ∃ earlier s later ps', sections = earlier ++ s :: later ∧
      (∀ p ∈ ps', Declares (outer ++ earlier.flatMap (·.contents)) p) ∧
      s.toTask model ps' = .error e := by
  induction sections generalizing ps outer with
  | nil => cases h
  | cons s rest ih =>
    rcases bind_eq_error_iff.mp h with htask | ⟨⟨t, ps'⟩, htask, h⟩
    · refine ⟨[], s, rest, ps, rfl, ?_, htask⟩
      rwa [List.flatMap_nil, List.append_nil]
    · have hrest := bind_ok_eq_error_iff.mp h
      obtain ⟨earlier, s', later, qs, rfl, hqs, hs'⟩ := ih (s.declares_of_toTask hps htask) hrest
      refine ⟨s :: earlier, s', later, qs, rfl, ?_, hs'⟩
      rwa [List.flatMap_cons, ← List.append_assoc]

/-! ## The source -/

/-- The blocks are a title, the contents of the header, and sections. -/
def Outlined (blocks : List Block) (header : List Content) (sections : List Section) : Prop :=
  ∃ title below, blocks = title :: below ∧ title.IsTitle ∧ Outline.Groups below header sections

/-- The block is to blame for the fault of a source with these blocks. -/
inductive Blamed (blocks : List Block) : Block → DialectFault → Prop
  | untitled {first : Block} {rest : List Block} (h : blocks = first :: rest)
    (htitle : ¬first.IsTitle) : Blamed blocks first .missingTitle
  | retitled {title second : Block} {before after : List Block}
    (h : blocks = title :: (before ++ second :: after)) (htitle : title.IsTitle)
    (hbefore : ∀ b ∈ before, ¬b.IsTitle) (hsecond : second.IsTitle) :
    Blamed blocks second .secondTitle
  | header {before after : List Content} {c : Content} {sections : List Section} {b : Block}
    {fault : DialectFault} (h : Outlined blocks (before ++ c :: after) sections)
    (hb : b.StandsFor c) (hrefuses : Header.Refuses before c fault) : Blamed blocks b fault
  | inSection {header before after : List Content} {c : Content} {earlier later : List Section}
    {s : Section} {b : Block} {fault : DialectFault}
    (h : Outlined blocks header (earlier ++ s :: later)) (hs : s.contents = before ++ c :: after)
    (hb : b.StandsFor c)
    (hrefuses : Draft.Refuses (Name.ofTitle s.title)
      (header ++ earlier.flatMap (·.contents)) before c fault) : Blamed blocks b fault
  | ofSection {header : List Content} {sections : List Section} {s : Section} {b : Block}
    {fault : DialectFault} (h : Outlined blocks header sections) (hs : s ∈ sections)
    (hunfit : s.Unfit b fault) : Blamed blocks b fault

/-- The fault with its line: that on which the block to blame starts, or on which a fence is opened
that is not closed; or the first line, where the source lacks something as a whole. -/
inductive Located (lines : List (List Char)) (blocks : List Block) (unclosed : Option Nat) :
    Nat → DialectFault → Prop
  | empty (h : blocks = []) : Located lines blocks unclosed 1 .emptySource
  | unversioned {header : List Content} {sections : List Section}
    (h : Outlined blocks header sections)
    (hheader : ∀ version, ¬Asks header (.dialectVersion version)) :
    Located lines blocks unclosed 1 .missingVersion
  | parameterless {header : List Content} {sections : List Section}
    (h : Outlined blocks header sections) (hheader : ∀ d, ¬Asks header (.parameter d))
    (hsections : ∀ s ∈ sections, ∀ d, ¬Asks s.contents (.parameter d)) :
    Located lines blocks unclosed 1 .noParameters
  | fence {line : Nat} {opening : List Char} {language : Option String} (h : unclosed = some line)
    (hat : LineAt 1 lines line opening) (hopens : OpensFence opening language) :
    Located lines blocks unclosed line .unclosedFence
  | block {b : Block} {first : List Char} {fault : DialectFault} (hb : b ∈ blocks)
    (hat : LineAt 1 lines b.line first) (hbegins : b.BeginsWith first) (h : Blamed blocks b fault) :
    Located lines blocks unclosed b.line fault

variable {lines : List (List Char)} {blocks : List Block} {unclosed : Option Nat}

namespace Located

theorem of_unclosed {line : Nat} (hlayout : Layout 1 lines blocks (some line)) :
    Located lines blocks (some line) line .unclosedFence := by
  obtain ⟨opening, language, hat, hopens⟩ := hlayout.exists_opening rfl
  exact .fence rfl hat hopens

theorem of_blamed (hlayout : Layout 1 lines blocks unclosed) {b : Block} {fault : DialectFault}
    (hb : b ∈ blocks) (h : Blamed blocks b fault) :
    Located lines blocks unclosed b.line fault := by
  obtain ⟨first, hat, hbegins⟩ := hlayout.exists_line hb
  exact .block hb hat hbegins h

/-- A fault is on a line of the source, or on the first one of a source that may have none. -/
theorem line_le {line : Nat} {fault : DialectFault} (h : Located lines blocks unclosed line fault) :
    1 ≤ line ∧ line ≤ max 1 lines.length := by
  have hbounds {number : Nat} {first : List Char} (hat : LineAt 1 lines number first) :
      1 ≤ number ∧ number ≤ max 1 lines.length := by
    have hlt := hat.lt
    exact ⟨hat.1, by omega⟩
  cases h with
  | empty | unversioned | parameterless => exact ⟨Nat.le_refl 1, Nat.le_max_left ..⟩
  | fence _ hat => exact hbounds hat
  | block _ hat => exact hbounds hat

end Located

namespace Outlined

variable {header : List Content} {sections : List Section}

theorem exists_block (h : Outlined blocks header sections) {c : Content} (hc : c ∈ header) :
    ∃ b ∈ blocks, b.StandsFor c := by
  obtain ⟨title, below, rfl, -, hgroups⟩ := h
  exact List.exists_mem_cons_of_exists (hgroups.exists_block hc)

theorem exists_block_of_section (h : Outlined blocks header sections) {s : Section}
    (hs : s ∈ sections) :
    s.heading ∈ blocks ∧ ∀ c ∈ s.contents, ∃ b ∈ blocks, b.StandsFor c := by
  obtain ⟨title, below, rfl, -, hgroups⟩ := h
  obtain ⟨hheading, hcontents⟩ := hgroups.exists_block_of_section hs
  exact ⟨List.mem_cons_of_mem _ hheading,
    fun c hc => List.exists_mem_cons_of_exists (hcontents c hc)⟩

/-- The block that makes a section unfit is one of the source. -/
theorem mem_of_unfit (h : Outlined blocks header sections) {s : Section} (hs : s ∈ sections)
    {b : Block} {fault : DialectFault} (hunfit : s.Unfit b fault) : b ∈ blocks := by
  obtain ⟨hheading, hcontents⟩ := h.exists_block_of_section hs
  cases hunfit with
  | nameless | codeless | arrowless | model => exact hheading
  | language _ hcode =>
    obtain ⟨b, hb, hstands⟩ := hcontents _ hcode
    cases hstands
    exact hb

end Outlined

/-- The blocks have an outline, or one of them is to blame, or there are none. -/
theorem Outline.ofBlocks_cases (hlayout : Layout 1 lines blocks unclosed) :
    (∃ o, ofBlocks blocks = .ok o ∧ Outlined blocks o.preamble o.sections) ∨
      ∃ line fault, ofBlocks blocks = .error (.dialect line fault) ∧
        Located lines blocks unclosed line fault := by
  cases blocks with
  | nil => exact .inr ⟨1, .emptySource, rfl, .empty rfl⟩
  | cons first rest =>
    by_cases htitle : first.IsTitle
    · obtain ⟨text, line, rfl⟩ := htitle
      have hofBlocks : ofBlocks (.heading 1 text line :: rest) =
          (group rest >>= fun grouped => .ok ⟨text, grouped.1, grouped.2⟩) := rfl
      rw [hofBlocks]
      rcases group_cases rest with ⟨contents, sections, hrest, hgroups⟩ |
        ⟨before, second, after, rfl, hbefore, hsecond, hrest⟩
      · rw [hrest]
        exact .inl ⟨_, rfl, _, rest, rfl, ⟨text, line, rfl⟩, hgroups⟩
      · rw [hrest]
        have hmem : second ∈ .heading 1 text line :: (before ++ second :: after) := by simp
        exact .inr ⟨_, _, rfl,
          .of_blamed hlayout hmem (.retitled rfl ⟨text, line, rfl⟩ hbefore hsecond)⟩
    · have hofBlocks : ofBlocks (first :: rest) = .error (.dialect first.line .missingTitle) := by
        unfold ofBlocks
        split
        next text line _ heq =>
          cases heq
          exact absurd ⟨text, line, rfl⟩ htitle
        next heq => cases heq; rfl
        next heq => cases heq
      exact .inr ⟨_, _, hofBlocks,
        .of_blamed hlayout List.mem_cons_self (.untitled rfl htitle)⟩

/-- Every fault of an outline has its place. -/
theorem Pipeline.located_of_ofOutline {o : Outline} {e : PipelineError}
    (hlayout : Layout 1 lines blocks unclosed) (ho : Outlined blocks o.preamble o.sections)
    (h : ofOutline o = .error e) :
    ∃ line fault, e = .dialect line fault ∧ Located lines blocks unclosed line fault := by
  rcases bind_eq_error_iff.mp h with hread | ⟨header, hread, h⟩
  · obtain ⟨before, c, after, header, hsplit, hbefore, hc⟩ := foldlM_eq_error_iff.mp hread
    obtain ⟨fault, rfl, hrefuses⟩ := (Header.recalls_of_foldlM hbefore).refuses hc
    obtain ⟨b, hb, hstands⟩ := ho.exists_block (c := c) (by simp [hsplit])
    rw [hsplit] at ho
    exact ⟨_, fault, rfl,
      hstands.line_eq ▸ .of_blamed hlayout hb (.header ho hstands hrefuses)⟩
  · have hparameters := (Header.recalls_of_foldlM hread).parameters
    split at h
    next hversion =>
      cases h
      exact ⟨1, _, rfl, .unversioned ho fun _ hasks =>
        Header.version_ne_none hread hasks hversion⟩
    next =>
      rcases bind_eq_error_iff.mp h with htasks | ⟨⟨ts, ps⟩, htasks, h⟩
      · obtain ⟨earlier, s, later, ps, hsplit, hps, hs⟩ :=
          of_sectionTasks_eq_error hparameters htasks
        have hmem : s ∈ o.sections := by simp [hsplit]
        rcases s.of_toTask_eq_error hps hs with ⟨b, fault, rfl, hunfit⟩ |
          ⟨before, c, after, fault, hcontents, rfl, hrefuses⟩
        · exact ⟨_, fault, rfl,
            .of_blamed hlayout (ho.mem_of_unfit hmem hunfit) (.ofSection ho hmem hunfit)⟩
        · obtain ⟨b, hb, hstands⟩ := (ho.exists_block_of_section hmem).2 c (by simp [hcontents])
          rw [hsplit] at ho
          exact ⟨_, fault, rfl,
            hstands.line_eq ▸ .of_blamed hlayout hb (.inSection ho hcontents hstands hrefuses)⟩
      · dsimp only at h
        obtain ⟨hheader, hsections⟩ := sectionTasks_ne_nil htasks
        split at h
        next hps =>
          cases h
          exact ⟨1, _, rfl, .parameterless ho
            (fun _ hasks => hheader (Header.parameters_ne_nil hread hasks) hps)
            fun s hs d hasks => hsections s hs d hasks hps⟩
        next => cases h

/-- **Every source compiles or has a fault with a line.** The line is one of the source (the first
one, if there is none); and the fault is one of the blocks in which the lines are laid out: the line
is that on which the block to blame starts, or the fence that is not closed, or the first line where
the source lacks something as a whole. -/
theorem Pipeline.ofSource_located (source : String) :
    (∃ p, ofSource source = .ok p) ∨
      ∃ line fault, ofSource source = .error (.dialect line fault) ∧
        1 ≤ line ∧ line ≤ max 1 (Text.lines source.toList).length ∧
        ∃ blocks unclosed, Layout 1 (Text.lines source.toList) blocks unclosed ∧
          Located (Text.lines source.toList) blocks unclosed line fault := by
  obtain ⟨blocks, unclosed, hblocks, hlayout⟩ := Block.ofSource_layout source
  suffices h : ∀ e, ofSource source = .error e →
      ∃ line fault, e = .dialect line fault ∧
        Located (Text.lines source.toList) blocks unclosed line fault by
    cases hsource : ofSource source with
    | ok p => exact .inl ⟨p, rfl⟩
    | error e =>
      obtain ⟨line, fault, rfl, hlocated⟩ := h e hsource
      obtain ⟨hpos, hle⟩ := hlocated.line_le
      exact .inr ⟨line, fault, rfl, hpos, hle, blocks, unclosed, hlayout, hlocated⟩
  intro e h
  have houtline : Outline.ofSource source =
      (BlockState.outcome blocks unclosed >>= Outline.ofBlocks) := by
    unfold Outline.ofSource
    rw [hblocks]
  unfold ofSource at h
  rw [houtline] at h
  cases unclosed with
  | some line =>
    cases h
    exact ⟨line, _, rfl, .of_unclosed hlayout⟩
  | none =>
    have h : (Outline.ofBlocks blocks >>= ofOutline) = .error e := h
    rcases Outline.ofBlocks_cases hlayout with ⟨o, ho, houtlined⟩ | ⟨line, fault, hfault, hlocated⟩
    · rw [ho] at h
      exact located_of_ofOutline hlayout houtlined h
    · rw [hfault] at h
      cases h
      exact ⟨line, fault, rfl, hlocated⟩

end PromptPipeline
