import PromptPipeline.Dialect.Block

/-!
# The layout of a source

How the lines of a source are divided into blocks, said without a reader and its states: a block is
one line, or an opening mark with the code up to its closing mark, or prose lines in a row, as many
as there are. Each block has the number of its first line. An opening mark without a closing one
leaves its fence open up to the end of the source.

The reader of blocks keeps lines in mind while their block is not complete (`BlockState.Keeps`).
Step by step, these lines and those ahead of the reader are laid out in the blocks that it gives
(`BlockState.Keeps.layout`); at the start it keeps none.

Main statement: `Block.ofSource_layout`.
-/

namespace PromptPipeline

open Text

/-- What a line is outside a fence. -/
def LineKind.ofRawLine (line : List Char) : LineKind :=
  .ofLine (trim line)

open LineKind (ofRawLine)

/-- The block that is the line with number `n`, if a block of its kind has one line. -/
def Block.ofLine? (n : Nat) (line : List Char) : Option Block :=
  match ofRawLine line with
  | .heading level title => some (.heading level (.ofList title) n)
  | .arrow => some (.arrow (.ofList (trim line)) n)
  | .item text => some (.item (.ofList text) n)
  | _ => none

/-- The lines from number `n` on are laid out in the blocks; and `unclosed` is the number of the
line that opens a fence which is not closed, if there is one. -/
inductive Layout : Nat → List (List Char) → List Block → Option Nat → Prop
  | nil {n : Nat} : Layout n [] [] none
  | blank {n : Nat} {line : List Char} {lines : List (List Char)} {blocks : List Block}
    {unclosed : Option Nat} (hline : ofRawLine line = .blank)
    (hrest : Layout (n + 1) lines blocks unclosed) : Layout n (line :: lines) blocks unclosed
  | line {n : Nat} {line : List Char} {b : Block} {lines : List (List Char)}
    {blocks : List Block} {unclosed : Option Nat} (hline : Block.ofLine? n line = some b)
    (hrest : Layout (n + 1) lines blocks unclosed) : Layout n (line :: lines) (b :: blocks) unclosed
  | code {n : Nat} {opening info closing : List Char} {mark : FenceMark}
    {body lines : List (List Char)} {blocks : List Block} {unclosed : Option Nat}
    (hopening : ofRawLine opening = .fence mark info)
    (hbody : ∀ line ∈ body, trim line ≠ mark.chars) (hclosing : trim closing = mark.chars)
    (hrest : Layout (n + body.length + 2) lines blocks unclosed) :
    Layout n (opening :: body ++ closing :: lines)
      (.code (languageOfInfo info) (.ofList (joinLines body)) n :: blocks) unclosed
  | unclosed {n : Nat} {opening info : List Char} {mark : FenceMark} {body : List (List Char)}
    (hopening : ofRawLine opening = .fence mark info)
    (hbody : ∀ line ∈ body, trim line ≠ mark.chars) : Layout n (opening :: body) [] (some n)
  | paragraph {n : Nat} {body lines : List (List Char)} {blocks : List Block}
    {unclosed : Option Nat} (hbody : body ≠ []) (hprose : ∀ line ∈ body, ofRawLine line = .prose)
    (hend : ∀ line ∈ lines.head?, ofRawLine line ≠ .prose)
    (hrest : Layout (n + body.length) lines blocks unclosed) :
    Layout n (body ++ lines) (.paragraph (.ofList (joinLines (body.map trim))) n :: blocks) unclosed

/-! ## Where a block starts -/

/-- Of the lines from number `n` on, the one with this number. -/
def LineAt (n : Nat) (lines : List (List Char)) (number : Nat) (line : List Char) : Prop :=
  n ≤ number ∧ lines[number - n]? = some line

namespace LineAt

variable {n number : Nat} {line : List Char} {lines : List (List Char)}

theorem first (n : Nat) (line : List Char) (lines : List (List Char)) :
    LineAt n (line :: lines) n line :=
  ⟨Nat.le_refl n, by rw [Nat.sub_self, List.getElem?_cons_zero]⟩

/-- Lines before the given ones come with smaller numbers. -/
theorem append {earlier : List (List Char)} (h : LineAt (n + earlier.length) lines number line) :
    LineAt n (earlier ++ lines) number line := by
  obtain ⟨hle, hline⟩ := h
  refine ⟨by omega, ?_⟩
  rw [List.getElem?_append_right (by omega), ← hline]
  congr 1
  omega

theorem cons {earlier : List Char} (h : LineAt (n + 1) lines number line) :
    LineAt n (earlier :: lines) number line := by
  show LineAt n ([earlier] ++ lines) number line
  exact append h

theorem lt (h : LineAt n lines number line) : number < n + lines.length := by
  obtain ⟨hle, hline⟩ := h
  obtain ⟨hlt, -⟩ := List.getElem?_eq_some_iff.mp hline
  omega

end LineAt

/-- The line opens fenced code in the language. -/
def OpensFence (line : List Char) (language : Option String) : Prop :=
  ∃ mark info, ofRawLine line = .fence mark info ∧ language = languageOfInfo info

/-- The line is the first one of the block. -/
def Block.BeginsWith (b : Block) (line : List Char) : Prop :=
  match b with
  | .code language _ _ => OpensFence line language
  | .paragraph _ _ => ofRawLine line = .prose
  | .heading _ _ n | .item _ n | .arrow _ n => Block.ofLine? n line = some b

namespace Block

variable {n : Nat} {line : List Char} {b : Block}

/-- A block of one line begins with this line and has its number. -/
theorem of_ofLine?_eq_some (h : Block.ofLine? n line = some b) : b.line = n ∧ b.BeginsWith line := by
  have hblock := h
  unfold Block.ofLine? at h
  cases hkind : ofRawLine line with
  | heading level title | item text | arrow =>
    rw [hkind] at h
    cases h
    exact ⟨rfl, hblock⟩
  | blank | fence mark info | prose =>
    rw [hkind] at h
    cases h

end Block

namespace Layout

variable {n : Nat} {lines : List (List Char)} {blocks : List Block} {unclosed : Option Nat}

/-- A block has the number of a line that it begins with. -/
theorem exists_line (h : Layout n lines blocks unclosed) {b : Block} (hb : b ∈ blocks) :
    ∃ line, LineAt n lines b.line line ∧ b.BeginsWith line := by
  induction h with
  | nil => cases hb
  | blank _ _ ih =>
    obtain ⟨line, hat, hbegins⟩ := ih hb
    exact ⟨line, hat.cons, hbegins⟩
  | @line n line b' lines _ _ hline _ ih =>
    rcases List.mem_cons.mp hb with rfl | hb
    · obtain ⟨hnumber, hbegins⟩ := Block.of_ofLine?_eq_some hline
      exact ⟨line, hnumber ▸ .first n line lines, hbegins⟩
    · obtain ⟨line, hat, hbegins⟩ := ih hb
      exact ⟨line, hat.cons, hbegins⟩
  | @code n opening info closing mark body lines _ _ hopening _ _ _ ih =>
    rcases List.mem_cons.mp hb with rfl | hb
    · exact ⟨opening, .first n opening _, mark, info, hopening, rfl⟩
    · obtain ⟨line, hat, hbegins⟩ := ih hb
      have hclosed : LineAt (n + (opening :: body).length) (closing :: lines) b.line line := hat.cons
      exact ⟨line, hclosed.append, hbegins⟩
  | unclosed => cases hb
  | @paragraph n body lines _ _ hbody hprose _ _ ih =>
    rcases List.mem_cons.mp hb with rfl | hb
    · obtain ⟨line, rest, rfl⟩ := List.exists_cons_of_ne_nil hbody
      exact ⟨line, .first n line _, hprose line List.mem_cons_self⟩
    · obtain ⟨line, hat, hbegins⟩ := ih hb
      exact ⟨line, hat.append, hbegins⟩

/-- A fence that is not closed has the number of the line that opens it. -/
theorem exists_opening (h : Layout n lines blocks unclosed) {number : Nat}
    (hunclosed : unclosed = some number) :
    ∃ line language, LineAt n lines number line ∧ OpensFence line language := by
  induction h with
  | nil => cases hunclosed
  | blank _ _ ih | line _ _ ih =>
    obtain ⟨line, language, hat, hopens⟩ := ih hunclosed
    exact ⟨line, language, hat.cons, hopens⟩
  | @code n opening _ closing _ body lines _ _ _ _ _ _ ih =>
    obtain ⟨line, language, hat, hopens⟩ := ih hunclosed
    have hclosed : LineAt (n + (opening :: body).length) (closing :: lines) number line := hat.cons
    exact ⟨line, language, hclosed.append, hopens⟩
  | @unclosed n opening info mark body hopening _ =>
    obtain rfl : n = number := Option.some.inj hunclosed
    exact ⟨opening, _, .first n opening body, mark, info, hopening, rfl⟩
  | paragraph _ _ _ _ ih =>
    obtain ⟨line, language, hat, hopens⟩ := ih hunclosed
    exact ⟨line, language, hat.append, hopens⟩

end Layout

/-! ## The reader of blocks -/

namespace BlockState

/-- The reader keeps these lines in mind, the first of which has number `m`: none between blocks,
else those of a paragraph or of a fence that may go on. -/
inductive Keeps (m : Nat) : BlockState → List (List Char) → Prop
  | nothing : Keeps m (.prose [] 0) []
  | paragraph {body : List (List Char)} (hbody : body ≠ [])
    (hprose : ∀ line ∈ body, ofRawLine line = .prose) :
    Keeps m (.prose (body.map trim).reverse m) body
  | fence {opening info : List Char} {mark : FenceMark} {body : List (List Char)}
    (hopening : ofRawLine opening = .fence mark info)
    (hbody : ∀ line ∈ body, trim line ≠ mark.chars) :
    Keeps m (.fenced mark (languageOfInfo info) body.reverse m) (opening :: body)

/-- The outcome of reading blocks, which fails at a fence that is not closed. -/
def outcome (blocks : List Block) : Option Nat → Result (List Block)
  | none => .ok blocks
  | some line => .error (.dialect line .unclosedFence)

theorem outcome_append (done blocks : List Block) (unclosed : Option Nat) :
    (outcome blocks unclosed).map (done ++ ·) = outcome (done ++ blocks) unclosed := by
  cases unclosed <;> rfl

variable {n m : Nat} {line : List Char} {rest : List (List Char)} {state : BlockState}

theorem blocks_cons (n : Nat) (line : List Char) (rest : List (List Char)) (state : BlockState) :
    blocks n (line :: rest) state =
      (blocks (n + 1) rest (state.step n line).2).map ((state.step n line).1 ++ ·) :=
  rfl

/-- If a step leaves lines and a state that lead to an outcome, the state before leads to the
outcome with the blocks of the step before it. -/
theorem blocks_of_step {done blocks : List Block} {next : BlockState} {unclosed : Option Nat}
    (hstep : state.step n line = (done, next))
    (hrest : BlockState.blocks (n + 1) rest next = outcome blocks unclosed) :
    BlockState.blocks n (line :: rest) state = outcome (done ++ blocks) unclosed := by
  rw [blocks_cons, hstep, hrest, outcome_append]

theorem step_ofLine? {b : Block} (h : Block.ofLine? n line = some b) :
    step n line (.prose [] 0) = ([b], .prose [] 0) := by
  unfold Block.ofLine? ofRawLine at h
  unfold step
  cases hkind : LineKind.ofLine (trim line) with
  | heading level title | item text | arrow =>
    rw [hkind] at h
    cases h
    simp [hkind, closeParagraph]
  | blank | fence mark info | prose =>
    rw [hkind] at h
    cases h

/-- A line that is not prose ends the paragraph and is read as if there were none. -/
theorem blocks_prose_of_ne {paragraph : List (List Char)} {start : Nat}
    (h : ofRawLine line ≠ .prose) :
    blocks n (line :: rest) (.prose paragraph start) =
      (blocks n (line :: rest) (.prose [] 0)).map (closeParagraph paragraph start ++ ·) := by
  have hstep : step n line (.prose paragraph start) =
      (closeParagraph paragraph start ++ (step n line (.prose [] 0)).1,
        (step n line (.prose [] 0)).2) := by
    unfold ofRawLine at h
    unfold step
    cases hkind : LineKind.ofLine (trim line) with
    | prose => exact absurd hkind h
    | blank | heading level title | arrow | item text | fence mark info =>
      simp [hkind, closeParagraph]
  rw [blocks_cons, blocks_cons, hstep]
  cases blocks (n + 1) rest (step n line (.prose [] 0)).2 with
  | error e => rfl
  | ok bs => exact congrArg Except.ok (List.append_assoc _ _ _)

theorem closeParagraph_reverse {body : List (List Char)} (h : body ≠ []) :
    closeParagraph (body.map trim).reverse m =
      [.paragraph (.ofList (joinLines (body.map trim))) m] := by
  unfold closeParagraph
  rw [if_neg (by simpa using h), List.reverse_reverse]

/-- A reader between blocks, who reads a line next, lays out the lines if a reader who has read
this line lays out the rest. -/
theorem layout_of_next
    (h : ∀ {m : Nat} {state : BlockState} {kept : List (List Char)}, state.Keeps m kept →
      ∃ blocks unclosed, BlockState.blocks (m + kept.length) rest state = outcome blocks unclosed ∧
        Layout m (kept ++ rest) blocks unclosed) (n : Nat) (line : List Char) :
    ∃ blocks unclosed,
      BlockState.blocks n (line :: rest) (.prose [] 0) = outcome blocks unclosed ∧
        Layout n (line :: rest) blocks unclosed := by
  cases hkind : ofRawLine line with
  | blank =>
    obtain ⟨blocks, unclosed, hrest, hlayout⟩ := h (m := n + 1) .nothing
    have hstep : step n line (.prose [] 0) = ([], .prose [] 0) := by
      unfold ofRawLine at hkind
      simp [step, hkind, closeParagraph]
    exact ⟨blocks, unclosed, blocks_of_step hstep hrest, .blank hkind hlayout⟩
  | fence mark info =>
    obtain ⟨blocks, unclosed, hrest, hlayout⟩ :=
      h (m := n) (.fence hkind (List.forall_mem_nil _))
    have hstep : step n line (.prose [] 0) = ([], .fenced mark (languageOfInfo info) [] n) := by
      unfold ofRawLine at hkind
      simp [step, hkind, closeParagraph]
    exact ⟨blocks, unclosed, blocks_of_step hstep hrest, hlayout⟩
  | prose =>
    have hprose : ∀ l ∈ [line], ofRawLine l = .prose := List.forall_mem_singleton.mpr hkind
    obtain ⟨blocks, unclosed, hrest, hlayout⟩ := h (m := n) (.paragraph (by simp) hprose)
    have hstep : step n line (.prose [] 0) = ([], .prose [trim line] n) := by
      unfold ofRawLine at hkind
      simp [step, hkind]
    exact ⟨blocks, unclosed, blocks_of_step hstep hrest, hlayout⟩
  | heading level title | item text | arrow =>
    obtain ⟨blocks, unclosed, hrest, hlayout⟩ := h (m := n + 1) .nothing
    have hblock : ∃ b, Block.ofLine? n line = some b := ⟨_, by unfold Block.ofLine?; rw [hkind]⟩
    obtain ⟨b, hb⟩ := hblock
    exact ⟨b :: blocks, unclosed, blocks_of_step (step_ofLine? hb) hrest, .line hb hlayout⟩

/-- **The lines that the reader keeps in mind and those ahead are laid out in the blocks that it
gives**, up to a fence that is not closed. -/
theorem Keeps.layout {kept : List (List Char)} (h : state.Keeps m kept) (lines : List (List Char)) :
    ∃ blocks unclosed, BlockState.blocks (m + kept.length) lines state = outcome blocks unclosed ∧
      Layout m (kept ++ lines) blocks unclosed := by
  induction lines generalizing m state kept with
  | nil =>
    rw [List.append_nil]
    cases h with
    | nothing => exact ⟨[], none, rfl, .nil⟩
    | paragraph hbody hprose =>
      refine ⟨_, none, congrArg Except.ok (closeParagraph_reverse hbody), ?_⟩
      have hlayout : Layout m (kept ++ []) [_] none := .paragraph hbody hprose nofun .nil
      rwa [List.append_nil] at hlayout
    | fence hopening hbody => exact ⟨[], some m, rfl, .unclosed hopening hbody⟩
  | cons line rest ih =>
    have hbetween (n : Nat) := layout_of_next ih n line
    cases h with
    | nothing => exact hbetween m
    | paragraph hbody hprose =>
      by_cases hline : ofRawLine line = .prose
      · -- the line goes on with the paragraph
        have hkeeps : Keeps m (.prose (trim line :: (kept.map trim).reverse) m) (kept ++ [line]) := by
          have hall : ∀ l ∈ kept ++ [line], ofRawLine l = .prose :=
            List.forall_mem_append.mpr ⟨hprose, List.forall_mem_singleton.mpr hline⟩
          simpa using Keeps.paragraph (m := m) (by simp) hall
        obtain ⟨blocks, unclosed, hrest, hlayout⟩ := ih hkeeps
        rw [List.append_assoc] at hlayout
        rw [List.length_append, ← Nat.add_assoc] at hrest
        have hstep : step (m + kept.length) line (.prose (kept.map trim).reverse m) =
            ([], .prose (trim line :: (kept.map trim).reverse) m) := by
          unfold ofRawLine at hline
          simp [step, hline, hbody]
        exact ⟨blocks, unclosed, blocks_of_step hstep hrest, hlayout⟩
      · -- the line ends the paragraph
        obtain ⟨blocks, unclosed, hrest, hlayout⟩ := hbetween (m + kept.length)
        refine ⟨_, unclosed, ?_, .paragraph hbody hprose (by simpa using hline) hlayout⟩
        rw [blocks_prose_of_ne hline, hrest, closeParagraph_reverse hbody]
        exact outcome_append ..
    | @fence opening info mark body hopening hbody =>
      by_cases hline : trim line = mark.chars
      · -- the line closes the fence
        obtain ⟨blocks, unclosed, hrest, hlayout⟩ := ih (m := m + body.length + 2) .nothing
        have hstep : step (m + (opening :: body).length) line
            (.fenced mark (languageOfInfo info) body.reverse m) =
            ([.code (languageOfInfo info) (.ofList (joinLines body)) m], .prose [] 0) := by
          simp [step, hline]
        exact ⟨_, unclosed, blocks_of_step hstep hrest, .code hopening hbody hline hlayout⟩
      · -- the line is code
        have hkeeps : Keeps m (.fenced mark (languageOfInfo info) (line :: body.reverse) m)
            (opening :: (body ++ [line])) := by
          have hall : ∀ l ∈ body ++ [line], trim l ≠ mark.chars :=
            List.forall_mem_append.mpr ⟨hbody, List.forall_mem_singleton.mpr hline⟩
          simpa using Keeps.fence (m := m) hopening hall
        obtain ⟨blocks, unclosed, hrest, hlayout⟩ := ih hkeeps
        rw [List.cons_append, List.append_assoc] at hlayout
        have hstep : step (m + (opening :: body).length) line
            (.fenced mark (languageOfInfo info) body.reverse m) =
            ([], .fenced mark (languageOfInfo info) (line :: body.reverse) m) := by
          simp [step, hline]
        refine ⟨blocks, unclosed, blocks_of_step hstep ?_, hlayout⟩
        rw [← hrest, List.length_cons, List.length_cons, List.length_append, List.length_singleton]
        rfl

end BlockState

/-- **The blocks of a source are the layout of its lines**; reading them fails only at a fence that
is not closed. -/
theorem Block.ofSource_layout (source : String) : ∃ blocks unclosed,
    Block.ofSource source = BlockState.outcome blocks unclosed ∧
      Layout 1 (Text.lines source.toList) blocks unclosed :=
  BlockState.Keeps.nothing.layout _

end PromptPipeline
