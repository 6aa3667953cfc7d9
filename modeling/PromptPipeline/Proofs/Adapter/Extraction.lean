import PromptPipeline.Proofs.Adapter.Fences
import PromptPipeline.Proofs.Dialect.Layout

/-!
# Extracting the block of code

Two readers of a text know fences in two ways. For the text function that extracts the one block of
code a mark is at the start of a line, and either mark opens and closes. For the reader of blocks a
mark may stand behind white space, and inside a fence only the mark that opened it closes it.

A text with one block of code is laid out around that block, with marks nowhere else
(`Layout.exists_onlyCode`), and its lines show whether the function finds the block: both marks have
to start their lines, and no line of the code may start with a mark, of either kind. Then the two
agree on the content as well, unless a line of the code ends with a carriage return, which the
reader of blocks takes for a part of the line break.

Main statement: `BuiltIn.extractBlock_agrees`.
-/

namespace PromptPipeline

open Text

variable {line : List Char} {mark : FenceMark}

/-! ## Texts with one block of code -/

/-- The content of a block of code. -/
def Block.content? : Block → Option String
  | .code _ content _ => some content
  | _ => none

/-- The lines have one block of code, which is between a line that starts with the mark and the
first line behind it that is the mark, white space apart. -/
structure Answer.Fenced.OnlyCode (f : Answer.Fenced) (mark : FenceMark)
    (opening closing : List Char) (lines : List (List Char)) : Prop where
  lines_eq : lines = f.before ++ opening :: (f.inside ++ closing :: f.after)
  opening : mark.chars <+: trim opening
  closing : trim closing = mark.chars
  inside : ∀ line ∈ f.inside, trim line ≠ mark.chars
  outside : ∀ line ∈ f.before ++ f.after, ¬Flush (trim line)

open LineKind (ofLine ofRawLine)
open Answer (Fenced)

/-- Lines without marks may come before those that have the block. -/
theorem Answer.Fenced.OnlyCode.behind {f : Fenced} {opening closing : List Char}
    {earlier lines : List (List Char)} (h : f.OnlyCode mark opening closing lines)
    (hearlier : ∀ line ∈ earlier, ¬Flush (trim line)) :
    OnlyCode { f with before := earlier ++ f.before } mark opening closing (earlier ++ lines) where
  lines_eq := by rw [h.lines_eq, List.append_assoc]
  opening := h.opening
  closing := h.closing
  inside := h.inside
  outside := by
    rw [List.append_assoc]
    exact List.forall_mem_append.mpr ⟨hearlier, h.outside⟩

theorem LineKind.ofLine_eq_fence_iff {info : List Char} :
    ofLine line = .fence mark info ↔ ∃ rest, line = mark.chars ++ rest ∧ info = trim rest := by
  constructor
  · intro h
    unfold ofLine at h
    -- an empty line and an arrow are known before the mark of a fence is looked for
    split at h
    next => cases h
    next => cases h
    next =>
      split at h
      next rest hmark =>
        obtain ⟨rfl, rfl⟩ := LineKind.fence.inj h
        exact ⟨rest, FenceMark.ofLine?_eq_some_iff.mp hmark, rfl⟩
      next =>
        split at h
        next => cases h
        next => split at h <;> cases h
  · rintro ⟨rest, rfl, rfl⟩
    cases mark <;> rfl

theorem flush_trim_iff : Flush (trim line) ↔ ∃ mark info, ofRawLine line = .fence mark info := by
  unfold ofRawLine
  simp only [LineKind.ofLine_eq_fence_iff]
  constructor
  · rintro ⟨mark, rest, heq⟩
    exact ⟨mark, _, rest, heq.symm, rfl⟩
  · rintro ⟨mark, _, rest, heq, -⟩
    exact ⟨mark, rest, heq.symm⟩

namespace Layout

variable {n : ℕ} {lines : List (List Char)} {blocks : List Block} {unclosed : Option ℕ}
  {content : String}

theorem not_flush_of_ofLine? {b : Block} (h : Block.ofLine? n line = some b) :
    b.content? = none ∧ ¬Flush (trim line) := by
  rw [flush_trim_iff]
  unfold Block.ofLine? at h
  cases hkind : ofRawLine line with
  | heading level title | item text | arrow =>
    rw [hkind] at h
    cases h
    simp [Block.content?]
  | blank | fence mark info | prose =>
    rw [hkind] at h
    cases h

/-- Without a block of code no line starts with a mark. -/
theorem not_flush (h : Layout n lines blocks unclosed) (hclosed : unclosed = none)
    (hnone : blocks.filterMap Block.content? = []) : ∀ line ∈ lines, ¬Flush (trim line) := by
  induction h with
  | nil => exact List.forall_mem_nil _
  | blank hline _ ih =>
    refine List.forall_mem_cons.mpr ⟨?_, ih hclosed hnone⟩
    simp [flush_trim_iff, hline]
  | line hline _ ih =>
    obtain ⟨hcontent, hflush⟩ := not_flush_of_ofLine? hline
    rw [List.filterMap_cons_none hcontent] at hnone
    exact List.forall_mem_cons.mpr ⟨hflush, ih hclosed hnone⟩
  | code => cases hnone
  | unclosed => cases hclosed
  | paragraph _ hprose _ _ ih =>
    refine List.forall_mem_append.mpr ⟨fun line hline => ?_, ih hclosed hnone⟩
    simp [flush_trim_iff, hprose line hline]

/-- **One block of code is all that the lines have of marks**, its own lines apart. -/
theorem exists_onlyCode (h : Layout n lines blocks unclosed) (hclosed : unclosed = none)
    (hone : blocks.filterMap Block.content? = [content]) :
    ∃ (f : Fenced) (mark : FenceMark) (opening closing : List Char),
      f.OnlyCode mark opening closing lines ∧ content = .ofList (joinLines f.inside) := by
  induction h with
  | nil => cases hone
  | @blank _ line _ _ _ hline _ ih =>
    obtain ⟨f, mark, opening, closing, hcode, hcontent⟩ := ih hclosed hone
    have hflush : ∀ l ∈ [line], ¬Flush (trim l) := by simp [flush_trim_iff, hline]
    exact ⟨_, mark, opening, closing, hcode.behind hflush, hcontent⟩
  | @line _ line _ _ _ _ hline _ ih =>
    obtain ⟨hnone, hflush⟩ := not_flush_of_ofLine? hline
    rw [List.filterMap_cons_none hnone] at hone
    obtain ⟨f, mark, opening, closing, hcode, hcontent⟩ := ih hclosed hone
    exact ⟨_, mark, opening, closing, hcode.behind (List.forall_mem_singleton.mpr hflush), hcontent⟩
  | @code _ opening info closing mark body after blocks _ hopening hbody hclosing hrest _ =>
    obtain ⟨hcontent, hnone⟩ := List.cons.inj hone
    obtain ⟨rest, hmark, -⟩ := LineKind.ofLine_eq_fence_iff.mp hopening
    refine ⟨⟨[], body, after⟩, mark, opening, closing, ?_, hcontent.symm⟩
    exact {
      lines_eq := rfl
      opening := ⟨rest, hmark.symm⟩
      closing := hclosing
      inside := hbody
      outside := hrest.not_flush hclosed hnone }
  | unclosed => cases hclosed
  | @paragraph _ body _ _ _ _ hprose _ _ ih =>
    obtain ⟨f, mark, opening, closing, hcode, hcontent⟩ := ih hclosed hone
    have hflush : ∀ l ∈ body, ¬Flush (trim l) := by
      intro l hl
      simp [flush_trim_iff, hprose l hl]
    exact ⟨_, mark, opening, closing, hcode.behind hflush, hcontent⟩

end Layout

/-! ## The pieces of which the lines are made -/

theorem dropCarriageReturn_sublist (line : List Char) : (dropCarriageReturn line).Sublist line := by
  unfold dropCarriageReturn
  split
  next => exact List.dropLast_sublist line
  next => exact .refl line

theorem dropCarriageReturn_of_ne (h : line.getLast? ≠ some '\r') :
    dropCarriageReturn line = line := by
  unfold dropCarriageReturn
  split
  next hlast => exact absurd hlast h
  next => rfl

/-- A carriage return at the end of a line is white space. -/
theorem trim_dropCarriageReturn (line : List Char) :
    Text.trim (dropCarriageReturn line) = Text.trim line := by
  unfold dropCarriageReturn
  split
  next hlast =>
    obtain ⟨start, rfl⟩ := List.getLast?_eq_some_iff.mp hlast
    rw [List.dropLast_concat]
    obtain ⟨g, hg, g', hg', heq⟩ := exists_eq_append_trimWhile isBlank start
    have hreturn : g' ++ ['\r'] ∈ many isBlank :=
      List.forall_mem_append.mpr ⟨hg', List.forall_mem_singleton.mpr (by decide)⟩
    have htrim := (trimmed_trim start).trim_append hg hreturn
    rw [← htrim, ← List.append_assoc, ← List.append_assoc, List.append_assoc g]
    exact congrArg (fun s => Text.trim (s ++ ['\r'])) heq.symm
  next => rfl

theorem flush_dropCarriageReturn : Flush (dropCarriageReturn line) ↔ Flush line := by
  unfold dropCarriageReturn
  split
  next hlast =>
    obtain ⟨start, rfl⟩ := List.getLast?_eq_some_iff.mp hlast
    rw [List.dropLast_concat]
    refine exists_congr fun mark => ?_
    have hne : mark.chars ≠ start ++ ['\r'] := by
      intro heq
      exact mark.notMem_chars (c := '\r') (by decide) (by simp [heq])
    rw [List.prefix_concat_iff, or_iff_right hne]
  next => rfl

section Pieces

variable {pieces : List (List Char)}

/-- The pieces have no marks that the lines do not have. -/
theorem not_flush_of_closeLines (h : ∀ line ∈ closeLines pieces, ¬Flush (trim line)) :
    ∀ piece ∈ pieces, ¬Flush (trim piece) := by
  induction pieces with
  | nil => exact List.forall_mem_nil _
  | cons piece rest ih =>
    cases rest with
    | nil =>
      -- a last piece is a line unless it is empty
      by_cases hempty : piece = []
      · rw [hempty]
        exact List.forall_mem_singleton.mpr fun hflush => hflush.ne_nil rfl
      · have hline : closeLines [piece] = [piece] := if_neg hempty
        rwa [hline] at h
    | cons next rest =>
      obtain ⟨hpiece, hlines⟩ := List.forall_mem_cons.mp h
      rw [trim_dropCarriageReturn] at hpiece
      exact List.forall_mem_cons.mpr ⟨hpiece, ih hlines⟩

/-- If the lines have one block of code, the pieces have it. -/
theorem Answer.Fenced.OnlyCode.of_closeLines {f : Fenced} {opening closing : List Char}
    (h : f.OnlyCode mark opening closing (closeLines pieces)) :
    ∃ (f' : Fenced) (opening' closing' : List Char), f'.OnlyCode mark opening' closing' pieces ∧
      f.inside = f'.inside.map dropCarriageReturn := by
  have hlines := h.lines_eq
  -- the closing line may be the last one, which keeps its carriage return; all before it are not
  rw [List.append_cons, ← List.append_assoc] at hlines
  obtain ⟨earlier, later, rfl, hearlier, hlater⟩ :=
    exists_of_closeLines_append (List.cons_ne_nil closing f.after) hlines
  obtain ⟨start, inside, rfl, hstart, hinside⟩ := List.map_eq_append_iff.mp hearlier.symm
  obtain ⟨before, opening', rfl, hbefore, hopening⟩ := List.map_eq_append_iff.mp hstart
  obtain ⟨opening', rfl, rfl⟩ := List.map_eq_singleton_iff.mp hopening
  obtain ⟨closing', after, rfl, hafter, hline⟩ := exists_of_closeLines_cons hlater
  have hclosing : trim closing = trim closing' := by
    rcases hline with rfl | ⟨rfl, -⟩
    · exact trim_dropCarriageReturn closing'
    · rfl
  obtain ⟨houtside, hbehind⟩ := List.forall_mem_append.mp h.outside
  rw [hafter] at hbehind
  refine ⟨⟨before, inside, after⟩, opening', closing', ?_, hinside.symm⟩
  constructor
  · simp
  · rw [← trim_dropCarriageReturn]
    exact h.opening
  · rw [← hclosing]
    exact h.closing
  · intro line hline
    rw [← trim_dropCarriageReturn]
    apply h.inside
    rw [← hinside]
    exact List.mem_map_of_mem hline
  · refine List.forall_mem_append.mpr ⟨fun line hline => ?_, not_flush_of_closeLines hbehind⟩
    rw [← trim_dropCarriageReturn]
    apply houtside
    rw [← hbefore]
    exact List.mem_map_of_mem hline

end Pieces

/-! ## Extracting the block of code -/

namespace Answer

variable {f : Fenced} {opening closing text : List Char} {lines : List (List Char)}

/-- The block is cut out if both of its marks start their lines, and no line of the code starts
with a mark. -/
theorem Fenced.OnlyCode.cuts (h : f.OnlyCode mark opening closing lines) (hopening : Flush opening)
    (hclosing : Flush closing) (hinside : ∀ line ∈ f.inside, ¬Flush line) :
    f.Cuts opening closing lines := by
  obtain ⟨hbefore, hafter⟩ := List.forall_mem_append.mp h.outside
  exact {
    lines_eq := h.lines_eq
    opening := hopening
    closing := hclosing
    before := fun line hline hflush => hbefore line hline hflush.trim
    inside := hinside
    after := fun line hline hflush => hafter line hline hflush.trim }

/-- If no line of the code starts with a mark, the two lines that do are those of its marks. -/
theorem Fenced.OnlyCode.flush (h : f.OnlyCode mark opening closing lines)
    (hcount : lines.countP isFence = 2) (hinside : ∀ line ∈ f.inside, ¬Flush line) :
    Flush opening ∧ Flush closing := by
  obtain ⟨hbefore, hafter⟩ := List.forall_mem_append.mp h.outside
  have hnone {ls : List (List Char)} (hls : ∀ line ∈ ls, ¬Flush (trim line)) :
      ls.countP isFence = 0 :=
    countP_isFence_eq_zero_iff.mpr fun line hline hflush => hls line hline hflush.trim
  rw [h.lines_eq, List.countP_append, List.countP_cons, List.countP_append, List.countP_cons,
    hnone hbefore, hnone hafter, countP_isFence_eq_zero_iff.mpr hinside] at hcount
  rw [← isFence_iff, ← isFence_iff]
  revert hcount
  cases isFence opening <;> cases isFence closing <;> simp

/-- Without carriage returns at their ends the lines have fewer of them, unless they had none. -/
theorem getLast?_ne_of_count_eq
    (h : (joinLines (lines.map dropCarriageReturn)).count '\r' = (joinLines lines).count '\r') :
    ∀ line ∈ lines, line.getLast? ≠ some '\r' := by
  have hle (line : List Char) : (dropCarriageReturn line).count '\r' ≤ line.count '\r' :=
    (dropCarriageReturn_sublist line).count_le _
  have hseparator : '\r' ∉ ['\n'] := by decide
  rw [joinLines, joinLines, count_joinWith hseparator, count_joinWith hseparator, List.map_map] at h
  by_contra hlast
  push Not at hlast
  obtain ⟨line, hline, hlast⟩ := hlast
  -- this line loses one, and no line gets one
  refine absurd h (List.sum_lt_sum _ _ (fun l _ => hle l) ⟨line, hline, ?_⟩).ne
  obtain ⟨start, rfl⟩ := List.getLast?_eq_some_iff.mp hlast
  simp [dropCarriageReturn]

theorem extractBlock_eq_ok_iff {x : List Char} :
    extractBlock text = .ok x ↔ ∃ f, fenced text = .ok f ∧ x = f.content := by
  unfold extractBlock
  split
  next f hf =>
    simp only [hf, Except.ok.injEq]
    constructor
    · rintro rfl
      exact ⟨f, rfl, rfl⟩
    · rintro ⟨g, rfl, rfl⟩
      rfl
  next hf => simp [hf]
  next n _ hf => simp [hf]

/-- The lines that are joined, and no others, are the pieces between line feeds. -/
theorem mem_pieces_joinLines (hlines : ∀ l ∈ lines, '\n' ∉ l) (hline : line ≠ []) :
    line ∈ pieces (joinLines lines) ↔ line ∈ lines := by
  by_cases hnone : lines = []
  · rw [hnone]
    exact iff_of_false (fun h => hline (List.mem_singleton.mp h)) List.not_mem_nil
  · rw [pieces_joinLines hnone hlines]

/-- The content of a fence has no line that starts with a mark. -/
theorem Fenced.Cuts.not_flush_of_mem (h : f.Cuts opening closing (pieces text))
    (hline : line ∈ pieces f.content) : ¬Flush line := by
  intro hflush
  have hlines : ∀ l ∈ f.inside, '\n' ∉ l :=
    fun l hl => notMem_of_mem_pieces (s := text) (by simp [h.lines_eq, hl])
  have hmem := (f.stripped_content.mem_pieces hflush.ne_nil).mpr hline
  exact h.inside line ((mem_pieces_joinLines hlines hflush.ne_nil).mp hmem) hflush

/-- **The one block of code is extracted if and only if** its marks start their lines and no line of
the code starts with a mark or ends with a carriage return. -/
theorem Fenced.OnlyCode.extractBlock_iff (h : f.OnlyCode mark opening closing (pieces text)) :
    (∃ x, extractBlock text = .ok x ∧ Stripped (joinLines (f.inside.map dropCarriageReturn)) x) ↔
      Flush opening ∧ Flush closing ∧
        ∀ line ∈ f.inside, ¬Flush line ∧ line.getLast? ≠ some '\r' := by
  constructor
  · rintro ⟨x, hx, hstripped⟩
    obtain ⟨g, hfenced, rfl⟩ := extractBlock_eq_ok_iff.mp hx
    obtain ⟨_, _, hcuts⟩ := fenced_eq_ok_iff.mp hfenced
    -- what is returned are the lines between some two that start with a mark, so none of these is
    -- in the content, and a line of the code that starts with a mark would be there
    have hlines : ∀ l ∈ f.inside.map dropCarriageReturn, '\n' ∉ l := by
      intro l hl hmem
      obtain ⟨line, hline, rfl⟩ := List.mem_map.mp hl
      have hpiece : line ∈ pieces text := by simp [h.lines_eq, hline]
      exact notMem_of_mem_pieces hpiece ((dropCarriageReturn_sublist line).mem hmem)
    have hinside : ∀ line ∈ f.inside, ¬Flush line := by
      intro line hline hflush
      have hdrop : Flush (dropCarriageReturn line) := flush_dropCarriageReturn.mpr hflush
      have hmem := (mem_pieces_joinLines hlines hdrop.ne_nil).mpr (List.mem_map_of_mem hline)
      exact hcuts.not_flush_of_mem ((hstripped.mem_pieces hdrop.ne_nil).mp hmem) hdrop
    obtain ⟨hopening, hclosing⟩ := h.flush hcuts.countP_isFence hinside
    obtain rfl : f = g :=
      Except.ok.inj ((h.cuts hopening hclosing hinside).fenced_eq.symm.trans hfenced)
    -- the parts are the same, so carriage returns are all that could differ
    have hreturn : '\r' ≠ '\n' := by decide
    have hcount := (hstripped.count hreturn).trans (f.stripped_content.count hreturn).symm
    refine ⟨hopening, hclosing, ?_⟩
    intro line hline
    exact ⟨hinside line hline, getLast?_ne_of_count_eq hcount line hline⟩
  · rintro ⟨hopening, hclosing, hlines⟩
    have hcuts := h.cuts hopening hclosing fun line hline => (hlines line hline).1
    have hkeep : f.inside.map dropCarriageReturn = f.inside.map id := by
      apply List.map_congr_left
      intro line hline
      exact dropCarriageReturn_of_ne (hlines line hline).2
    rw [hkeep, List.map_id]
    exact ⟨f.content, extractBlock_eq_ok_iff.mpr ⟨f, hcuts.fenced_eq, rfl⟩, f.stripped_content⟩

end Answer

namespace BuiltIn

/-- **The function that extracts the block agrees with the reader of blocks** on texts without a
block of code: there it fails. On a text with one block it gives the content that the reader finds,
but for the line feeds at its ends, if and only if both marks of the block start their lines and no
line of the code starts with a mark, of either kind, or ends with a carriage return. -/
theorem extractBlock_agrees {source : String} {blocks : List Block}
    (h : Block.ofSource source = .ok blocks) :
    (blocks.filterMap Block.content? = [] →
      extractBlock.apply source = .error "No code block found") ∧
    ∀ content, blocks.filterMap Block.content? = [content] →
      ∃ (f : Fenced) (mark : FenceMark) (opening closing : List Char),
        f.OnlyCode mark opening closing (pieces source.toList) ∧
        content = .ofList (joinLines (f.inside.map dropCarriageReturn)) ∧
        ((∃ x, extractBlock.apply source = .ok x ∧ Stripped content.toList x.toList) ↔
          Flush opening ∧ Flush closing ∧
            ∀ line ∈ f.inside, ¬Flush line ∧ line.getLast? ≠ some '\r') := by
  obtain ⟨blocks', unclosed, hblocks, hlayout⟩ := Block.ofSource_layout source
  cases unclosed with
  | some number => cases h.symm.trans hblocks
  | none =>
    cases h.symm.trans hblocks
    constructor
    · intro hnone
      have hflush : ∀ line ∈ pieces source.toList, ¬Flush line := by
        intro line hline hflush
        exact not_flush_of_closeLines (hlayout.not_flush rfl hnone) line hline hflush.trim
      show (Answer.extractBlock source.toList).map String.ofList = _
      unfold Answer.extractBlock
      rw [Answer.fenced_of_forall hflush]
      rfl
    · intro content hone
      obtain ⟨g, mark, _, _, hcode, rfl⟩ := hlayout.exists_onlyCode rfl hone
      obtain ⟨f, opening, closing, hcode, hinside⟩ := hcode.of_closeLines
      refine ⟨f, mark, opening, closing, hcode, congrArg _ (congrArg joinLines hinside), ?_⟩
      rw [← hcode.extractBlock_iff, String.toList_ofList, hinside]
      show (∃ x, (Answer.extractBlock source.toList).map String.ofList = .ok x ∧ _) ↔ _
      cases Answer.extractBlock source.toList with
      | error e => simp [Except.map]
      | ok x => simp [Except.map]

example : extractBlock.apply "See:\n\n```js\nf(1);\n\n```\nEnjoy" = .ok "f(1);" := by decide

/-- A block of code whose one line is the other mark: it is counted as a fence that is not there. -/
theorem other_mark_is_counted :
    Block.ofSource "```\n~~~\n```" = .ok [.code none "~~~" 1] ∧
    extractBlock.apply "```\n~~~\n```" =
      .error "Expected exactly one code block, found 1" ∧
    ∃ (f : Fenced) (mark : FenceMark) (opening closing : List Char),
      f.OnlyCode mark opening closing (pieces "```\n~~~\n```".toList) ∧
      ¬(Flush opening ∧ Flush closing ∧
        ∀ line ∈ f.inside, ¬Flush line ∧ line.getLast? ≠ some '\r') := by
  have hblocks : Block.ofSource "```\n~~~\n```" = .ok [.code none "~~~" 1] := by decide
  have hfails : extractBlock.apply "```\n~~~\n```" =
      .error "Expected exactly one code block, found 1" := by decide
  obtain ⟨-, hone⟩ := extractBlock_agrees hblocks
  obtain ⟨f, mark, opening, closing, hcode, -, hiff⟩ := hone "~~~" rfl
  refine ⟨hblocks, hfails, f, mark, opening, closing, hcode, fun hlines => ?_⟩
  obtain ⟨x, hx, -⟩ := hiff.mpr hlines
  cases hfails.symm.trans hx

end BuiltIn

end PromptPipeline
