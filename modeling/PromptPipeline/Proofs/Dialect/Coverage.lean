import Mathlib.Data.List.Pairwise
import Mathlib.Logic.ExistsUnique
import PromptPipeline.Proofs.Dialect.Layout

/-!
# The lines of each block

Which lines of a source a block covers, said by their numbers. A line stands outside fences or
inside one; the fence that is open before a line follows from the lines before it alone
(`openFence`). Outside fences a heading, list item or arrow covers its own line, and a paragraph
covers a run of prose that goes on as far as there is prose; fenced code covers its opening line,
the code, and the first line that closes the fence.

The runs of lines follow one another (`Tiles`): this is read off the layout of the source block by
block (`Layout.exists_tiles`). So no line is lost and none is in two blocks (`Lossless`); and a
source can not be read if and only if a fence is left open (`UnclosedAt`).

Main statement: `Block.ofSource_lossless`.
-/

namespace PromptPipeline

open Text
open LineKind (ofRawLine)

/-! ## Open fences -/

/-- The fence that is open after a line, given the one that is open before it. -/
def FenceMark.openAfter (before : Option FenceMark) (line : List Char) : Option FenceMark :=
  match before with
  | some mark => if trim line = mark.chars then none else some mark
  | none =>
    match ofRawLine line with
    | .fence mark _ => some mark
    | _ => none

open FenceMark (openAfter)

/-- The fence that is open after the lines. -/
def openFence (lines : List (List Char)) : Option FenceMark :=
  lines.foldl openAfter none

/-- The line has this number and stands outside fences. -/
def OutsideAt (lines : List (List Char)) (number : Nat) (line : List Char) : Prop :=
  ∃ before after, lines = before ++ line :: after ∧ number = before.length + 1 ∧
    openFence before = none

/-- The line with this number opens a fence, and no later line closes it. -/
def UnclosedAt (lines : List (List Char)) (number : Nat) : Prop :=
  ∃ before opening after mark info, lines = before ++ opening :: after ∧
    number = before.length + 1 ∧ openFence before = none ∧ ofRawLine opening = .fence mark info ∧
    ∀ line ∈ after, trim line ≠ mark.chars

variable {before after body : List (List Char)} {line opening closing info : List Char}
  {mark : FenceMark}

theorem LineAt.eq {n number : Nat} {lines : List (List Char)} {line' : List Char}
    (h : LineAt n lines number line) (h' : LineAt n lines number line') : line = line' :=
  Option.some.inj (h.2.symm.trans h'.2)

theorem OutsideAt.lineAt {lines : List (List Char)} {number : Nat}
    (h : OutsideAt lines number line) : LineAt 1 lines number line := by
  obtain ⟨before, after, rfl, rfl, -⟩ := h
  have hfirst := LineAt.first (1 + before.length) line after
  rw [Nat.add_comm before.length 1]
  exact hfirst.append

/-- Of the two places at which lines are cut in two the later one is behind the earlier one. -/
theorem exists_middle {before' after' : List (List Char)}
    (h : before ++ after = before' ++ line :: after') (hle : before.length ≤ before'.length) :
    ∃ middle, before' = before ++ middle ∧ after = middle ++ line :: after' := by
  rcases List.append_eq_append_iff.mp h with ⟨middle, rfl, hafter⟩ | ⟨middle, rfl, hafter⟩
  · exact ⟨middle, rfl, hafter⟩
  · rw [List.length_append] at hle
    obtain rfl : middle = [] := List.eq_nil_of_length_eq_zero (by omega)
    exact ⟨[], by simp, hafter.symm⟩

theorem openFence_append (before after : List (List Char)) :
    openFence (before ++ after) = after.foldl openAfter (openFence before) :=
  List.foldl_append

/-- Lines that are no opening mark leave everything outside fences. -/
theorem foldl_openAfter_none (h : ∀ line ∈ body, ∀ mark info, ofRawLine line ≠ .fence mark info) :
    body.foldl openAfter none = none := by
  induction body with
  | nil => rfl
  | cons line rest ih =>
    obtain ⟨hline, hrest⟩ := List.forall_mem_cons.mp h
    have hafter : openAfter none line = none := by
      unfold openAfter
      cases hkind : ofRawLine line with
      | fence mark info => exact absurd hkind (hline mark info)
      | blank | heading level title | arrow | item text | prose => rfl
    rw [List.foldl_cons, hafter]
    exact ih hrest

/-- A fence stays open over lines that do not close it. -/
theorem foldl_openAfter_some (h : ∀ line ∈ body, trim line ≠ mark.chars) :
    body.foldl openAfter (some mark) = some mark := by
  induction body with
  | nil => rfl
  | cons line rest ih =>
    obtain ⟨hline, hrest⟩ := List.forall_mem_cons.mp h
    have hafter : openAfter (some mark) line = some mark := if_neg hline
    rw [List.foldl_cons, hafter]
    exact ih hrest

theorem openAfter_opening (h : ofRawLine opening = .fence mark info) :
    openAfter none opening = some mark := by
  unfold openAfter
  rw [h]

/-- Behind an opening mark the fence is open as long as it is not closed. -/
theorem openFence_code (hbefore : openFence before = none)
    (hopening : ofRawLine opening = .fence mark info) (hbody : ∀ line ∈ body, trim line ≠ mark.chars) :
    openFence (before ++ opening :: body) = some mark := by
  rw [openFence_append, hbefore, List.foldl_cons, openAfter_opening hopening]
  exact foldl_openAfter_some hbody

/-- A closing mark ends the fence. -/
theorem openFence_closed (hbefore : openFence before = none)
    (hopening : ofRawLine opening = .fence mark info) (hbody : ∀ line ∈ body, trim line ≠ mark.chars)
    (hclosing : trim closing = mark.chars) :
    openFence (before ++ opening :: body ++ [closing]) = none := by
  rw [openFence_append, openFence_code hbefore hopening hbody]
  exact if_pos hclosing

theorem openFence_prose (hbefore : openFence before = none)
    (hprose : ∀ line ∈ body, ofRawLine line = .prose) : openFence (before ++ body) = none := by
  rw [openFence_append, hbefore]
  refine foldl_openAfter_none fun line hline mark info hfence => ?_
  rw [hprose line hline] at hfence
  cases hfence

/-- A line that is a block on its own is neither blank nor prose, and opens no fence. -/
theorem Block.kind_of_ofLine? {n : Nat} {b : Block} (h : Block.ofLine? n line = some b) :
    ofRawLine line ≠ .blank ∧ ofRawLine line ≠ .prose ∧
      ∀ mark info, ofRawLine line ≠ .fence mark info := by
  unfold Block.ofLine? at h
  cases hkind : ofRawLine line with
  | heading level title | arrow | item text => exact ⟨nofun, nofun, nofun⟩
  | blank | fence mark info | prose =>
    rw [hkind] at h
    cases h

/-- A heading is a line of this kind. -/
theorem Block.of_ofLine?_eq_heading {n level number : Nat} {text : String}
    (h : Block.ofLine? n line = some (.heading level text number)) :
    ∃ title, ofRawLine line = .heading level title ∧ text = .ofList title := by
  unfold Block.ofLine? at h
  split at h
  next level' title hkind =>
    cases h
    exact ⟨title, hkind, rfl⟩
  next => cases h
  next => cases h
  next => cases h

/-- A closing mark stands on a line that would open a fence elsewhere. -/
theorem ofRawLine_closing (h : trim closing = mark.chars) : ofRawLine closing = .fence mark [] := by
  unfold ofRawLine
  rw [h]
  cases mark <;> rfl

/-- A closed fence opens on the line with this number; the lines in it are `body`, and the line
behind them is the first one that closes it. -/
inductive FencedAt (lines : List (List Char)) : Nat → Option String → List (List Char) → Prop
  | intro {before body after : List (List Char)} {opening info closing : List Char}
    {mark : FenceMark} (hlines : lines = before ++ (opening :: body ++ closing :: after))
    (hbefore : openFence before = none) (hopening : ofRawLine opening = .fence mark info)
    (hbody : ∀ line ∈ body, trim line ≠ mark.chars) (hclosing : trim closing = mark.chars) :
    FencedAt lines (before.length + 1) (languageOfInfo info) body

/-! ## Spans -/

/-- A block with the number of its last line. -/
structure Span where
  block : Block
  last : Nat

namespace Span

/-- The number is that of a line of the block. -/
def Has (s : Span) (number : Nat) : Prop :=
  s.block.line ≤ number ∧ number ≤ s.last

/-- The block is what the lines from its first to its last number say, in full: a paragraph does not
leave out prose before or after it, and a fence ends with the first line that closes it. -/
inductive Covers (lines : List (List Char)) : Span → Prop
  | line {b : Block} {line : List Char} (hat : OutsideAt lines b.line line)
    (hline : Block.ofLine? b.line line = some b) : Covers lines ⟨b, b.line⟩
  | code {number : Nat} {language : Option String} {body : List (List Char)}
    (h : FencedAt lines number language body) :
    Covers lines ⟨.code language (.ofList (joinLines body)) number, number + body.length + 1⟩
  | paragraph {before body after : List (List Char)} (hlines : lines = before ++ (body ++ after))
    (hbefore : openFence before = none) (hbody : body ≠ [])
    (hprose : ∀ line ∈ body, ofRawLine line = .prose)
    (hstart : ∀ line ∈ before.getLast?, ofRawLine line ≠ .prose)
    (hend : ∀ line ∈ after.head?, ofRawLine line ≠ .prose) :
    Covers lines ⟨.paragraph (.ofList (joinLines (body.map trim))) (before.length + 1),
      before.length + body.length⟩

end Span

/-- The spans cover the lines from number `first` on up to number `stop`, which is not one of them:
they follow one another, and whatever line they leave out is blank. -/
structure Tiles (lines : List (List Char)) (first stop : Nat) (spans : List Span) : Prop where
  covers : ∀ s ∈ spans, s.Covers lines
  bounds : ∀ s ∈ spans, first ≤ s.block.line ∧ s.block.line ≤ s.last
  ordered : spans.Pairwise fun s t => s.last < t.block.line
  complete : ∀ number, first ≤ number → number < stop → (∃ s ∈ spans, s.Has number) ∨
    ∃ line, OutsideAt lines number line ∧ ofRawLine line = .blank

namespace Tiles

variable {lines : List (List Char)} {first stop : Nat} {spans : List Span}

theorem nil (lines : List (List Char)) (first : Nat) : Tiles lines first first [] where
  covers := List.forall_mem_nil _
  bounds := List.forall_mem_nil _
  ordered := .nil
  complete _ hfirst hstop := absurd hfirst (Nat.not_le.mpr hstop)

/-- A blank line is left out. -/
theorem blank {line : List Char} (h : Tiles lines (first + 1) stop spans)
    (hat : OutsideAt lines first line) (hblank : ofRawLine line = .blank) :
    Tiles lines first stop spans where
  covers := h.covers
  bounds s hs := ⟨Nat.le_of_succ_le (h.bounds s hs).1, (h.bounds s hs).2⟩
  ordered := h.ordered
  complete number hfirst hstop := by
    by_cases heq : number = first
    · exact .inr ⟨line, heq ▸ hat, hblank⟩
    · exact h.complete number (by omega) hstop

/-- A span goes before those that start behind its last line. -/
theorem cons {s : Span} (h : Tiles lines first stop spans) (hs : s.Covers lines)
    (hfirst : first = s.last + 1) (hle : s.block.line ≤ s.last) :
    Tiles lines s.block.line stop (s :: spans) where
  covers := List.forall_mem_cons.mpr ⟨hs, h.covers⟩
  bounds := by
    refine List.forall_mem_cons.mpr ⟨⟨Nat.le_refl _, hle⟩, fun t ht => ?_⟩
    have hbounds := h.bounds t ht
    exact ⟨by omega, hbounds.2⟩
  ordered := by
    refine List.pairwise_cons.mpr ⟨fun t ht => ?_, h.ordered⟩
    have hbounds := h.bounds t ht
    omega
  complete number hnumber hstop := by
    by_cases hlast : number ≤ s.last
    · exact .inl ⟨s, List.mem_cons_self, hnumber, hlast⟩
    · rcases h.complete number (by omega) hstop with ⟨t, ht, hhas⟩ | hblank
      · exact .inl ⟨t, List.mem_cons_of_mem s ht, hhas⟩
      · exact .inr hblank

/-- No line is in two spans, since one of them ends before the other one starts. -/
theorem eq_of_has {s t : Span} {number : Nat} (h : Tiles lines first stop spans) (hs : s ∈ spans)
    (ht : t ∈ spans) (hhas : s.Has number) (hhas' : t.Has number) : s = t := by
  have : Std.Symm fun s t : Span => ¬(s.Has number ∧ t.Has number) := ⟨fun _ _ h h' => h h'.symm⟩
  have hapart : spans.Pairwise fun s t => ¬(s.Has number ∧ t.Has number) := by
    refine h.ordered.imp fun {s t} hlt ⟨hs, ht⟩ => ?_
    have hle := hs.2
    have hge := ht.1
    omega
  by_contra hne
  exact hapart.forall hs ht hne ⟨hhas, hhas'⟩

end Tiles

/-! ## From the layout -/

/-- The lines before those ahead have been laid out: no fence is open, and a paragraph has ended
where there is no prose. -/
structure Between (before ahead : List (List Char)) : Prop where
  outside : openFence before = none
  ended : ∀ line ∈ before.getLast?, ofRawLine line = .prose →
    ∀ next ∈ ahead.head?, ofRawLine next ≠ .prose

namespace Between

variable {ahead : List (List Char)}

theorem nil (ahead : List (List Char)) : Between [] ahead where
  outside := rfl
  ended := nofun

theorem concat (hopen : openFence (before ++ [line]) = none) (hline : ofRawLine line ≠ .prose) :
    Between (before ++ [line]) ahead where
  outside := hopen
  ended last hlast hprose := by
    rw [List.getLast?_concat] at hlast
    cases hlast
    exact absurd hprose hline

/-- Behind one line that opens no fence. -/
theorem single (h : Between before (line :: ahead)) (hprose : ofRawLine line ≠ .prose)
    (hfence : ∀ mark info, ofRawLine line ≠ .fence mark info) : Between (before ++ [line]) ahead := by
  refine concat ?_ hprose
  rw [openFence_append, h.outside]
  exact foldl_openAfter_none (List.forall_mem_singleton.mpr hfence)

/-- Behind fenced code. -/
theorem code (h : Between before (opening :: body ++ closing :: ahead))
    (hopening : ofRawLine opening = .fence mark info) (hbody : ∀ line ∈ body, trim line ≠ mark.chars)
    (hclosing : trim closing = mark.chars) :
    Between (before ++ opening :: body ++ [closing]) ahead := by
  refine concat (openFence_closed h.outside hopening hbody hclosing) ?_
  rw [ofRawLine_closing hclosing]
  nofun

/-- Behind a paragraph. -/
theorem paragraph (h : Between before (body ++ ahead))
    (hprose : ∀ line ∈ body, ofRawLine line = .prose)
    (hend : ∀ line ∈ ahead.head?, ofRawLine line ≠ .prose) : Between (before ++ body) ahead where
  outside := openFence_prose h.outside hprose
  ended _ _ _ := hend

/-- Prose ahead starts a paragraph. -/
theorem start (h : Between before (body ++ ahead)) (hbody : body ≠ [])
    (hprose : ∀ line ∈ body, ofRawLine line = .prose) :
    ∀ line ∈ before.getLast?, ofRawLine line ≠ .prose := by
  intro line hline hkind
  obtain ⟨first, others, rfl⟩ := List.exists_cons_of_ne_nil hbody
  exact h.ended line hline hkind first rfl (hprose first List.mem_cons_self)

end Between

namespace Layout

variable {lines ahead : List (List Char)} {n : Nat} {blocks : List Block} {unclosed : Option Nat}

/-- The blocks of a layout come with spans that tile its lines; and where no fence is left open, the
last one is closed. -/
theorem exists_tiles (h : Layout n ahead blocks unclosed) (hclosed : unclosed = none)
    (hlines : lines = before ++ ahead) (hn : n = before.length + 1) (hbetween : Between before ahead) :
    openFence lines = none ∧
      ∃ spans, spans.map (·.block) = blocks ∧ Tiles lines n (lines.length + 1) spans := by
  induction h generalizing before with
  | nil =>
    subst hn hlines
    rw [List.append_nil]
    exact ⟨hbetween.outside, [], rfl, .nil _ _⟩
  | @blank n line ahead blocks unclosed hline _ ih =>
    subst hn
    have hnext : Between (before ++ [line]) ahead :=
      hbetween.single (by rw [hline]; nofun) (by rw [hline]; nofun)
    obtain ⟨hend, spans, rfl, htiles⟩ := ih hclosed (by simp [hlines]) (by simp) hnext
    exact ⟨hend, spans, rfl, htiles.blank ⟨before, ahead, hlines, rfl, hbetween.outside⟩ hline⟩
  | @line n line b ahead blocks unclosed hline _ ih =>
    subst hn
    obtain ⟨-, hprose, hfence⟩ := Block.kind_of_ofLine? hline
    obtain ⟨hnumber, -⟩ := Block.of_ofLine?_eq_some hline
    obtain ⟨hend, spans, rfl, htiles⟩ :=
      ih hclosed (by simp [hlines]) (by simp) (hbetween.single hprose hfence)
    have hat : OutsideAt lines b.line line := ⟨before, ahead, hlines, hnumber, hbetween.outside⟩
    rw [← hnumber] at hline htiles ⊢
    exact ⟨hend, ⟨b, b.line⟩ :: spans, rfl, htiles.cons (.line hat hline) rfl (Nat.le_refl _)⟩
  | @code n opening info closing mark body ahead blocks unclosed hopening hbody hclosing _ ih =>
    subst hn
    obtain ⟨hend, spans, rfl, htiles⟩ := ih hclosed (by simp [hlines]) (by simp; omega)
      (hbetween.code hopening hbody hclosing)
    have hfenced := FencedAt.intro hlines hbetween.outside hopening hbody hclosing
    refine ⟨hend, _ :: spans, rfl, htiles.cons (.code hfenced) ?_ ?_⟩
    · show before.length + 1 + body.length + 2 = before.length + 1 + body.length + 1 + 1
      omega
    · show before.length + 1 ≤ before.length + 1 + body.length + 1
      omega
  | unclosed => cases hclosed
  | @paragraph n body ahead blocks unclosed hbody hprose hend _ ih =>
    subst hn
    obtain ⟨hclosed, spans, rfl, htiles⟩ := ih hclosed (by simp [hlines]) (by simp; omega)
      (hbetween.paragraph hprose hend)
    have hcovers := Span.Covers.paragraph hlines hbetween.outside hbody hprose
      (hbetween.start hbody hprose) hend
    refine ⟨hclosed, _ :: spans, rfl, htiles.cons hcovers ?_ ?_⟩
    · show before.length + 1 + body.length = before.length + body.length + 1
      omega
    · have hpos := List.length_pos_iff.mpr hbody
      show before.length + 1 ≤ before.length + body.length
      omega

/-- A fence that the layout leaves open is one that no later line closes. -/
theorem unclosedAt (h : Layout n ahead blocks unclosed) {number : Nat}
    (hunclosed : unclosed = some number) (hlines : lines = before ++ ahead)
    (hn : n = before.length + 1) (hbetween : Between before ahead) : UnclosedAt lines number := by
  induction h generalizing before with
  | nil => cases hunclosed
  | blank hline _ ih =>
    exact ih hunclosed (by simp [hlines]) (by simp [hn])
      (hbetween.single (by rw [hline]; nofun) (by rw [hline]; nofun))
  | line hline _ ih =>
    obtain ⟨-, hprose, hfence⟩ := Block.kind_of_ofLine? hline
    exact ih hunclosed (by simp [hlines]) (by simp [hn]) (hbetween.single hprose hfence)
  | code hopening hbody hclosing _ ih =>
    exact ih hunclosed (by simp [hlines]) (by simp [hn]; omega)
      (hbetween.code hopening hbody hclosing)
  | @unclosed n opening info mark body hopening hbody =>
    cases hunclosed
    exact ⟨before, opening, body, mark, info, hlines, hn, hbetween.outside, hopening, hbody⟩
  | paragraph _ hprose hend _ ih =>
    exact ih hunclosed (by simp [hlines]) (by simp [hn]; omega) (hbetween.paragraph hprose hend)

end Layout

/-! ## Fences that are left open -/

namespace UnclosedAt

variable {lines : List (List Char)} {number other : Nat}

/-- The fence is open at the end. -/
theorem openFence_ne_none (h : UnclosedAt lines number) : openFence lines ≠ none := by
  obtain ⟨before, opening, after, mark, info, rfl, -, hbefore, hopening, hafter⟩ := h
  rw [openFence_code hbefore hopening hafter]
  nofun

/-- No fence opens inside a fence, so one at most is left open. -/
theorem not_lt (h : UnclosedAt lines number) (hother : UnclosedAt lines other) : ¬number < other := by
  intro hlt
  obtain ⟨before, opening, after, mark, info, rfl, rfl, hbefore, hopening, hafter⟩ := h
  obtain ⟨before', opening', after', mark', info', hlines, rfl, hbefore', -⟩ := hother
  obtain ⟨rest, rfl, hrest⟩ := exists_middle hlines (by omega)
  obtain ⟨middle, rfl, hmiddle⟩ : ∃ middle, rest = opening :: middle ∧
      after = middle ++ opening' :: after' := by
    cases rest with
    | nil => simp at hlt
    | cons first middle =>
      obtain ⟨rfl, hafter⟩ := List.cons.inj hrest
      exact ⟨middle, rfl, hafter⟩
  have hopen : openFence (before ++ opening :: middle) = some mark :=
    openFence_code hbefore hopening fun line hline =>
      hafter line (hmiddle ▸ List.mem_append_left _ hline)
  rw [hopen] at hbefore'
  cases hbefore'

theorem eq (h : UnclosedAt lines number) (hother : UnclosedAt lines other) : number = other := by
  have hlt := h.not_lt hother
  have hgt := hother.not_lt h
  omega

end UnclosedAt

/-! ## Sources -/

/-- The spans divide the lines: they start on later and later lines, no two of them have a line in
common, and each line is in one of them, unless it is blank and outside fences. -/
structure Lossless (lines : List (List Char)) (spans : List Span) : Prop where
  covers : ∀ s ∈ spans, s.Covers lines
  increasing : spans.Pairwise fun s t => s.block.line < t.block.line
  disjoint : spans.Pairwise fun s t => s.last < t.block.line
  line_cases : ∀ number line, LineAt 1 lines number line →
    (∃! s, s ∈ spans ∧ s.Has number) ∨
      (OutsideAt lines number line ∧ ofRawLine line = .blank ∧ ∀ s ∈ spans, ¬s.Has number)

theorem Tiles.lossless {lines : List (List Char)} {spans : List Span}
    (h : Tiles lines 1 (lines.length + 1) spans) : Lossless lines spans where
  covers := h.covers
  increasing := by
    refine h.ordered.imp_of_mem fun {s t} hs _ hlt => ?_
    have hbounds := h.bounds s hs
    omega
  disjoint := h.ordered
  line_cases number line hat := by
    have hlt := hat.lt
    by_cases hsome : ∃ s ∈ spans, s.Has number
    · obtain ⟨s, hs, hhas⟩ := hsome
      exact .inl ⟨s, ⟨hs, hhas⟩, fun t ⟨ht, hhas'⟩ => h.eq_of_has ht hs hhas' hhas⟩
    · have hnone : ∀ s ∈ spans, ¬s.Has number := fun s hs hhas => hsome ⟨s, hs, hhas⟩
      rcases h.complete number hat.1 (by omega) with hsome' | ⟨line', houtside, hblank⟩
      · exact absurd hsome' hsome
      · cases houtside.lineAt.eq hat
        exact .inr ⟨houtside, hblank, hnone⟩

/-- A line in fenced code, or one of its marks, is not outside fences, unless it opens the fence. -/
theorem FencedAt.not_outsideAt {lines : List (List Char)} {number other : Nat}
    {language : Option String} (h : FencedAt lines number language body)
    (hline : ∀ mark info, ofRawLine line ≠ .fence mark info) (hle : number ≤ other)
    (hlast : other ≤ number + body.length + 1) : ¬OutsideAt lines other line := by
  rintro ⟨before', after', hlines', rfl, houtside⟩
  obtain @⟨before, body, after, opening, info, closing, mark, hlines, hbefore, hopening, hbody, -⟩ := h
  obtain ⟨middle, rfl, hmiddle⟩ := exists_middle (hlines.symm.trans hlines') (by omega)
  cases middle with
  | nil =>
    obtain ⟨rfl, -⟩ := List.cons.inj hmiddle
    exact hline mark info hopening
  | cons first middle =>
    rw [List.cons_append, List.cons_append] at hmiddle
    obtain ⟨rfl, htail⟩ := List.cons.inj hmiddle
    have hshort : middle.length ≤ body.length := by simp at hlast; omega
    obtain ⟨rest, rfl, -⟩ := exists_middle htail.symm hshort
    have hopen : openFence (before ++ opening :: middle) = some mark :=
      openFence_code hbefore hopening fun l hl => hbody l (List.mem_append_left rest hl)
    rw [hopen] at houtside
    cases houtside

namespace Lossless

variable {lines : List (List Char)} {spans : List Span} {number : Nat} {b : Block}

/-- A line outside fences that is a block on its own is one of the blocks. -/
theorem mem_of_outsideAt (h : Lossless lines spans) (hat : OutsideAt lines number line)
    (hline : Block.ofLine? number line = some b) : b ∈ spans.map (·.block) := by
  obtain ⟨hblank, hprose, hfence⟩ := Block.kind_of_ofLine? hline
  rcases h.line_cases number line hat.lineAt with ⟨s, ⟨hs, hhas⟩, -⟩ | ⟨-, hblank', -⟩
  · have hmem : s.block ∈ spans.map (·.block) := List.mem_map_of_mem hs
    cases h.covers s hs with
    | @line b' line' hat' hline' =>
      obtain rfl : number = b'.line := Nat.le_antisymm hhas.2 hhas.1
      cases hat.lineAt.eq hat'.lineAt
      cases hline.symm.trans hline'
      exact hmem
    | code hfenced => exact absurd hat (hfenced.not_outsideAt hfence hhas.1 hhas.2)
    | @paragraph before body after hlines _ _ hprose' =>
      obtain ⟨before', after', hlines', rfl, -⟩ := hat
      have hfirst : before.length + 1 ≤ before'.length + 1 := hhas.1
      have hlast : before'.length + 1 ≤ before.length + body.length := hhas.2
      obtain ⟨middle, rfl, hmiddle⟩ := exists_middle (hlines.symm.trans hlines') (by omega)
      have hmem : line ∈ body := by
        have hget : (body ++ after)[middle.length]? = some line := by simp [hmiddle]
        rw [List.length_append] at hlast
        rw [List.getElem?_append_left (by omega)] at hget
        exact List.mem_of_getElem? hget
      exact absurd (hprose' line hmem) hprose
  · exact absurd hblank' hblank

/-- A heading, a list item or an arrow is a line outside fences. -/
theorem exists_outsideAt (h : Lossless lines spans) (hb : b ∈ spans.map (·.block))
    (hcode : ∀ language content line, b ≠ .code language content line)
    (hparagraph : ∀ text line, b ≠ .paragraph text line) :
    ∃ line, OutsideAt lines b.line line ∧ Block.ofLine? b.line line = some b := by
  obtain ⟨s, hs, rfl⟩ := List.mem_map.mp hb
  cases h.covers s hs with
  | line hat hline => exact ⟨_, hat, hline⟩
  | code => exact absurd rfl (hcode _ _ _)
  | paragraph => exact absurd rfl (hparagraph _ _)

end Lossless

/-- The blocks of a source divide its lines, and no fence is left open. -/
theorem Block.lossless_of_ofSource {source : String} {blocks : List Block}
    (h : Block.ofSource source = .ok blocks) : openFence (Text.lines source.toList) = none ∧
      ∃ spans, blocks = spans.map (·.block) ∧ Lossless (Text.lines source.toList) spans := by
  obtain ⟨blocks', unclosed, hblocks, hlayout⟩ := Block.ofSource_layout source
  cases unclosed with
  | none =>
    cases h.symm.trans hblocks
    obtain ⟨hopen, spans, rfl, htiles⟩ := hlayout.exists_tiles rfl rfl rfl (.nil _)
    exact ⟨hopen, spans, rfl, htiles.lossless⟩
  | some number => cases h.symm.trans hblocks

/-- **The blocks of a source divide its lines.** Reading blocks fails exactly where a fence is left
open, with the line of its opening mark. Otherwise each block covers a run of lines, and there is no
line, but blank ones outside fences, that is not in exactly one block. -/
theorem Block.ofSource_lossless (source : String) :
    (∀ e, Block.ofSource source = .error e ↔
      ∃ number, UnclosedAt (Text.lines source.toList) number ∧
        e = .dialect number .unclosedFence) ∧
    ((∃ number, UnclosedAt (Text.lines source.toList) number) ∨
      ∃ spans, Block.ofSource source = .ok (spans.map (·.block)) ∧
        Lossless (Text.lines source.toList) spans) := by
  obtain ⟨blocks, unclosed, hblocks, hlayout⟩ := Block.ofSource_layout source
  cases unclosed with
  | none =>
    obtain ⟨hopen, spans, rfl, hlossless⟩ := Block.lossless_of_ofSource hblocks
    rw [hblocks]
    refine ⟨fun e => ⟨nofun, ?_⟩, .inr ⟨spans, rfl, hlossless⟩⟩
    rintro ⟨number, hunclosed, -⟩
    exact absurd hopen hunclosed.openFence_ne_none
  | some number =>
    rw [hblocks]
    have hunclosed := hlayout.unclosedAt rfl rfl rfl (.nil _)
    refine ⟨fun e => ⟨?_, ?_⟩, .inl ⟨number, hunclosed⟩⟩
    · rintro ⟨⟩
      exact ⟨number, hunclosed, rfl⟩
    · rintro ⟨other, hother, rfl⟩
      rw [hother.eq hunclosed]
      rfl

end PromptPipeline
