import PromptPipeline.Adapter.TextFunction
import PromptPipeline.Proofs.Text.Words

/-!
# Taking fences off

The text functions that look for a fence count the lines that start with a mark, of either kind, and
go to work only if there are two of them: the lines before the first one, between the two, and
behind the second one are then the parts of the text (`Answer.fenced_eq_ok_iff`). A fence that is put
round a body leaves nothing before and behind it. So a body in which no line starts with a mark comes
out of its fence as it was put in, but for the line feeds at its ends.

Main statement: `BuiltIn.trimCodeBlock_unwraps`.
-/

namespace PromptPipeline

open Text

/-! ## Line feeds at the ends -/

namespace Text

variable {s core line : List Char} {c : Char}

/-- The text is `core` with line feeds around it, and `core` has none at its ends. -/
structure Stripped (s core : List Char) : Prop where
  around : ∃ m n, s = List.replicate m '\n' ++ (core ++ List.replicate n '\n')
  start : core.head? ≠ some '\n'
  stop : core.getLast? ≠ some '\n'

theorem mem_many_lineFeed_iff : s ∈ many (· == '\n') ↔ ∃ n, s = List.replicate n '\n' := by
  constructor
  · intro h
    exact ⟨s.length, List.eq_replicate_iff.mpr ⟨rfl, fun c hc => eq_of_beq (h c hc)⟩⟩
  · rintro ⟨n, rfl⟩ c hc
    exact beq_iff_eq.mpr (List.eq_of_mem_replicate hc)

theorem stripped_iff : Stripped s core ↔ trimWhile (· == '\n') s = core := by
  have hend {o : Option Char} : (∀ c ∈ o, (c == '\n') = false) ↔ o ≠ some '\n' := by
    cases o <;> simp
  constructor
  · rintro ⟨⟨m, n, rfl⟩, hstart, hstop⟩
    exact trimWhile_append (mem_many_lineFeed_iff.mpr ⟨m, rfl⟩) (mem_many_lineFeed_iff.mpr ⟨n, rfl⟩)
      (hend.mpr hstart) (hend.mpr hstop)
  · rintro rfl
    obtain ⟨g, hg, g', hg', heq⟩ := exists_eq_append_trimWhile (· == '\n') s
    obtain ⟨m, rfl⟩ := mem_many_lineFeed_iff.mp hg
    obtain ⟨n, rfl⟩ := mem_many_lineFeed_iff.mp hg'
    exact ⟨⟨m, n, heq⟩, hend.mp (head?_trimWhile _ s), hend.mp (getLast?_trimWhile _ s)⟩

/-- Line feeds at the ends make no difference to how often another character occurs. -/
theorem Stripped.count (h : Stripped s core) (hc : c ≠ '\n') : s.count c = core.count c := by
  obtain ⟨⟨m, n, rfl⟩, -, -⟩ := h
  have hnone (k : ℕ) : (List.replicate k '\n').count c = 0 := by
    apply List.count_eq_zero_of_not_mem
    intro hmem
    exact hc (List.eq_of_mem_replicate hmem)
  rw [List.count_append, List.count_append, hnone, hnone, Nat.zero_add, Nat.add_zero]

/-- Line feeds at the ends add empty lines only. -/
theorem Stripped.mem_pieces (h : Stripped s core) (hline : line ≠ []) :
    line ∈ pieces s ↔ line ∈ pieces core := by
  obtain ⟨⟨m, n, rfl⟩, -, -⟩ := h
  -- a line feed before a text is one more empty line before its lines
  have hbefore (t : List Char) : line ∈ pieces (List.replicate m '\n' ++ t) ↔ line ∈ pieces t := by
    induction m with
    | zero => rfl
    | succ m ih =>
      have hfirst : pieces ('\n' :: (List.replicate m '\n' ++ t)) =
          [] :: pieces (List.replicate m '\n' ++ t) := pieces_append [] _
      rw [List.replicate_succ, List.cons_append, hfirst, List.mem_cons, or_iff_right hline, ih]
  rw [hbefore]
  induction n with
  | zero => rw [List.replicate_zero, List.append_nil]
  | succ n ih =>
    have hlast : pieces ((core ++ List.replicate n '\n') ++ ['\n']) =
        pieces (core ++ List.replicate n '\n') ++ [[]] := pieces_append _ []
    rw [List.replicate_succ', ← List.append_assoc, hlast, List.mem_append, List.mem_singleton,
      or_iff_left hline]
    exact ih

end Text

/-! ## Lines that start with a mark -/

/-- The line starts with the mark of a fence. -/
def Flush (line : List Char) : Prop :=
  ∃ mark : FenceMark, mark.chars <+: line

variable {line rest text : List Char} {mark : FenceMark}

/-- A mark is one character three times, and that is no white space. -/
theorem FenceMark.exists_chars (mark : FenceMark) :
    ∃ c, isBlank c = false ∧ mark.chars = [c, c, c] := by
  cases mark with
  | backquotes => exact ⟨'`', by decide, rfl⟩
  | tildes => exact ⟨'~', by decide, rfl⟩

theorem FenceMark.notMem_chars {c : Char} (mark : FenceMark) (hc : isBlank c = true) :
    c ∉ mark.chars := by
  obtain ⟨d, hd, hchars⟩ := mark.exists_chars
  intro hmem
  obtain rfl : c = d := by simpa [hchars] using hmem
  exact absurd hc (by simp [hd])

theorem FenceMark.ofLine?_eq_some_iff :
    FenceMark.ofLine? line = some (mark, rest) ↔ line = mark.chars ++ rest := by
  unfold FenceMark.ofLine?
  split
  next rest' hquotes =>
    obtain rfl := dropStart?_eq_some_iff.mp hquotes
    cases mark with
    | backquotes => simp
    | tildes => simp [FenceMark.chars]
  next hquotes =>
    cases mark with
    | backquotes =>
      have hne : line ≠ FenceMark.backquotes.chars ++ rest := by
        intro heq
        rw [dropStart?_eq_some_iff.mpr heq] at hquotes
        cases hquotes
      simp [hne]
    | tildes => simp [dropStart?_eq_some_iff]

theorem Answer.isFence_iff : isFence line = true ↔ Flush line := by
  unfold isFence Flush
  simp only [Option.isSome_iff_exists, Prod.exists, FenceMark.ofLine?_eq_some_iff]
  exact exists_congr fun mark => exists_congr fun rest => eq_comm

instance : DecidablePred Flush :=
  fun _ => decidable_of_iff _ Answer.isFence_iff

theorem Flush.ne_nil (h : Flush line) : line ≠ [] := by
  rintro rfl
  exact absurd h (by decide)

/-- A line that starts with a mark does so without the white space around it. -/
theorem Flush.trim (h : Flush line) : Flush (trim line) := by
  obtain ⟨mark, rest, rfl⟩ := h
  obtain ⟨c, hc, hchars⟩ := mark.exists_chars
  have hstart : ([c, c, c] ++ rest).dropWhile isBlank = [c, c] ++ c :: rest :=
    List.dropWhile_cons_of_neg (by simp [hc])
  refine ⟨mark, dropEndWhile isBlank rest, ?_⟩
  unfold Text.trim trimWhile
  rw [hchars, hstart, dropEndWhile_append_cons hc]
  rfl

/-! ## Texts with two fences -/

namespace Answer

variable {f : Fenced} {opening closing : List Char} {lines : List (List Char)}

/-- The lines are cut into parts by two lines that start with a mark, and no other one does. -/
structure Fenced.Cuts (f : Fenced) (opening closing : List Char) (lines : List (List Char)) :
    Prop where
  lines_eq : lines = f.before ++ opening :: (f.inside ++ closing :: f.after)
  opening : Flush opening
  closing : Flush closing
  before : ∀ line ∈ f.before, ¬Flush line
  inside : ∀ line ∈ f.inside, ¬Flush line
  after : ∀ line ∈ f.after, ¬Flush line

theorem countP_isFence_eq_zero_iff : lines.countP isFence = 0 ↔ ∀ line ∈ lines, ¬Flush line := by
  simp only [List.countP_eq_zero, isFence_iff]

/-- Of the lines that start with a mark there is a first one. -/
theorem exists_first (n : ℕ) (h : lines.countP isFence = n + 1) :
    ∃ before line after, lines = before ++ line :: after ∧ (∀ l ∈ before, ¬Flush l) ∧ Flush line ∧
      after.countP isFence = n := by
  have hsome : (lines.find? isFence).isSome := by
    rw [List.find?_isSome]
    exact List.countP_pos_iff.mp (by omega)
  obtain ⟨line, hline⟩ := Option.isSome_iff_exists.mp hsome
  obtain ⟨hfence, before, after, rfl, hbefore⟩ := List.find?_eq_some_iff_append.mp hline
  have hnone : ∀ l ∈ before, ¬Flush l := by
    intro l hl
    rw [← isFence_iff]
    simpa using hbefore l hl
  rw [List.countP_append, countP_isFence_eq_zero_iff.mpr hnone, List.countP_cons_of_pos hfence] at h
  exact ⟨before, line, after, rfl, hnone, isFence_iff.mp hfence, by omega⟩

theorem exists_cuts (h : lines.countP isFence = 2) :
    ∃ (f : Fenced) (opening closing : List Char), f.Cuts opening closing lines := by
  obtain ⟨before, opening, rest, rfl, hbefore, hopening, hrest⟩ := exists_first 1 h
  obtain ⟨inside, closing, after, rfl, hinside, hclosing, hafter⟩ := exists_first 0 hrest
  exact ⟨⟨before, inside, after⟩, opening, closing, rfl, hopening, hclosing, hbefore, hinside,
    countP_isFence_eq_zero_iff.mp hafter⟩

theorem Fenced.Cuts.countP_isFence (h : f.Cuts opening closing lines) :
    lines.countP isFence = 2 := by
  rw [h.lines_eq, List.countP_append, List.countP_cons_of_pos (isFence_iff.mpr h.opening),
    List.countP_append, List.countP_cons_of_pos (isFence_iff.mpr h.closing),
    countP_isFence_eq_zero_iff.mpr h.before, countP_isFence_eq_zero_iff.mpr h.inside,
    countP_isFence_eq_zero_iff.mpr h.after]

theorem Fenced.Cuts.fenced_eq (h : f.Cuts opening closing (pieces text)) : fenced text = .ok f := by
  have hplain {ls : List (List Char)} (hls : ∀ l ∈ ls, ¬Flush l) :
      ∀ l ∈ ls, (!isFence l) = true := by
    intro l hl
    simpa using isFence_iff.not.mpr (hls l hl)
  have hfence {l : List Char} {ls : List (List Char)} (hl : Flush l) :
      ∀ x ∈ (l :: ls).head?, (!isFence x) = false := by
    intro x hx
    obtain rfl := Option.some.inj hx
    simpa using isFence_iff.mpr hl
  have hcount := h.countP_isFence
  have hlines := h.lines_eq
  -- the function takes the runs of plain lines off, and each ends at a line with a mark
  unfold pieces at hcount hlines
  unfold fenced
  dsimp only
  rw [if_pos hcount, hlines, takeWhile_run_append (hplain h.before) (hfence h.opening),
    dropWhile_run_append (hplain h.before) (hfence h.opening), List.tail_cons,
    takeWhile_run_append (hplain h.inside) (hfence h.closing),
    dropWhile_run_append (hplain h.inside) (hfence h.closing), List.tail_cons]

theorem fenced_of_ne (h : (pieces text).countP isFence ≠ 2) :
    fenced text = .error ((pieces text).countP isFence) :=
  if_neg h

/-- **A text is fenced if and only if two of its lines start with a mark**, and then they cut it. -/
theorem fenced_eq_ok_iff :
    fenced text = .ok f ↔ ∃ opening closing, f.Cuts opening closing (pieces text) := by
  constructor
  · intro h
    by_cases hcount : (pieces text).countP isFence = 2
    · obtain ⟨g, opening, closing, hcuts⟩ := exists_cuts hcount
      obtain rfl : g = f := Except.ok.inj (hcuts.fenced_eq.symm.trans h)
      exact ⟨opening, closing, hcuts⟩
    · rw [fenced_of_ne hcount] at h
      cases h
  · rintro ⟨opening, closing, hcuts⟩
    exact hcuts.fenced_eq

theorem fenced_of_forall (h : ∀ line ∈ pieces text, ¬Flush line) : fenced text = .error 0 := by
  have hcount := countP_isFence_eq_zero_iff.mpr h
  rw [fenced_of_ne (by omega), hcount]

theorem Fenced.stripped_content (f : Fenced) : Stripped (joinLines f.inside) f.content :=
  stripped_iff.mpr rfl

end Answer

/-! ## Taking a fence off -/

/-- The body in a fence, with the info text behind the opening mark. -/
def FenceMark.wrap (mark : FenceMark) (info body : String) : String :=
  .ofList mark.chars ++ info ++ "\n" ++ body ++ "\n" ++ .ofList mark.chars

theorem FenceMark.toList_wrap (mark : FenceMark) (info body : String) :
    (mark.wrap info body).toList =
      mark.chars ++ info.toList ++ '\n' :: (body.toList ++ '\n' :: mark.chars) := by
  simp [FenceMark.wrap]

/-- A fence has white space neither before its opening nor behind its closing mark. -/
theorem FenceMark.trimmed_wrap (mark : FenceMark) (info body : String) :
    Trimmed (mark.wrap info body).toList := by
  obtain ⟨c, hc, hchars⟩ := mark.exists_chars
  rw [mark.toList_wrap, hchars]
  constructor
  · intro d hd
    obtain rfl : c = d := Option.some.inj hd
    exact hc
  · intro d hd
    obtain rfl : c = d := by simpa [List.getLast?_append, List.getLast?_cons] using hd
    exact hc

theorem FenceMark.cuts_wrap (mark : FenceMark) {info body : String} (hinfo : '\n' ∉ info.toList)
    (hbody : ∀ line ∈ pieces body.toList, ¬Flush line) :
    (Answer.Fenced.mk [] (pieces body.toList) []).Cuts (mark.chars ++ info.toList) mark.chars
      (pieces (mark.wrap info body).toList) where
  lines_eq := by
    have hmark : '\n' ∉ mark.chars := mark.notMem_chars (by decide)
    have hopening : '\n' ∉ mark.chars ++ info.toList := by simp [hmark, hinfo]
    rw [mark.toList_wrap, pieces_append, pieces_append, pieces_of_notMem hopening,
      pieces_of_notMem hmark]
    rfl
  opening := ⟨mark, List.prefix_append _ _⟩
  closing := ⟨mark, List.prefix_rfl⟩
  before := List.forall_mem_nil _
  inside := hbody
  after := List.forall_mem_nil _

namespace BuiltIn

/-- **A fence is taken off as it was put on.** A body in which no line starts with a mark comes out
of its fence, of either kind and with any info text, without the line feeds at its ends and
otherwise unchanged, whatever white space is around the fence. A text in which no line starts with a
mark is only trimmed. -/
theorem trimCodeBlock_unwraps :
    (∀ (mark : FenceMark) (info body before after : String), '\n' ∉ info.toList →
      (∀ line ∈ pieces body.toList, ¬Flush line) → (∀ c ∈ before.toList, isBlank c = true) →
      (∀ c ∈ after.toList, isBlank c = true) →
      ∃ core, trimCodeBlock.apply (before ++ mark.wrap info body ++ after) = .ok core ∧
        Stripped body.toList core.toList) ∧
    ∀ text : String, (∀ line ∈ pieces (Text.trim text.toList), ¬Flush line) →
      trimCodeBlock.apply text = trim.apply text := by
  constructor
  · intro mark info body before after hinfo hbody hbefore hafter
    have hcuts := mark.cuts_wrap hinfo hbody
    have htrim : Text.trim (before ++ mark.wrap info body ++ after).toList =
        (mark.wrap info body).toList := by
      rw [String.toList_append, String.toList_append, List.append_assoc]
      exact (mark.trimmed_wrap info body).trim_append hbefore hafter
    have hresult : Answer.trimCodeBlock (before ++ mark.wrap info body ++ after).toList =
        trimWhile (· == '\n') body.toList := by
      unfold Answer.trimCodeBlock
      dsimp only
      rw [htrim, hcuts.fenced_eq]
      show trimWhile _ (joinLines (pieces body.toList)) = _
      rw [joinLines_pieces]
    refine ⟨.ofList (trimWhile (· == '\n') body.toList), ?_, ?_⟩
    · rw [← hresult]
      rfl
    · rw [String.toList_ofList]
      exact stripped_iff.mpr rfl
  · intro text htext
    have hresult : Answer.trimCodeBlock text.toList = Text.trim text.toList := by
      unfold Answer.trimCodeBlock
      dsimp only
      rw [Answer.fenced_of_forall htext]
    show Except.ok (String.ofList (Answer.trimCodeBlock text.toList)) = _
    rw [hresult]
    rfl

/-- An indented body with blank lines in a fence of tildes, and a mark in the middle of a line. -/
theorem indented_body_unwrapped :
    trimCodeBlock.apply ("\n " ++ FenceMark.tildes.wrap "json" "\n  [1,\n\n   2] \n" ++ "\t\n") =
      .ok "  [1,\n\n   2] " ∧
    trimCodeBlock.apply " no ``` here " = trim.apply " no ``` here " := by
  obtain ⟨hfenced, hplain⟩ := trimCodeBlock_unwraps
  obtain ⟨core, hcore, hstripped⟩ := hfenced .tildes "json" "\n  [1,\n\n   2] \n" "\n " "\t\n"
    (by decide) (by decide) (List.all_eq_true.mp (by decide)) (List.all_eq_true.mp (by decide))
  have hlist : core.toList = "  [1,\n\n   2] ".toList :=
    (stripped_iff.mp hstripped).symm.trans (by decide)
  obtain rfl := String.toList_inj.mp hlist
  exact ⟨hcore, hplain _ (by decide)⟩

end BuiltIn

end PromptPipeline
