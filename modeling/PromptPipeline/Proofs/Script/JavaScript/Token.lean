import PromptPipeline.Proofs.Text.Letter
import PromptPipeline.Proofs.Text.Spelling
import PromptPipeline.Script.JavaScript.Token

/-!
# Reading tokens from the left

The reader of tokens takes a text from the left, and what it takes first does not depend on what
stands behind the place where that ends. So each kind of beginning has an equation of its own: white
space and numbers leave no token, names and marks leave one, and a slash leaves one or starts a
regular expression by the token before it (`tokensFrom_slash`, `tokensFrom_regex`).
-/

namespace PromptPipeline.JavaScript

open Text

variable {st next : LexerState} {c : Char} {rest after text : List Char}

/-! ## One step -/

theorem tokensFrom_nil : tokensFrom st [] = [] := by
  rw [tokensFrom]

theorem tokensFrom_of_skipped (h : skipped? st c rest = some (after, next)) :
    tokensFrom st (c :: rest) = tokensFrom next after := by
  rw [tokensFrom]
  split
  next heq =>
    rw [h] at heq
    cases heq
    rfl
  next heq =>
    rw [h] at heq
    cases heq

theorem tokensFrom_of_token (h : skipped? st c rest = none) : tokensFrom st (c :: rest) =
    (tokenAt c rest).1 :: tokensFrom ((st.push (tokenAt c rest).1).count c) (tokenAt c rest).2 := by
  rw [tokensFrom]
  split
  next heq =>
    rw [h] at heq
    cases heq
  next => rfl

/-- The text starts with the token; what is behind it is read from the next state. -/
def Leaves (st : LexerState) (s : List Char) (t : Token) (next : LexerState) (after : List Char) :
    Prop :=
  ∃ c rest, s = c :: rest ∧ skipped? st c rest = none ∧ tokenAt c rest = (t, after) ∧
    (st.push t).count c = next

theorem Leaves.tokensFrom_eq {s : List Char} {t : Token} (h : Leaves st s t next after) :
    tokensFrom st s = t :: tokensFrom next after := by
  obtain ⟨c, rest, rfl, hnone, htoken, rfl⟩ := h
  rw [tokensFrom_of_token hnone, htoken]

/-- The characters that a string, a comment, a template's text or a regular expression starts
with. -/
def openers : List Char :=
  ['/', '\x27', '"', '\x60', '\x7d']

/-- What starts with none of these, and not with white space or a digit, leaves a token. -/
theorem skipped?_eq_none (hblank : isBlank c = false) (hdigit : c.isDigit = false)
    (hopener : c ∉ openers) : skipped? st c rest = none := by
  simp only [openers, List.mem_cons, List.not_mem_nil, or_false, not_or] at hopener
  obtain ⟨hslash, hquote, hdouble, hback, hcurly⟩ := hopener
  simp [skipped?, hblank, hdigit, hslash, hquote, hdouble, hback, hcurly]

theorem notMem_openers_of_isAlphanum (h : c.isAlphanum = true) : c ∉ openers := by
  have hopeners : openers.all (!·.isAlphanum) = true := by decide
  intro hmem
  simpa [h] using List.all_eq_true.mp hopeners c hmem

theorem LexerState.count_eq (hopen : c ≠ '\x7b') (hclose : c ≠ '\x7d') : st.count c = st := by
  rw [count, if_neg hopen, if_neg hclose]

/-! ## White space and numbers -/

theorem tokensFrom_blank (h : isBlank c = true) :
    tokensFrom st (c :: rest) = tokensFrom st rest := by
  refine tokensFrom_of_skipped ?_
  rw [skipped?, if_pos h]

theorem isIdentifierPart_of_isAlphanum (h : c.isAlphanum = true) : isIdentifierPart c = true := by
  simp only [isIdentifierPart, isAlphanumeric_of_isAlphanum h, Bool.true_or]

theorem skipped?_of_isDigit (h : c.isDigit = true) : skipped? st c rest =
    some (rest.dropWhile fun d => isIdentifierPart d || d == '.', st) := by
  have hopener := notMem_openers_of_isAlphanum (c := c) (by simp [Char.isAlphanum, h])
  simp only [openers, List.mem_cons, List.not_mem_nil, or_false, not_or] at hopener
  obtain ⟨hslash, hquote, hdouble, hback, hcurly⟩ := hopener
  simp [skipped?, isBlank_of_isDigit h, h, hslash, hquote, hdouble, hback, hcurly]

/-- A number leaves no token. -/
theorem tokensFrom_number (hne : text ≠ []) (hdigits : ∀ c ∈ text, c.isDigit = true)
    (hrest : ∀ c ∈ rest.head?, isIdentifierPart c = false ∧ c ≠ '.') :
    tokensFrom st (text ++ rest) = tokensFrom st rest := by
  obtain ⟨c, text, rfl⟩ := List.exists_cons_of_ne_nil hne
  obtain ⟨hdigit, hdigits⟩ := List.forall_mem_cons.mp hdigits
  rw [List.cons_append, tokensFrom_of_skipped (skipped?_of_isDigit hdigit),
    dropWhile_run_append]
  · intro d hd
    have halphanum : d.isAlphanum = true := by simp [Char.isAlphanum, hdigits d hd]
    rw [isIdentifierPart_of_isAlphanum halphanum, Bool.true_or]
  · intro d hd
    obtain ⟨hpart, hpoint⟩ := hrest d hd
    rw [hpart, Bool.false_or, beq_eq_false_iff_ne]
    exact hpoint

/-! ## Names -/

/-- Whether an ASCII character may start a name. -/
def isAsciiStart (c : Char) : Bool :=
  c.isAlpha || c == '_' || c == '$'

/-- Whether an ASCII character may continue a name. -/
def isAsciiPart (c : Char) : Bool :=
  c.isAlphanum || c == '_' || c == '$'

/-- Whether the text is a name in ASCII. -/
def isAsciiName : List Char → Bool
  | [] => false
  | c :: rest => isAsciiStart c && rest.all isAsciiPart

theorem isAsciiPart_of_mem (h : isAsciiName text = true) : ∀ c ∈ text, isAsciiPart c = true := by
  cases text with
  | nil => exact List.forall_mem_nil _
  | cons c text =>
    obtain ⟨hstart, hparts⟩ := Bool.and_eq_true_iff.mp h
    refine List.forall_mem_cons.mpr ⟨?_, List.all_eq_true.mp hparts⟩
    simp only [isAsciiStart, Bool.or_assoc, Bool.or_eq_true] at hstart
    simp only [isAsciiPart, Char.isAlphanum, Bool.or_assoc, Bool.or_eq_true]
    exact hstart.imp_right .inr

theorem isIdentifierStart_of_isAsciiStart (h : isAsciiStart c = true) :
    isIdentifierStart c = true := by
  simp only [isAsciiStart, Bool.or_assoc, Bool.or_eq_true] at h
  simp only [isIdentifierStart, Bool.or_assoc, Bool.or_eq_true]
  exact h.imp_left isAlphabetic_of_isAlpha

theorem isIdentifierPart_of_isAsciiPart (h : isAsciiPart c = true) : isIdentifierPart c = true := by
  simp only [isAsciiPart, Bool.or_assoc, Bool.or_eq_true] at h
  simp only [isIdentifierPart, Bool.or_assoc, Bool.or_eq_true]
  exact h.imp_left isAlphanumeric_of_isAlphanum

/-- No other characters of ASCII start or continue a name. -/
theorem isIdentifierStart_eq_false (hc : c.toNat < 0x80) (h : isAsciiStart c = false) :
    isIdentifierStart c = false := by
  rw [← h, isIdentifierStart, isAlphabetic_eq hc, isAsciiStart]

theorem isIdentifierPart_eq_false (hc : c.toNat < 0x80) (h : isAsciiPart c = false) :
    isIdentifierPart c = false := by
  rw [← h, isIdentifierPart, isAlphanumeric_eq hc, isAsciiPart]

theorem skipped?_of_isAsciiStart (h : isAsciiStart c = true) : skipped? st c rest = none := by
  simp only [isAsciiStart, Bool.or_eq_true, beq_iff_eq] at h
  rcases h with (hletter | rfl) | rfl
  · have hdigit : c.isDigit = false := by
      rw [← Bool.not_eq_true]
      intro hdigit
      exact absurd (hletter.symm.trans (isAlpha_of_isDigit hdigit)) (by decide)
    exact skipped?_eq_none (isBlank_of_isAlpha hletter) hdigit
      (notMem_openers_of_isAlphanum (by simp [Char.isAlphanum, hletter]))
  · exact skipped?_eq_none (by decide) (by decide) (by decide)
  · exact skipped?_eq_none (by decide) (by decide) (by decide)

theorem leaves_name (h : isAsciiName text = true)
    (hrest : ∀ c ∈ rest.head?, isIdentifierPart c = false) :
    Leaves st (text ++ rest) (.identifier (.ofList text)) (st.push (.identifier (.ofList text)))
      rest := by
  cases text with
  | nil => cases h
  | cons c text =>
    obtain ⟨hstart, hparts⟩ := Bool.and_eq_true_iff.mp h
    have hparts : ∀ d ∈ text, isIdentifierPart d = true :=
      fun d hd => isIdentifierPart_of_isAsciiPart (List.all_eq_true.mp hparts d hd)
    have htoken : tokenAt c (text ++ rest) = (.identifier (.ofList (c :: text)), rest) := by
      rw [tokenAt, if_pos (isIdentifierStart_of_isAsciiStart hstart),
        takeWhile_run_append hparts hrest, dropWhile_run_append hparts hrest]
    have hne {d : Char} (hd : isAsciiStart d = false) : c ≠ d := by
      intro heq
      rw [heq, hd] at hstart
      cases hstart
    exact ⟨c, text ++ rest, rfl, skipped?_of_isAsciiStart hstart, htoken,
      LexerState.count_eq (hne (by decide)) (hne (by decide))⟩

/-- A name leaves its token. -/
theorem tokensFrom_name (h : isAsciiName text = true)
    (hrest : ∀ c ∈ rest.head?, isIdentifierPart c = false) : tokensFrom st (text ++ rest) =
      .identifier (.ofList text) :: tokensFrom (st.push (.identifier (.ofList text))) rest :=
  (leaves_name h hrest).tokensFrom_eq

/-! ## Marks -/

/-- A mark is punctuation of one character if it cannot be the start of a longer one. -/
theorem punctuationAt_eq (h : ∀ d ∈ rest.head?, d ∉ ['=', '>', '.']) :
    punctuationAt c rest = (.ofChar c, rest) := by
  cases rest with
  | nil => unfold punctuationAt; split <;> simp_all
  | cons d rest =>
    have hd := h d rfl
    simp only [List.mem_cons, List.not_mem_nil, or_false, not_or] at hd
    obtain ⟨hequals, harrow, hpoint⟩ := hd
    unfold punctuationAt
    split <;> simp_all

theorem tokensFrom_punctuation (hnone : skipped? st c rest = none)
    (hname : isIdentifierStart c = false) (hopen : c ≠ '\x7b') (hclose : c ≠ '\x7d')
    (hrest : ∀ d ∈ rest.head?, d ∉ ['=', '>', '.']) : tokensFrom st (c :: rest) =
      .punctuation (.ofChar c) :: tokensFrom (st.push (.punctuation (.ofChar c))) rest := by
  have htoken : tokenAt c rest = (.punctuation (.ofChar c), rest) := by
    rw [tokenAt, if_neg (by simp [hname]), punctuationAt_eq hrest]
  rw [tokensFrom_of_token hnone, htoken, LexerState.count_eq hopen hclose]

/-- Whether the character is a mark, whatever stands before it. -/
def isMark (c : Char) : Bool :=
  !(isBlank c || c.isDigit || isIdentifierStart c || c == '\x7b' || openers.contains c)

theorem isMark_of_ascii (hc : c.toNat < 0x80) (hname : isAsciiStart c = false)
    (hmark : (isBlank c || c.isDigit || c == '\x7b' || openers.contains c) = false) :
    isMark c = true := by
  rw [isMark, isIdentifierStart_eq_false hc hname, Bool.or_false]
  exact congrArg (!·) hmark

/-- A mark leaves its token. -/
theorem tokensFrom_mark (h : isMark c = true) (hrest : ∀ d ∈ rest.head?, d ∉ ['=', '>', '.']) :
    tokensFrom st (c :: rest) =
      .punctuation (.ofChar c) :: tokensFrom (st.push (.punctuation (.ofChar c))) rest := by
  simp only [isMark, Bool.not_or, Bool.and_eq_true, Bool.not_eq_true', beq_eq_false_iff_ne] at h
  obtain ⟨⟨⟨⟨hblank, hdigit⟩, hname⟩, hopen⟩, hopener⟩ := h
  have hopener : c ∉ openers := by simpa using hopener
  refine tokensFrom_punctuation (skipped?_eq_none hblank hdigit hopener) hname hopen ?_ hrest
  intro heq
  rw [heq] at hopener
  exact hopener (by decide)

/-! ## Slashes -/

theorem skipped?_slash (hrest : ∀ d ∈ rest.head?, d ≠ '/' ∧ d ≠ '*') : skipped? st '/' rest =
    if startsRegex st.latest then some (afterRegex false rest, st) else none := by
  have hslash : rest.head? ≠ some '/' := fun h => (hrest _ h).1 rfl
  have hstar : rest.head? ≠ some '*' := fun h => (hrest _ h).2 rfl
  have hblank : isBlank '/' = false := by decide
  simp [skipped?, hslash, hstar, hblank, Char.isDigit]

/-- A slash behind an operand is a mark. -/
theorem tokensFrom_slash (h : startsRegex st.latest = false)
    (hrest : ∀ d ∈ rest.head?, d ∉ ['=', '>', '.', '/', '*']) : tokensFrom st ('/' :: rest) =
      .punctuation .operator :: tokensFrom (st.push (.punctuation .operator)) rest := by
  simp only [List.mem_cons, List.not_mem_nil, or_false, not_or] at hrest
  refine tokensFrom_punctuation ?_ (isIdentifierStart_eq_false (by decide) (by decide))
    (by decide) (by decide) ?_
  · rw [skipped?_slash fun d hd => (hrest d hd).2.2.2, h]
    rfl
  · intro d hd
    obtain ⟨hequals, harrow, hpoint, -⟩ := hrest d hd
    simp [hequals, harrow, hpoint]

/-- A slash behind anything else starts a regular expression, which leaves no token. -/
theorem tokensFrom_regex (h : startsRegex st.latest = true)
    (hrest : ∀ d ∈ rest.head?, d ≠ '/' ∧ d ≠ '*') :
    tokensFrom st ('/' :: rest) = tokensFrom st (afterRegex false rest) := by
  refine tokensFrom_of_skipped ?_
  rw [skipped?_slash hrest, if_pos h]

/-- Whether the character ends a regular expression or changes how it is read. -/
def isRegexMark (c : Char) : Bool :=
  c == '\\' || c == '[' || c == ']' || c == '\n' || c == '/'

/-- Other characters stand in a regular expression as they are. -/
theorem afterRegex_append (h : text.all (!isRegexMark ·) = true) :
    afterRegex false (text ++ rest) = afterRegex false rest := by
  induction text with
  | nil => rfl
  | cons c text ih =>
    obtain ⟨hc, htext⟩ := Bool.and_eq_true_iff.mp h
    simp only [isRegexMark, Bool.not_or, Bool.and_eq_true, Bool.not_eq_true', beq_eq_false_iff_ne]
      at hc
    obtain ⟨⟨⟨⟨hescape, hopen⟩, hclose⟩, hline⟩, hslash⟩ := hc
    rw [List.cons_append, ← ih htext, afterRegex, if_neg (by simp [hslash])]
    all_goals simp [hescape, hopen, hclose, hline]

theorem isRegexMark_of_isAsciiPart (h : isAsciiPart c = true) : isRegexMark c = false := by
  have hmarks : ['\\', '[', ']', '\n', '/'].all (!isAsciiPart ·) = true := by decide
  rw [← Bool.not_eq_true]
  intro hmark
  have hmem : c ∈ ['\\', '[', ']', '\n', '/'] := by
    simpa [isRegexMark, or_assoc] using hmark
  simpa [h] using List.all_eq_true.mp hmarks c hmem

/-- A regular expression ends at a slash, and the letters behind it are its flags. -/
theorem afterRegex_slash : afterRegex false ('/' :: rest) = rest.dropWhile Char.isAlpha := by
  rw [afterRegex, if_pos (by simp)]
  all_goals simp

end PromptPipeline.JavaScript
