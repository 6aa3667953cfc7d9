import PromptPipeline.Proofs.Script.JavaScript.Token

/-!
# Reading line by line

Names, numbers and line comments end with their line, and a string, a block comment, a template or a
regular expression that ends in a text (`endsIn`) ends there whatever stands behind the text. So a
text at whose end nothing is open (`Reads`) leaves its tokens, and what is on the next line is read
from one state (`Reads.tokensFrom_append_line`). What matters of that state are the brackets and
whether a slash starts a regular expression (`tokensFrom_congr`).
-/

namespace PromptPipeline.JavaScript

open Text

variable {st next last : LexerState} {c quote : Char} {s rest after more : List Char} {t : Token}
  {ts : List Token} {inClass : Bool}

/-! ## What ends in a text -/

/-- Whether a block comment whose opening is gone ends in the text. -/
def closesBlockComment : List Char → Bool
  | '*' :: '/' :: _ => true
  | _ :: rest => closesBlockComment rest
  | [] => false

/-- Whether a string whose opening quote is gone ends in the text. -/
def closesString (quote : Char) : List Char → Bool
  | '\\' :: _ :: rest => closesString quote rest
  | c :: rest => if c = quote ∨ c = '\n' then true else closesString quote rest
  | [] => false

/-- Whether a stretch of template text ends in the text. -/
def closesTemplateText : List Char → Bool
  | '\\' :: _ :: rest => closesTemplateText rest
  | '\x60' :: _ => true
  | '$' :: '\x7b' :: _ => true
  | _ :: rest => closesTemplateText rest
  | [] => false

/-- Whether a regular expression whose opening slash is gone ends in the text. -/
def closesRegex (inClass : Bool) : List Char → Bool
  | '\\' :: _ :: rest => closesRegex inClass rest
  | '[' :: rest => closesRegex true rest
  | ']' :: rest => closesRegex false rest
  | '\n' :: _ => true
  | c :: rest => if c = '/' ∧ !inClass then true else closesRegex inClass rest
  | [] => false

theorem afterBlockComment_append (h : closesBlockComment s = true) :
    afterBlockComment (s ++ more) = afterBlockComment s ++ more := by
  fun_induction closesBlockComment s with
  | case1 rest => rfl
  | case2 c rest hnot ih =>
    cases rest with
    | nil => cases h
    | cons d rest =>
      have hmark : ¬(c = '*' ∧ d = '/') := fun ⟨hc, hd⟩ => hnot rest hc (by rw [hd])
      have hstep (tail : List Char) :
          afterBlockComment (c :: d :: tail) = afterBlockComment (d :: tail) := by
        rw [afterBlockComment]
        simpa using hmark
      rw [hstep, ← ih h, List.cons_append, List.cons_append, hstep]
  | case3 => cases h

/-- Behind anything but a backslash the first character stands for itself. -/
theorem afterString_cons (hc : c ≠ '\\') : afterString quote (c :: rest) =
    if c = quote ∨ c = '\n' then rest else afterString quote rest := by
  rw [afterString]
  intro d tail heq
  exact absurd heq hc

theorem afterString_append (hquote : quote ≠ '\\') (h : closesString quote s = true) :
    afterString quote (s ++ more) = afterString quote s ++ more := by
  fun_induction closesString quote s with
  | case1 d rest ih => simpa [afterString] using ih h
  | case2 c rest hnot hc =>
    have hc' : c ≠ '\\' := by
      rintro rfl
      rcases hc with heq | heq
      · exact hquote heq.symm
      · cases heq
    rw [List.cons_append, afterString_cons hc', afterString_cons hc', if_pos hc, if_pos hc]
  | case3 c rest hnot hc ih =>
    by_cases hescape : c = '\\'
    · cases rest with
      | nil => cases h
      | cons d rest => exact absurd rfl (hnot d rest hescape)
    · rw [List.cons_append, afterString_cons hescape, afterString_cons hescape, if_neg hc,
        if_neg hc, ih h]
  | case4 => cases h

theorem afterTemplateText_append (h : closesTemplateText s = true) :
    afterTemplateText (s ++ more) = ((afterTemplateText s).1 ++ more, (afterTemplateText s).2) := by
  fun_induction closesTemplateText s with
  | case1 d rest ih => simpa [afterTemplateText] using ih h
  | case2 rest => rfl
  | case3 rest => rfl
  | case4 c rest hescape hquote hopen ih =>
    cases rest with
    | nil => cases h
    | cons d rest =>
      have hstep (tail : List Char) :
          afterTemplateText (c :: d :: tail) = afterTemplateText (d :: tail) := by
        rw [afterTemplateText]
        · exact fun e tail' hc _ => hescape d rest hc rfl
        · exact hquote
        · exact fun tail' hc hd => hopen rest hc (by rw [(List.cons_eq_cons.mp hd).1])
      rw [hstep, ← ih h, List.cons_append, List.cons_append, hstep]
  | case5 => cases h

/-- The line feed after the letters behind a regular expression ends them. -/
theorem afterRegex_append_line (h : closesRegex inClass s = true) :
    afterRegex inClass (s ++ '\n' :: more) = afterRegex inClass s ++ '\n' :: more := by
  have hletter : Char.isAlpha '\n' = false := by decide
  fun_induction closesRegex inClass s with
  | case1 inClass d rest ih => simpa [afterRegex] using ih h
  | case2 inClass rest ih => simpa [afterRegex] using ih h
  | case3 inClass rest ih => simpa [afterRegex] using ih h
  | case4 inClass rest => simp [afterRegex]
  | case5 inClass c rest hescape hopen hclose hline hc =>
    obtain ⟨rfl, hclass⟩ := hc
    obtain rfl : inClass = false := by simpa using hclass
    rw [List.cons_append, afterRegex_slash, afterRegex_slash, dropWhile_append_cons hletter]
  | case6 inClass c rest hescape hopen hclose hline hc ih =>
    cases rest with
    | nil => cases h
    | cons d rest =>
      have hstep (tail : List Char) :
          afterRegex inClass (c :: d :: tail) = afterRegex inClass (d :: tail) := by
        rw [afterRegex, if_neg hc]
        · exact fun e tail' hc _ => hescape d rest hc rfl
        · exact hopen
        · exact hclose
        · exact hline
      rw [List.cons_append, List.cons_append, hstep, hstep, ← ih h, List.cons_append]
  | case7 => cases h

/-! ## One step -/

/-- Whether what starts with the character `c` before `rest` ends in the text, if it is something
that leaves no token. -/
def endsIn (st : LexerState) (c : Char) (rest : List Char) : Bool :=
  if isBlank c then true
  else if c = '/' ∧ rest.head? = some '/' then true
  else if c = '/' ∧ rest.head? = some '*' then closesBlockComment rest.tail
  else if c = '\x27' ∨ c = '"' then closesString c rest
  else if c = '\x60' then closesTemplateText rest
  else if c = '\x7d' ∧ st.interpolations.head? = some st.braces then closesTemplateText rest
  else if c = '/' ∧ startsRegex st.latest then closesRegex false rest
  else true

theorem skipped?_append_line (h : endsIn st c rest = true) :
    skipped? st c (rest ++ '\n' :: more) =
      (skipped? st c rest).map fun (after, next) => (after ++ '\n' :: more, next) := by
  have hhead {d : Char} (hd : d ≠ '\n') :
      (rest ++ '\n' :: more).head? = some d ↔ rest.head? = some d := by
    cases rest with
    | nil => simpa using hd.symm
    | cons e rest => rfl
  have hpart : (isIdentifierPart '\n' || '\n' == '.') = false := by
    rw [isIdentifierPart_eq_false (by decide) (by decide)]
    rfl
  -- The same thing starts here with the next line as without, and it ends at the same place.
  unfold skipped? endsIn at *
  simp only [hhead (d := '/') (by decide), hhead (d := '*') (by decide)]
  split_ifs at h ⊢ with hblank hline hblock hstring htemplate hleave hregex hdigit
  · rfl
  · rw [dropWhile_append_cons (by decide)]
    rfl
  · obtain ⟨d, rest, rfl⟩ : ∃ d tail, rest = d :: tail := by
      cases rest with
      | nil => cases hblock.2
      | cons d rest => exact ⟨d, rest, rfl⟩
    exact congrArg (fun after => some (after, st)) (afterBlockComment_append h)
  · have hquote : c ≠ '\\' := by
      rcases hstring with rfl | rfl <;> decide
    rw [afterString_append hquote h]
    rfl
  · rw [afterTemplateText_append h]
    rfl
  · rw [afterTemplateText_append h]
    rfl
  · rw [afterRegex_append_line h]
    rfl
  · rw [dropWhile_append_cons (p := fun d => isIdentifierPart d || d == '.') hpart]
    rfl
  · rfl

/-- A token leaves nothing open. -/
theorem endsIn_of_skipped?_eq_none (h : skipped? st c rest = none) : endsIn st c rest = true := by
  unfold skipped? at h
  unfold endsIn
  split_ifs at h ⊢
  rfl

theorem punctuationAt_append_line :
    punctuationAt c (rest ++ '\n' :: more) =
      ((punctuationAt c rest).1, (punctuationAt c rest).2 ++ '\n' :: more) := by
  -- The longest mark looks two characters ahead, so it matters whether that many are left.
  match rest with
  | [] =>
    rw [List.nil_append, punctuationAt_eq (by simp), punctuationAt_eq (by simp)]
    rfl
  | [d] =>
    unfold punctuationAt
    split <;> split <;> simp_all
  | d :: e :: rest =>
    unfold punctuationAt
    split <;> split <;> simp_all

theorem tokenAt_append_line : tokenAt c (rest ++ '\n' :: more) =
    ((tokenAt c rest).1, (tokenAt c rest).2 ++ '\n' :: more) := by
  have hpart : isIdentifierPart '\n' = false := isIdentifierPart_eq_false (by decide) (by decide)
  unfold tokenAt
  split
  next => rw [takeWhile_append_cons hpart, dropWhile_append_cons hpart]
  next => rw [punctuationAt_append_line]

/-- The text starts with something without a token that ends in it. -/
def Skips (st : LexerState) (s : List Char) (next : LexerState) (after : List Char) : Prop :=
  ∃ c rest, s = c :: rest ∧ skipped? st c rest = some (after, next) ∧ endsIn st c rest = true

/-- The text is read from the first state to the second and leaves the tokens, and all that leaves
no token ends in it. -/
inductive Reads : LexerState → List Char → List Token → LexerState → Prop where
  | done (st : LexerState) : Reads st [] [] st
  | skip {st next last : LexerState} {s after : List Char} {ts : List Token}
      (hskip : Skips st s next after) (h : Reads next after ts last) : Reads st s ts last
  | token {st next last : LexerState} {s after : List Char} {t : Token} {ts : List Token}
      (hleave : Leaves st s t next after) (h : Reads next after ts last) : Reads st s (t :: ts) last

theorem skips_blank (h : isBlank c = true) : Skips st (c :: rest) st rest := by
  refine ⟨c, rest, rfl, ?_, ?_⟩
  · rw [skipped?, if_pos h]
  · rw [endsIn, if_pos h]

theorem Skips.tokensFrom_eq (h : Skips st s next after) :
    tokensFrom st s = tokensFrom next after := by
  obtain ⟨c, rest, rfl, hskip, -⟩ := h
  exact tokensFrom_of_skipped hskip

theorem Skips.tokensFrom_append_line (h : Skips st s next after) :
    tokensFrom st (s ++ '\n' :: more) = tokensFrom next (after ++ '\n' :: more) := by
  obtain ⟨c, rest, rfl, hskip, hends⟩ := h
  have hskip' : skipped? st c (rest ++ '\n' :: more) = some (after ++ '\n' :: more, next) := by
    rw [skipped?_append_line hends, hskip]
    rfl
  rw [List.cons_append, tokensFrom_of_skipped hskip']

theorem Leaves.tokensFrom_append_line (h : Leaves st s t next after) :
    tokensFrom st (s ++ '\n' :: more) = t :: tokensFrom next (after ++ '\n' :: more) := by
  obtain ⟨c, rest, rfl, hnone, htoken, rfl⟩ := h
  have hnone' : skipped? st c (rest ++ '\n' :: more) = none := by
    rw [skipped?_append_line (endsIn_of_skipped?_eq_none hnone), hnone]
    rfl
  rw [List.cons_append, tokensFrom_of_token hnone', tokenAt_append_line, htoken]

theorem Reads.tokensFrom_eq (h : Reads st s ts last) : tokensFrom st s = ts := by
  induction h with
  | done st => exact tokensFrom_nil
  | skip hskip _ ih => rw [hskip.tokensFrom_eq, ih]
  | token hleave _ ih => rw [hleave.tokensFrom_eq, ih]

/-- What is read up to the end of a line does not depend on the next one. -/
theorem Reads.tokensFrom_append_line (h : Reads st s ts last) :
    tokensFrom st (s ++ '\n' :: more) = ts ++ tokensFrom last ('\n' :: more) := by
  induction h with
  | done st => rfl
  | skip hskip _ ih => rw [hskip.tokensFrom_append_line, ih]
  | token hleave _ ih => rw [hleave.tokensFrom_append_line, ih, List.cons_append]

/-! ## What matters of the state -/

/-- The latest token and the count of brackets change with tokens only. -/
theorem skipped?_frame (h : skipped? st c rest = some (after, next)) :
    next.latest = st.latest ∧ next.braces = st.braces := by
  have henter (st : LexerState) (opened : Bool) :
      (st.enter opened).latest = st.latest ∧ (st.enter opened).braces = st.braces := by
    cases opened <;> exact ⟨rfl, rfl⟩
  unfold skipped? at h
  split_ifs at h
  all_goals
    obtain ⟨-, rfl⟩ := Prod.mk.inj (Option.some.inj h)
    first | exact ⟨rfl, rfl⟩ | exact henter _ _

theorem skipped?_congr {latest : Option Token} (h : startsRegex st.latest = startsRegex latest) :
    skipped? ⟨latest, st.braces, st.interpolations⟩ c rest =
      (skipped? st c rest).map fun (after, next) =>
        (after, ⟨latest, next.braces, next.interpolations⟩) := by
  unfold skipped?
  rw [h]
  split_ifs
  all_goals first | rfl | cases (afterTemplateText rest).2 <;> rfl

/-- Of the latest token matters whether a slash behind it starts a regular expression. -/
theorem tokensFrom_congr {latest : Option Token} (h : startsRegex st.latest = startsRegex latest) :
    tokensFrom ⟨latest, st.braces, st.interpolations⟩ s = tokensFrom st s := by
  induction st, s using tokensFrom.induct with
  | case1 st => rw [tokensFrom_nil, tokensFrom_nil]
  | case2 st c rest after next hskip ih =>
    have hskip' : skipped? ⟨latest, st.braces, st.interpolations⟩ c rest =
        some (after, ⟨latest, next.braces, next.interpolations⟩) := by
      rw [skipped?_congr h, hskip]
      rfl
    rw [tokensFrom_of_skipped hskip, tokensFrom_of_skipped hskip']
    exact ih (by rw [(skipped?_frame hskip).1, h])
  | case3 st c rest hnone =>
    -- The token becomes the latest one, so from here on the states are the same.
    have hnone' : skipped? ⟨latest, st.braces, st.interpolations⟩ c rest = none := by
      rw [skipped?_congr h, hnone]
      rfl
    rw [tokensFrom_of_token hnone, tokensFrom_of_token hnone']
    rfl

/-- How many curly brackets are open after a token. -/
def Token.countCurly (braces : Nat) : Token → Nat
  | .punctuation .openCurly => braces + 1
  | .punctuation .closeCurly => braces - 1
  | _ => braces

theorem countCurly_punctuationAt {n : Nat} :
    (Token.punctuation (punctuationAt c rest).1).countCurly n =
      if c = '\x7b' then n + 1 else if c = '\x7d' then n - 1 else n := by
  have hofChar : (Token.punctuation (.ofChar c)).countCurly n =
      if c = '\x7b' then n + 1 else if c = '\x7d' then n - 1 else n := by
    unfold Punctuation.ofChar
    split <;> first | rfl | simp_all [Token.countCurly]
  unfold punctuationAt
  split
  next => rfl
  next => rfl
  next => rfl
  next =>
    split
    next hmark => rcases hmark with rfl | rfl | rfl | rfl <;> rfl
    next => exact hofChar
  next => exact hofChar

theorem countCurly_tokenAt {n : Nat} : (tokenAt c rest).1.countCurly n =
    if c = '\x7b' then n + 1 else if c = '\x7d' then n - 1 else n := by
  unfold tokenAt
  cases hname : isIdentifierStart c with
  | true =>
    have hne {d : Char} (hd : isIdentifierStart d = false) : c ≠ d := by
      rintro rfl
      exact absurd (hd.symm.trans hname) Bool.false_ne_true
    rw [if_pos rfl, if_neg (hne (isIdentifierStart_eq_false (by decide) (by decide))),
      if_neg (hne (isIdentifierStart_eq_false (by decide) (by decide)))]
    rfl
  | false =>
    rw [if_neg Bool.false_ne_true]
    exact countCurly_punctuationAt

/-- The state counts the curly brackets among the tokens. -/
theorem Leaves.braces_eq (h : Leaves st s t next after) : next.braces = t.countCurly st.braces := by
  obtain ⟨c, rest, rfl, -, htoken, rfl⟩ := h
  obtain rfl := congrArg Prod.fst htoken
  rw [countCurly_tokenAt]
  unfold LexerState.count
  split_ifs <;> rfl

theorem Reads.braces_eq (h : Reads st s ts last) :
    last.braces = ts.foldl Token.countCurly st.braces := by
  induction h with
  | done st => rfl
  | skip hskip _ ih =>
    obtain ⟨c, rest, rfl, hskip, -⟩ := hskip
    rw [ih, (skipped?_frame hskip).2]
  | token hleave _ ih =>
    rw [ih, hleave.braces_eq, List.foldl_cons]

end PromptPipeline.JavaScript
