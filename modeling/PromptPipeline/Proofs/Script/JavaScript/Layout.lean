import PromptPipeline.Proofs.Script.JavaScript.Reading

/-!
# Tokens with white space between them

A row of tokens can be laid out with any white space before, between and behind them, as long as no
token runs into the next one (`Spells`). Whatever the layout, reading gives the tokens back
(`tokens_of_spells`).
-/

namespace PromptPipeline.JavaScript

open Text

/-- How the punctuation is written; of the operators, the equals sign. -/
def Punctuation.text : Punctuation → List Char
  | .openRound => ['(']
  | .closeRound => [')']
  | .openSquare => ['[']
  | .closeSquare => [']']
  | .openCurly => ['\x7b']
  | .closeCurly => ['\x7d']
  | .comma => [',']
  | .semicolon => [';']
  | .colon => [':']
  | .dot => ['.']
  | .arrow => ['=', '>']
  | .spread => ['.', '.', '.']
  | .operator => ['=']

namespace Token

/-- How the token is written. -/
def text : Token → List Char
  | .identifier name => name.toList
  | .punctuation p => p.text

/-- Whether the token ends before the character. -/
def endsBefore : Token → Char → Bool
  | .identifier _, c => !isIdentifierPart c
  | .punctuation .operator, c => c != '=' && c != '>'
  | .punctuation .dot, c => c != '.'
  | .punctuation _, _ => true

/-- Whether the token is punctuation or a name in ASCII. -/
def isWritable : Token → Bool
  | .identifier name => isAsciiName name.toList
  | .punctuation _ => true

end Token

/-- The text is the tokens, with white space wherever there is any. -/
inductive Spells : List Token → List Char → Prop where
  | nil : Spells [] []
  | blank {c : Char} {ts : List Token} {s : List Char} (hc : isBlank c = true) (h : Spells ts s) :
      Spells ts (c :: s)
  | token {t : Token} {ts : List Token} {s : List Char} (ht : t.isWritable = true)
      (hends : ∀ c ∈ s.head?, t.endsBefore c = true) (h : Spells ts s) :
      Spells (t :: ts) (t.text ++ s)

variable {st : LexerState} {c : Char} {s rest : List Char} {t : Token} {ts : List Token}

theorem LexerState.interpolations_count (st : LexerState) (c : Char) :
    (st.count c).interpolations = st.interpolations := by
  unfold count
  split
  next => rfl
  next => split <;> rfl

/-- Outside of templates a closing curly bracket is a bracket. -/
theorem skipped?_closeCurly (h : st.interpolations = []) : skipped? st '\x7d' rest = none := by
  have hblank : isBlank '\x7d' = false := by decide
  simp [skipped?, hblank, h, Char.isDigit]

/-- The marks that can start something longer. -/
def extensible : List Char :=
  ['=', '!', '<', '>', '.', '?']

theorem punctuationAt_of_notMem (h : c ∉ extensible) :
    punctuationAt c rest = (.ofChar c, rest) := by
  simp only [extensible, List.mem_cons, List.not_mem_nil, or_false, not_or] at h
  obtain ⟨hequals, hbang, hless, hgreater, hdot, hquestion⟩ := h
  unfold punctuationAt
  split <;> simp_all

/-- What the punctuation is read as, and what is left. -/
theorem punctuationAt_text {p : Punctuation} {first : Char} {others : List Char}
    (htext : p.text = first :: others)
    (hends : ∀ c ∈ rest.head?, (Token.punctuation p).endsBefore c = true) :
    punctuationAt first (others ++ rest) = (p, rest) := by
  cases p with
  | dot =>
    cases htext
    cases rest with
    | nil => rfl
    | cons c rest =>
      have hc : c ≠ '.' := by simpa [Token.endsBefore] using hends c rfl
      show punctuationAt '.' (c :: rest) = _
      unfold punctuationAt
      split <;> simp_all [Punctuation.ofChar]
  | operator =>
    cases htext
    cases rest with
    | nil => rfl
    | cons c rest =>
      have hc : c ≠ '=' ∧ c ≠ '>' := by simpa [Token.endsBefore] using hends c rfl
      show punctuationAt '=' (c :: rest) = _
      unfold punctuationAt
      split <;> simp_all [Punctuation.ofChar]
  | arrow => cases htext; rfl
  | spread => cases htext; rfl
  | _ => cases htext; exact punctuationAt_of_notMem (by decide)

/-- The punctuation leaves its token, outside of templates. -/
theorem leaves_punctuation {p : Punctuation} (hst : st.interpolations = [])
    (hends : ∀ c ∈ rest.head?, (Token.punctuation p).endsBefore c = true) :
    ∃ next : LexerState, next.interpolations = [] ∧
      Leaves st (p.text ++ rest) (.punctuation p) next rest := by
  obtain ⟨first, others, htext⟩ : ∃ first others, p.text = first :: others := by
    cases p <;> exact ⟨_, _, rfl⟩
  have hname : isIdentifierStart first = false := by
    cases p <;> cases htext <;> exact isIdentifierStart_eq_false (by decide) (by decide)
  have hnone : skipped? st first (others ++ rest) = none := by
    cases p with
    | closeCurly => cases htext; exact skipped?_closeCurly hst
    | _ => cases htext; exact skipped?_eq_none (by decide) (by decide) (by decide)
  have htoken : tokenAt first (others ++ rest) = (.punctuation p, rest) := by
    rw [tokenAt, if_neg (by simp [hname]), punctuationAt_text htext hends]
  refine ⟨(st.push (.punctuation p)).count first, ?_, first, others ++ rest, ?_, hnone, htoken, rfl⟩
  · rw [LexerState.interpolations_count]
    exact hst
  · rw [htext, List.cons_append]

/-- Outside of templates a layout is read to its end. -/
theorem reads_of_spells (hst : st.interpolations = []) (h : Spells ts s) :
    ∃ last, Reads st s ts last ∧ last.interpolations = [] := by
  induction h generalizing st with
  | nil => exact ⟨st, .done st, hst⟩
  | @blank c ts s hc _ ih =>
    obtain ⟨last, hreads, hlast⟩ := ih hst
    exact ⟨last, .skip (skips_blank hc) hreads, hlast⟩
  | @token t ts s ht hends _ ih =>
    cases t with
    | identifier name =>
      have hrest : ∀ c ∈ s.head?, isIdentifierPart c = false := fun c hc => by
        simpa [Token.endsBefore] using hends c hc
      have hnext : (st.push (.identifier name)).interpolations = [] := hst
      have hleave :
          Leaves st (name.toList ++ s) (.identifier name) (st.push (.identifier name)) s := by
        have hname : Leaves st (name.toList ++ s) (.identifier (.ofList name.toList)) _ s :=
          leaves_name ht hrest
        rwa [String.ofList_toList] at hname
      obtain ⟨last, hreads, hlast⟩ := ih hnext
      exact ⟨last, .token hleave hreads, hlast⟩
    | punctuation p =>
      obtain ⟨next, hnext, hleave⟩ := leaves_punctuation hst hends
      obtain ⟨last, hreads, hlast⟩ := ih hnext
      exact ⟨last, .token hleave hreads, hlast⟩

/-- **Whatever the layout, reading gives the tokens back.** -/
theorem tokens_of_spells (h : Spells ts s) : tokens s = ts := by
  have hstart : (LexerState.mk none 0 []).interpolations = [] := rfl
  obtain ⟨last, hreads, -⟩ := reads_of_spells hstart h
  exact hreads.tokensFrom_eq

/-- The tokens with a space behind each. -/
def spaced (ts : List Token) : List Char :=
  ts.flatMap fun t => t.text ++ [' ']

/-- Tokens have a layout if they can be written at all. -/
theorem spells_spaced (h : ∀ t ∈ ts, t.isWritable = true) : Spells ts (spaced ts) := by
  have hspace (t : Token) : t.endsBefore ' ' = true := by
    cases t with
    | identifier name =>
      have hpart : isIdentifierPart ' ' = false :=
        isIdentifierPart_eq_false (by decide) (by decide)
      simp [Token.endsBefore, hpart]
    | punctuation p => cases p <;> rfl
  induction ts with
  | nil => exact .nil
  | cons t ts ih =>
    obtain ⟨ht, hts⟩ := List.forall_mem_cons.mp h
    rw [spaced, List.flatMap_cons, List.append_assoc]
    refine .token ht (fun c hc => ?_) (.blank (by decide) (ih hts))
    obtain rfl := Option.some.inj hc
    exact hspace t

end PromptPipeline.JavaScript
