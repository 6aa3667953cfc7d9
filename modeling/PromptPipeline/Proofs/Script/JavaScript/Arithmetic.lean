import PromptPipeline.Proofs.Script.JavaScript.Expression
import PromptPipeline.Proofs.Script.JavaScript.Scope
import PromptPipeline.Script.Scan

/-!
# What a script of arithmetic reads

A literal leaves no token, so for a slash behind it the token before the literal decides, and that
is never the end of an operand: the slash starts a regular expression, which takes up everything to
the next slash. `Mode` keeps this in mind while symbols are read. What is read are the variables
that are visible in it, outside regular expressions; all of them are if no slash stands right behind
a literal.

Main statement: `Expression.freeNames_script`.
-/

namespace PromptPipeline.JavaScript

open Text

/-! ## What is visible -/

/-- The token that the symbol leaves outside regular expressions. -/
def Symbol.token? : Symbol → Option Token
  | .var v => some (.identifier v.name)
  | .literal _ => none
  | .operator _ => some (.punctuation .operator)
  | .opening => some (.punctuation .openRound)
  | .closing => some (.punctuation .closeRound)

/-- How reading takes the next symbol: as code, by whether the latest token ends an operand, or as a
part of a regular expression. -/
inductive Mode where
  | code (operand : Bool)
  | regex

namespace Mode

/-- Whether the latest token ends an operand. -/
def operand : Mode → Bool
  | .code operand => operand
  | .regex => false

/-- Whether the symbol is the start or a part of a regular expression. -/
def hides : Mode → Symbol → Bool
  | .code operand, s => s.divides && !operand
  | .regex, _ => true

/-- The mode behind the symbol. -/
def next : Mode → Symbol → Mode
  | .regex, s => if s.divides then .code false else .regex
  | .code operand, .literal _ => .code operand
  | .code operand, s => if s.divides && !operand then .regex else .code s.endsOperand

/-- The symbols outside regular expressions. -/
def visible (m : Mode) : List Symbol → List Symbol
  | [] => []
  | s :: rest => if m.hides s then (m.next s).visible rest else s :: (m.next s).visible rest

/-- The token that the symbol leaves in the mode. -/
def token? (m : Mode) (s : Symbol) : Option Token :=
  if m.hides s then none else s.token?

/-- The tokens that the symbols leave. -/
def tokens (m : Mode) (syms : List Symbol) : List Token :=
  (m.visible syms).filterMap Symbol.token?

variable {m : Mode} {s : Symbol} {syms : List Symbol} {t : Token}

theorem tokens_cons (m : Mode) (s : Symbol) (syms : List Symbol) :
    m.tokens (s :: syms) = (m.token? s).toList ++ (m.next s).tokens syms := by
  rw [tokens, visible, token?]
  split
  next => rfl
  next =>
    rw [List.filterMap_cons, tokens]
    cases s.token? <;> rfl

/-- Where a regular expression starts or goes on there is no operand, before and behind. -/
theorem operand_of_hides (h : m.hides s = true) :
    m.operand = false ∧ (m.next s).operand = false := by
  cases m with
  | regex =>
    refine ⟨rfl, ?_⟩
    rw [next]
    split <;> rfl
  | code operand =>
    obtain ⟨hdivides, hoperand⟩ := Bool.and_eq_true_iff.mp h
    obtain rfl := s.eq_of_divides hdivides
    obtain rfl : operand = false := by simpa using hoperand
    exact ⟨rfl, rfl⟩

theorem of_token?_eq_some (h : m.token? s = some t) :
    s.token? = some t ∧ m.next s = code s.endsOperand := by
  rw [token?] at h
  split at h
  next => cases h
  next hshows =>
    refine ⟨h, ?_⟩
    cases m with
    | regex => exact absurd rfl hshows
    | code operand =>
      have hshows : (s.divides && !operand) = false := by simpa [hides] using hshows
      rw [next, hshows]
      · rfl
      · intro l hl
        rw [hl] at h
        cases h

theorem token?_eq_none (h : m.token? s = none) : m.hides s = true ∨
    ∃ l, s = .literal l ∧ m.next s = m := by
  rw [token?] at h
  split at h
  next hhides => exact .inl hhides
  next hshows =>
    cases s with
    | literal l =>
      refine .inr ⟨l, rfl, ?_⟩
      cases m with
      | regex => exact absurd rfl hshows
      | code operand => rfl
    | _ => cases h

end Mode

/-! ## Reading symbols -/

section

variable {syms : List Symbol} {st : LexerState} {latest : Option Token}

theorem tokensFrom_space {text : List Char} : tokensFrom st (' ' :: text) = tokensFrom st text :=
  tokensFrom_blank (by decide)

/-- A name or a number ends where the next symbol is printed. -/
theorem isIdentifierPart_of_mem_spell : ∀ c ∈ (spell syms).head?, isIdentifierPart c = false :=
  head?_spell_imp (isIdentifierPart_eq_false (by decide) (by decide))
    (isIdentifierPart_eq_false (by decide) (by decide))

theorem tokensFrom_var (v : Variable) : tokensFrom st (v.name.toList ++ spell syms) =
    .identifier v.name :: tokensFrom (st.push (.identifier v.name)) (spell syms) := by
  rw [tokensFrom_name v.isAscii isIdentifierPart_of_mem_spell, String.ofList_toList]

theorem tokensFrom_literal (l : Literal) :
    tokensFrom st (l.text.toList ++ spell syms) = tokensFrom st (spell syms) :=
  tokensFrom_number l.ne_nil (List.all_eq_true.mp l.all_isDigit) fun c hc =>
    ⟨isIdentifierPart_of_mem_spell c hc,
      head?_spell_imp (p := (· ≠ '.')) (by decide) (by decide) c hc⟩

theorem tokensFrom_mark_spell {c : Char} (h : isMark c = true) : tokensFrom st (c :: spell syms) =
    .punctuation (.ofChar c) :: tokensFrom (st.push (.punctuation (.ofChar c))) (spell syms) :=
  tokensFrom_mark h (head?_spell_imp (by decide) (by decide))

/-- An operator leaves a token, if it is no slash that starts a regular expression. -/
theorem tokensFrom_operator {op : Operator} (h : op = .divide → startsRegex st.latest = false) :
    tokensFrom st (op.text.toList ++ spell syms) =
      .punctuation .operator :: tokensFrom (st.push (.punctuation .operator)) (spell syms) := by
  cases op with
  | plus =>
    exact tokensFrom_mark_spell (c := '+') (isMark_of_ascii (by decide) (by decide) (by decide))
  | minus =>
    exact tokensFrom_mark_spell (c := '-') (isMark_of_ascii (by decide) (by decide) (by decide))
  | times =>
    exact tokensFrom_mark_spell (c := '*') (isMark_of_ascii (by decide) (by decide) (by decide))
  | divide => exact tokensFrom_slash (h rfl) (head?_spell_imp (by decide) (by decide))

/-- All symbols but slashes stand in a regular expression as they are. -/
theorem all_not_isRegexMark {s : Symbol} (h : s.divides = false) :
    s.text.toList.all (!isRegexMark ·) = true := by
  have hparts {text : List Char} (hparts : ∀ c ∈ text, isAsciiPart c = true) :
      text.all (!isRegexMark ·) = true := by
    refine List.all_eq_true.mpr fun c hc => ?_
    rw [isRegexMark_of_isAsciiPart (hparts c hc)]
    rfl
  cases s with
  | var v => exact hparts (isAsciiPart_of_mem v.isAscii)
  | literal l =>
    refine hparts fun c hc => ?_
    simp [isAsciiPart, Char.isAlphanum, List.all_eq_true.mp l.all_isDigit c hc]
  | operator op =>
    cases op with
    | divide => cases h
    | _ => decide
  | opening => decide
  | closing => decide

namespace Mode

/-- What is left to read of the text in the mode. -/
def rest : Mode → List Char → List Char
  | .code _, text => text
  | .regex, text => afterRegex false text

/-- The tokens read so far have led to the mode. -/
def Fits (m : Mode) (latest : Option Token) : Prop :=
  startsRegex latest = !m.operand

end Mode

/-- In a regular expression a symbol leaves no token, and a slash ends it. -/
theorem afterRegex_spell_cons (s : Symbol) :
    afterRegex false (spell (s :: syms)) = (Mode.regex.next s).rest (spell syms) := by
  show afterRegex false ([' '] ++ (s.text.toList ++ spell syms)) = _
  rw [afterRegex_append (by decide)]
  cases hdivides : s.divides with
  | false =>
    rw [afterRegex_append (all_not_isRegexMark hdivides), Mode.next, hdivides]
    rfl
  | true =>
    obtain rfl := s.eq_of_divides hdivides
    show afterRegex false ('/' :: spell syms) = spell syms
    -- what stands behind the slash are no flags
    have hflags : ∀ c ∈ (spell syms).head?, c.isAlpha = false :=
      head?_spell_imp (by decide) (by decide)
    rw [afterRegex_slash]
    exact dropWhile_run_append (List.forall_mem_nil _) hflags

/-- One symbol leaves its token, and reading goes on behind it in the next mode. -/
theorem tokensFrom_spell_cons (m : Mode) (s : Symbol) (syms : List Symbol) (hfits : m.Fits latest) :
    ∃ latest', (m.next s).Fits latest' ∧ tokensFrom ⟨latest, 0, []⟩ (m.rest (spell (s :: syms))) =
      (m.token? s).toList ++ tokensFrom ⟨latest', 0, []⟩ ((m.next s).rest (spell syms)) := by
  cases m with
  | regex =>
    refine ⟨latest, ?_, ?_⟩
    · rw [Mode.next]
      split
      next => exact hfits
      next => exact hfits
    · rw [Mode.rest, afterRegex_spell_cons]
      rfl
  | code operand =>
    show ∃ latest', _ ∧ tokensFrom _ (' ' :: (s.text.toList ++ spell syms)) = _
    rw [tokensFrom_space]
    cases s with
    | var v =>
      refine ⟨some (.identifier v.name), ?_, tokensFrom_var v⟩
      show (keywords.contains v.name && v.name != "this") = false
      rw [List.contains_eq_mem, decide_eq_false v.notMem_keywords, Bool.false_and]
    | literal l => exact ⟨latest, hfits, tokensFrom_literal l⟩
    | opening =>
      exact ⟨some (.punctuation .openRound), rfl,
        tokensFrom_mark_spell (isMark_of_ascii (by decide) (by decide) (by decide))⟩
    | closing =>
      exact ⟨some (.punctuation .closeRound), rfl,
        tokensFrom_mark_spell (isMark_of_ascii (by decide) (by decide) (by decide))⟩
    | operator op =>
      cases htoken : (Mode.code operand).token? (.operator op) with
      | none =>
        -- the slash starts a regular expression
        obtain hhides | ⟨l, hl, -⟩ := Mode.token?_eq_none htoken
        · obtain ⟨hdivides, hoperand⟩ := Bool.and_eq_true_iff.mp hhides
          obtain rfl := Symbol.operator.inj (Symbol.eq_of_divides hdivides)
          obtain rfl : operand = false := by simpa using hoperand
          exact ⟨latest, hfits, tokensFrom_regex hfits (head?_spell_imp (by decide) (by decide))⟩
        · cases hl
      | some t =>
        obtain ⟨ht, hnext⟩ := Mode.of_token?_eq_some htoken
        obtain rfl := Option.some.inj ht
        rw [hnext]
        refine ⟨some (.punctuation .operator), rfl, tokensFrom_operator fun hop => ?_⟩
        cases operand with
        | true => exact hfits
        | false =>
          rw [hop] at htoken
          cases htoken

/-- **What reading leaves of the symbols:** the tokens of those that are visible. The semicolon
stays if the last symbol is not in a regular expression. -/
theorem tokensFrom_spell (syms : List Symbol) {m : Mode} {latest : Option Token}
    (hfits : m.Fits latest) : ∃ ending, (ending = [] ∨ ending = [.punctuation .semicolon]) ∧
      tokensFrom ⟨latest, 0, []⟩ (m.rest (spell syms)) = m.tokens syms ++ ending := by
  induction syms generalizing m latest with
  | nil =>
    cases m with
    | code operand =>
      refine ⟨[.punctuation .semicolon], .inr rfl, ?_⟩
      show tokensFrom ⟨latest, 0, []⟩ [';'] = _
      rw [tokensFrom_mark (isMark_of_ascii (by decide) (by decide) (by decide)) (by simp),
        tokensFrom_nil]
      rfl
    | regex =>
      refine ⟨[], .inl rfl, ?_⟩
      show tokensFrom _ (afterRegex false ([';'] ++ [])) = _
      rw [afterRegex_append (by decide), afterRegex, tokensFrom_nil]
      rfl
  | cons s syms ih =>
    obtain ⟨latest', hfits', hstep⟩ := tokensFrom_spell_cons m s syms hfits
    obtain ⟨ending, hending, hrest⟩ := ih hfits'
    refine ⟨ending, hending, ?_⟩
    rw [hstep, hrest, Mode.tokens_cons, List.append_assoc]

end

/-! ## When everything is visible -/

namespace Mode

variable {m : Mode} {syms : List Symbol} {s : Symbol}

/-- Behind an operand no other operand is awaited. -/
def Awaits (m : Mode) (syms : List Symbol) : Prop :=
  m.operand = true → ∀ s ∈ syms.head?, s.startsOperand = false

/-- A symbol without a token is no operand behind another one, and does not make one. -/
theorem Awaits.operand_eq (h : m.Awaits (s :: syms)) (hnone : m.token? s = none) :
    m.operand = false ∧ (m.next s).operand = false := by
  obtain hhides | ⟨l, rfl, hnext⟩ := token?_eq_none hnone
  · exact operand_of_hides hhides
  · have hoperand : m.operand = false := by
      rw [← Bool.not_eq_true]
      intro hoperand
      cases h hoperand _ rfl
    rw [hnext]
    exact ⟨hoperand, hoperand⟩

theorem Awaits.next (h : m.Awaits (s :: syms)) (hchain : (s :: syms).IsChain Symbol.Follows) :
    (m.next s).Awaits syms := by
  intro hoperand following hmem
  cases htoken : m.token? s with
  | none =>
    rw [(h.operand_eq htoken).2] at hoperand
    cases hoperand
  | some t =>
    rw [(of_token?_eq_some htoken).2] at hoperand
    exact ((List.isChain_cons.mp hchain).1 following hmem).1 hoperand

/-- Without a slash behind a literal there is no regular expression. -/
theorem visible_eq_self {operand : Bool} (hchain : syms.IsChain Symbol.Follows)
    (hliteral : ¬∃ l, [.literal l, .operator .divide] <:+: syms)
    (hhead : ∀ s ∈ syms.head?, s.divides = true → operand = true) :
    (code operand).visible syms = syms := by
  induction syms generalizing operand with
  | nil => rfl
  | cons s syms ih =>
    obtain ⟨hnext, hsyms⟩ := List.isChain_cons.mp hchain
    have hshown : (s.divides && !operand) = false := by
      cases hdivides : s.divides with
      | false => rfl
      | true => simp [hhead s rfl hdivides]
    have hrest : ¬∃ l, [.literal l, .operator .divide] <:+: syms :=
      fun ⟨l, hinfix⟩ => hliteral ⟨l, List.infix_cons hinfix⟩
    have hvisible : ((code operand).next s).visible syms = syms := by
      cases s with
      | literal l =>
        refine ih hsyms hrest fun next hmem hdivides => absurd ⟨l, ?_⟩ hliteral
        obtain rfl := next.eq_of_divides hdivides
        obtain ⟨rest, rfl⟩ := List.head?_eq_some_iff.mp hmem
        exact List.IsPrefix.isInfix ⟨rest, rfl⟩
      | _ =>
        rw [next, hshown]
        · exact ih hsyms hrest fun next hmem hdivides => (hnext next hmem).2 hdivides
        · simp
    rw [visible, hides, hshown, hvisible]
    rfl

/-- The visible symbols are some of all symbols. -/
theorem visible_sublist (m : Mode) (syms : List Symbol) : (m.visible syms).Sublist syms := by
  induction syms generalizing m with
  | nil => exact List.nil_sublist _
  | cons s syms ih =>
    rw [visible]
    split
    next => exact (ih _).cons s
    next => exact (ih _).cons_cons s

theorem shows_of_visible_eq (h : m.visible (s :: syms) = s :: syms) :
    m.hides s = false ∧ (m.next s).visible syms = syms := by
  rw [visible] at h
  split at h
  next =>
    have hle := ((m.next s).visible_sublist syms).length_le
    rw [h, List.length_cons] at hle
    omega
  next hshows => exact ⟨by simpa using hshows, (List.cons.inj h).2⟩

/-- A slash behind a literal is hidden. -/
theorem not_infix_of_visible_eq (hchain : syms.IsChain Symbol.Follows) (hawaits : m.Awaits syms)
    (h : m.visible syms = syms) : ¬∃ l, [.literal l, .operator .divide] <:+: syms := by
  intro ⟨l, hinfix⟩
  induction syms generalizing m with
  | nil => cases List.infix_nil.mp hinfix
  | cons s syms ih =>
    obtain ⟨hshows, hvisible⟩ := shows_of_visible_eq h
    rcases List.infix_cons_iff.mp hinfix with hfirst | hinfix
    · obtain ⟨rest, hrest⟩ := hfirst
      obtain ⟨rfl, rfl⟩ := List.cons.inj hrest
      -- the mode behind the literal is that of code without an operand
      have hoperand := (hawaits.operand_eq (by rw [token?, hshows]; rfl)).1
      cases m with
      | regex => cases hshows
      | code operand =>
        obtain rfl : operand = false := hoperand
        cases (shows_of_visible_eq hvisible).1
    · exact ih hchain.tail (hawaits.next hchain) hvisible hinfix

end Mode

/-! ## What the script reads -/

namespace Symbol

variable {s : Symbol} {t : Token}

/-- Only the end of an operand is a name, and only the start of one an opening bracket. -/
theorem of_token? (h : s.token? = some t) : (t.readName?.isSome → s.endsOperand = true) ∧
    (s.startsOperand = false → t.isPunctuation .openRound = false) := by
  cases s with
  | literal l => cases h
  | var v =>
    obtain rfl := Option.some.inj h
    exact ⟨fun _ => rfl, fun _ => rfl⟩
  | operator op =>
    obtain rfl := Option.some.inj h
    exact ⟨fun hread => (by cases hread), fun _ => rfl⟩
  | opening =>
    obtain rfl := Option.some.inj h
    exact ⟨fun hread => (by cases hread), fun hstart => (by cases hstart)⟩
  | closing =>
    obtain rfl := Option.some.inj h
    exact ⟨fun _ => rfl, fun _ => rfl⟩

/-- No symbol declares a name, and none makes the name beside it a property or a key. -/
theorem declares_of_token? (h : s.token? = some t) : t.declares = false ∧ t.labels = false := by
  cases s with
  | literal l => cases h
  | var v =>
    obtain rfl := Option.some.inj h
    exact ⟨declares_of_notMem_keywords v.notMem_keywords, rfl⟩
  | _ =>
    obtain rfl := Option.some.inj h
    exact ⟨rfl, rfl⟩

theorem bind_readName?_token? (s : Symbol) : s.token?.bind Token.readName? = s.name? := by
  cases s with
  | var v => simp [token?, Token.readName?, name?, v.notMem_keywords, v.notMem_globals]
  | _ => rfl

end Symbol

/-- No name is called: no opening bracket stands behind an operand. -/
theorem Mode.isChain_tokens {m : Mode} {syms : List Symbol} {ending : List Token}
    (hending : ending = [] ∨ ending = [.punctuation .semicolon])
    (hchain : syms.IsChain Symbol.Follows) (hawaits : m.Awaits syms) :
    ((m.tokens syms ++ ending).IsChain fun t next =>
      t.readName?.isSome → next.isPunctuation .openRound = false) ∧
    (m.operand = true → ∀ t ∈ (m.tokens syms ++ ending).head?,
      t.isPunctuation .openRound = false) := by
  induction syms generalizing m with
  | nil =>
    rcases hending with rfl | rfl
    · exact ⟨.nil, fun _ t ht => by cases ht⟩
    · exact ⟨.singleton _, fun _ t ht => by rw [← Option.some.inj ht]; rfl⟩
  | cons s syms ih =>
    obtain ⟨htokens, hfirst⟩ := ih hchain.tail (hawaits.next hchain)
    rw [tokens_cons]
    cases htoken : m.token? s with
    | none =>
      rw [(hawaits.operand_eq htoken).1]
      exact ⟨htokens, fun h => by cases h⟩
    | some t =>
      obtain ⟨ht, hnext⟩ := of_token?_eq_some htoken
      obtain ⟨hread, hround⟩ := s.of_token? ht
      rw [hnext] at htokens hfirst ⊢
      refine ⟨htokens.cons fun next hmem hname => hfirst (hread hname) next hmem, ?_⟩
      intro hoperand t' ht'
      obtain rfl := Option.some.inj ht'
      exact hround (hawaits hoperand s rfl)

namespace Expression

/-- What the script reads is what is visible of the expression behind the keyword. -/
theorem freeNames_script_eq (e : Expression) : ScriptLanguage.javaScript.freeNames e.script =
    .ofList (((Mode.code false).visible e.symbols).filterMap Symbol.name?) := by
  have hreturn : isAsciiName "return".toList = true := by decide
  have hfits : startsRegex (some (.identifier "return")) = true := by decide
  obtain ⟨ending, hending, htokens⟩ := tokensFrom_spell e.symbols (m := .code false) hfits
  have hscript : JavaScript.tokens e.script.toList = .identifier "return" ::
      ((Mode.code false).tokens e.symbols ++ ending) := by
    rw [JavaScript.tokens, toList_script, tokensFrom_name hreturn isIdentifierPart_of_mem_spell]
    exact congrArg (_ :: ·) htokens
  have hharmless : ∀ t ∈ Token.identifier "return" ::
      ((Mode.code false).tokens e.symbols ++ ending), t.declares = false ∧ t.labels = false := by
    refine List.forall_mem_cons.mpr ⟨by decide, List.forall_mem_append.mpr ⟨fun t ht => ?_, ?_⟩⟩
    · obtain ⟨s, -, hs⟩ := List.mem_filterMap.mp ht
      exact s.declares_of_token? hs
    · rcases hending with rfl | rfl <;> decide
  have hcalls := (Mode.isChain_tokens (m := .code false) hending e.connected_symbols.chain
    fun h => by cases h).1
  have hnames : ((Mode.code false).tokens e.symbols).filterMap Token.readName? =
      ((Mode.code false).visible e.symbols).filterMap Symbol.name? := by
    rw [Mode.tokens, List.filterMap_filterMap]
    exact List.filterMap_congr fun s _ => s.bind_readName?_token?
  have hend : ending.filterMap Token.readName? = [] := by
    rcases hending with rfl | rfl <;> rfl
  show JavaScript.freeNames (JavaScript.tokens e.script.toList) = _
  rw [hscript, freeNames_eq (fun t ht => (hharmless t ht).1) (fun t ht => (hharmless t ht).2)
    (hcalls.cons fun _ _ h => by cases h), ← hnames]
  show NameSet.ofList (((Mode.code false).tokens e.symbols ++ ending).filterMap _) = _
  rw [List.filterMap_append, hend, List.append_nil]

/-- **What a script of arithmetic reads.** It reads the variables that are visible, outside of what
is taken for regular expressions. Everything is visible if and only if no slash stands right behind
a literal; then the script reads all variables of the expression, and it never reads others. -/
theorem freeNames_script (e : Expression) :
    ScriptLanguage.javaScript.freeNames e.script =
      .ofList (((Mode.code false).visible e.symbols).filterMap Symbol.name?) ∧
    ((Mode.code false).visible e.symbols = e.symbols ↔ ¬e.DividesLiteral) ∧
    (∀ name ∈ ScriptLanguage.javaScript.freeNames e.script, name ∈ e.names) ∧
    (¬e.DividesLiteral → ScriptLanguage.javaScript.freeNames e.script = .ofList e.names) := by
  have hchain := e.connected_symbols.chain
  have hall : ¬e.DividesLiteral → (Mode.code false).visible e.symbols = e.symbols := by
    refine fun hliteral => Mode.visible_eq_self hchain hliteral fun s hs hdivides => ?_
    exact (e.connected_symbols.divides_head s hs).symm.trans hdivides
  refine ⟨e.freeNames_script_eq, ⟨fun hvisible => ?_, hall⟩, fun name hname => ?_,
    fun hliteral => ?_⟩
  · exact Mode.not_infix_of_visible_eq hchain (fun h => by cases h) hvisible
  · rw [freeNames_script_eq, NameSet.mem_ofList] at hname
    rw [← filterMap_name?_symbols]
    exact ((Mode.visible_sublist _ _).filterMap _).subset hname
  · rw [freeNames_script_eq, hall hliteral, filterMap_name?_symbols]

/-- The reciprocal of `x`. -/
def reciprocal : Expression :=
  .operation .divide (.literal ⟨"1", by decide, by decide⟩)
    (.var ⟨"x", by decide, by decide, by decide⟩)

/-- The ratio of `x` and one to `y`. -/
def ratio : Expression :=
  .operation .divide
    (.parenthesized (.operation .plus (.var ⟨"x", by decide, by decide, by decide⟩)
      (.literal ⟨"1", by decide, by decide⟩)))
    (.var ⟨"y", by decide, by decide, by decide⟩)

/-- What a literal is divided by is not read; behind a bracket it is. -/
theorem divisor_of_literal_is_hidden :
    (reciprocal.script = "return 1 / x;" ∧ reciprocal.names = ["x"] ∧
      ScriptLanguage.javaScript.freeNames reciprocal.script = .empty) ∧
    (ratio.script = "return ( x + 1 ) / y;" ∧ ¬ratio.DividesLiteral ∧
      ScriptLanguage.javaScript.freeNames ratio.script = .ofList ["x", "y"]) := by
  have hratio : ¬ratio.DividesLiteral := by
    intro ⟨l, hinfix⟩
    simp [ratio, symbols, List.infix_cons_iff] at hinfix
  exact ⟨⟨by decide, rfl, (freeNames_script reciprocal).1⟩,
    ⟨by decide, hratio, (freeNames_script ratio).2.2.2 hratio⟩⟩

end Expression

end PromptPipeline.JavaScript
