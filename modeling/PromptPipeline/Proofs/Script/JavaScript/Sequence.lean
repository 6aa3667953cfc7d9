import PromptPipeline.Proofs.Script.JavaScript.Layout
import PromptPipeline.Proofs.Script.JavaScript.Nesting
import PromptPipeline.Script.Scan

/-!
# Scripts one after the other

Where the brackets of two scripts are properly nested, a semicolon between them ends all that the
declarations of the first look for behind them and all that the arrows of the second look for before
them, so the scripts declare and use side by side what each does alone (`declaredFrom_append`,
`usedFrom_append`). If nothing is open at the end of the first script, the tokens of both in a row
are the tokens of each (`tokens_append`).

Main statement: `freeNames_append`.
-/

namespace PromptPipeline.JavaScript

variable {t : Token} {p : Punctuation} {ts before more : List Token} {depth outer : Nat}

/-! ## Names that are used -/

/-- At the start of a script a name is used as it is behind a semicolon. -/
theorem usedFrom_semicolon : usedFrom (some (.punctuation .semicolon)) ts = usedFrom none ts := by
  cases ts with
  | nil => rfl
  | cons t ts => cases t <;> rfl

/-- At the end of a script a name is used as it is before a semicolon. -/
theorem usedFrom_append (previous : Option Token) :
    usedFrom previous (ts ++ .punctuation .semicolon :: more) =
      usedFrom previous ts ++ usedFrom none more := by
  induction ts generalizing previous with
  | nil => exact usedFrom_semicolon
  | cons t ts ih =>
    cases t with
    | punctuation p => exact ih _
    | identifier name =>
      -- The semicolon behind the last name makes neither a key nor a callee of it.
      have huse : isValueUse previous (ts ++ .punctuation .semicolon :: more).head? =
          isValueUse previous ts.head? := by
        cases ts <;> rfl
      rw [List.cons_append, usedFrom, usedFrom, ih, huse]
      split <;> rfl

/-! ## Names that are declared -/

/-- A group that starts in a script ends in it. -/
theorem takeGroup_zero_append (hp : p.opens = true)
    (h : closesAll outer (.punctuation p :: ts) = true) :
    takeGroup 0 (.punctuation p :: (ts ++ more)) = takeGroup 0 (.punctuation p :: ts) := by
  have hopens : (Token.punctuation p).opens = true := hp
  rw [closesAll, if_pos hopens] at h
  rw [takeGroup, takeGroup, if_pos hopens, if_pos hopens, Nat.zero_add, ← Nat.zero_add 1,
    takeGroup_append h]

theorem declaratorNames_append (h : closesAll outer ts = true) :
    declaratorNames (ts ++ .punctuation .semicolon :: more) = declaratorNames ts := by
  cases ts with
  | nil => rfl
  | cons t ts =>
    cases t with
    | identifier name => rfl
    | punctuation p =>
      rw [List.cons_append, declaratorNames, declaratorNames]
      split
      next hp =>
        have hopens : p.opens = true := by
          rcases hp with rfl | rfl <;> rfl
        rw [takeGroup_zero_append hopens h]
      next => rfl

theorem parameterListNames_append (h : closesAll outer ts = true) :
    parameterListNames (ts ++ .punctuation .semicolon :: more) = parameterListNames ts := by
  cases ts with
  | nil => rfl
  | cons t ts =>
    cases t with
    | identifier name => rfl
    | punctuation p =>
      cases p with
      | openRound => exact congrArg boundNames (takeGroup_zero_append rfl h)
      | _ => rfl

/-- A list of declarators ends at the semicolon. -/
theorem furtherNames_append {isFirst : Bool} (h : closesAll (outer + depth) ts = true) :
    furtherNames isFirst depth (ts ++ .punctuation .semicolon :: more) =
      furtherNames isFirst depth ts := by
  induction ts generalizing isFirst depth with
  | nil =>
    -- At the end of the script no bracket of the list is open, so the semicolon ends the list.
    have hdepth : depth = 0 := by
      have hzero : outer + depth = 0 := by simpa [closesAll] using h
      omega
    rw [hdepth]
    rfl
  | cons t ts ih =>
    rw [closesAll] at h
    rw [List.cons_append, furtherNames, furtherNames]
    split at h
    next hopens => rw [if_pos hopens, if_pos hopens, ih h]
    next hopens =>
      rw [if_neg hopens, if_neg hopens]
      split at h
      next hcloses =>
        rw [if_pos hcloses, if_pos hcloses]
        cases depth with
        | zero => rfl
        | succ depth => exact ih (Bool.and_eq_true_iff.mp h).2
      next hcloses =>
        rw [if_neg hcloses, if_neg hcloses, declaratorNames_append h, ih h]

/-- What a token declares does not depend on what is behind the next semicolon. -/
theorem namesDeclaredAt_append (h : closesAll outer ts = true) :
    namesDeclaredAt before t (ts ++ .punctuation .semicolon :: more) =
      namesDeclaredAt before t ts := by
  cases t with
  | punctuation p => cases p <;> rfl
  | identifier word =>
    simp only [namesDeclaredAt]
    split_ifs with hdeclarator hfunction hclass hcatch
    · have hfurther : closesAll (outer + 0) ts = true := h
      rw [declaratorNames_append h, furtherNames_append hfurther]
    · cases ts with
      | nil => rfl
      | cons t' ts =>
        cases t' with
        | identifier name => exact congrArg (name :: ·) (parameterListNames_append h)
        | punctuation p => exact parameterListNames_append h
    · cases ts with
      | nil => rfl
      | cons t' ts => cases t' <;> rfl
    · exact parameterListNames_append h
    · rfl

/-- What a token declares does not depend on what is before the latest semicolon. -/
theorem namesDeclaredAt_append_before (h : closesAll outer (before.map Token.mirror) = true) :
    namesDeclaredAt (before ++ .punctuation .semicolon :: more) t ts =
      namesDeclaredAt before t ts := by
  have hgroup {rest : List Token}
      (h : closesAll outer ((.punctuation .closeRound :: rest).map Token.mirror) = true) :
      takeGroupBack 0 (.punctuation .closeRound :: (rest ++ .punctuation .semicolon :: more)) =
        takeGroupBack 0 (.punctuation .closeRound :: rest) := by
    have hrest : closesAll (outer + (0 + 1)) (rest.map Token.mirror) = true := h
    exact congrArg (_ :: ·) (takeGroupBack_append hrest _)
  cases t with
  | identifier word => rfl
  | punctuation p =>
    cases p with
    | arrow =>
      -- Only from a closing bracket on an arrow looks back further than one token.
      cases before with
      | nil => rfl
      | cons t' before =>
        cases t' with
        | identifier name => rfl
        | punctuation p =>
          cases p with
          | closeRound => exact congrArg (fun ts => boundNames ts.reverse) (hgroup h)
          | _ => rfl
    | _ => rfl

/-- Behind a semicolon a script declares what it declares alone: where a token stands, the brackets
that are open before it are closed behind it, and read backwards the other way round. -/
theorem declaredFrom_append_before (h : closesAll depth ts = true)
    (hbefore : closesAll depth (before.map Token.mirror) = true) :
    declaredFrom (before ++ .punctuation .semicolon :: more) ts = declaredFrom before ts := by
  induction ts generalizing before depth with
  | nil => rfl
  | cons t ts ih =>
    obtain ⟨after, hafter, hback⟩ := closesAll_cons h
    rw [declaredFrom, declaredFrom, namesDeclaredAt_append_before hbefore]
    exact congrArg (_ ++ ·) (ih hafter (hback before hbefore))

theorem declaredFrom_append_after (h : closesAll depth ts = true) :
    declaredFrom before (ts ++ .punctuation .semicolon :: more) =
      declaredFrom before ts ++
        declaredFrom (ts.reverse ++ before) (.punctuation .semicolon :: more) := by
  induction ts generalizing before depth with
  | nil => rfl
  | cons t ts ih =>
    obtain ⟨after, hafter, -⟩ := closesAll_cons h
    rw [List.cons_append, declaredFrom, declaredFrom, namesDeclaredAt_append hafter, ih hafter,
      List.append_assoc, List.reverse_cons, List.append_assoc, List.singleton_append]

/-- Scripts with a semicolon between them declare what each declares. -/
theorem declaredFrom_append (h : Nested ts) (hmore : Nested more) :
    declaredFrom [] (ts ++ .punctuation .semicolon :: more) =
      declaredFrom [] ts ++ declaredFrom [] more := by
  have hlater : declaredFrom ([] ++ .punctuation .semicolon :: ts.reverse) more =
      declaredFrom [] more :=
    declaredFrom_append_before hmore.closesAll rfl
  rw [declaredFrom_append_after h.closesAll, List.append_nil, ← hlater]
  rfl

/-- What two scripts read in a row: what each reads but for what the other declares. -/
theorem freeNames_semicolon (h : Nested ts) (hmore : Nested more) :
    freeNames (ts ++ .punctuation .semicolon :: more) =
      ((freeNames ts).diff (declaredNames more)).union
        ((freeNames more).diff (declaredNames ts)) := by
  refine NameSet.ext fun name => ?_
  simp only [freeNames, declaredNames, usedFrom_append, declaredFrom_append h hmore,
    NameSet.mem_union, NameSet.mem_diff, NameSet.mem_ofList, List.mem_append]
  tauto

/-! ## Tokens of scripts in a row -/

/-- The script ends outside of strings, comments, regular expressions and templates. -/
def EndsInCode (s : List Char) : Prop :=
  ∃ ts last, Reads ⟨none, 0, []⟩ s ts last ∧ last.interpolations = []

theorem EndsInCode.of_spells {s : List Char} (h : Spells ts s) : EndsInCode s := by
  have hstart : (LexerState.mk none 0 []).interpolations = [] := rfl
  obtain ⟨last, hreads, hlast⟩ := reads_of_spells hstart h
  exact ⟨ts, last, hreads, hlast⟩

/-- In what is nested as many curly brackets are closed as opened. -/
theorem Nested.foldl_countCurly (h : Nested ts) (n : Nat) : ts.foldl Token.countCurly n = n := by
  induction h generalizing n with
  | nil => rfl
  | @cons t ts hopens hcloses _ ih =>
    have hcount : t.countCurly n = n := by
      cases t with
      | identifier name => rfl
      | punctuation p =>
        cases p with
        | openCurly => cases hopens
        | closeCurly => cases hcloses
        | _ => rfl
    rw [List.foldl_cons, hcount, ih]
  | @group p inner rest hopens _ _ ihinner ihrest =>
    have hcount : (Token.punctuation p.partner).countCurly ((Token.punctuation p).countCurly n) =
        n := by
      cases p <;> first | rfl | cases hopens
    rw [List.foldl_cons, List.foldl_append, ihinner, List.foldl_cons, hcount, ihrest]

/-- A script behind a semicolon on a line of its own has the tokens it has alone. -/
theorem tokens_append {s s' : List Char} (hend : EndsInCode s) (h : Nested (tokens s)) :
    tokens (s ++ '\n' :: ';' :: '\n' :: s') = tokens s ++ .punctuation .semicolon :: tokens s' := by
  obtain ⟨ts, ⟨latest, braces, interpolations⟩, hreads, hinterpolations⟩ := hend
  have htokens : tokens s = ts := hreads.tokensFrom_eq
  have hbraces := hreads.braces_eq
  rw [← htokens, h.foldl_countCurly] at hbraces
  -- Interpolations of the second script are told by the count of brackets, so it has to be zero.
  obtain rfl : braces = 0 := hbraces
  obtain rfl : interpolations = [] := hinterpolations
  rw [htokens, tokens, hreads.tokensFrom_append_line, tokensFrom_blank (by decide),
    tokensFrom_mark (isMark_of_ascii (by decide) (by decide) (by decide)) (by simp),
    tokensFrom_blank (by decide)]
  have hbehind : tokensFrom ⟨some (.punctuation .semicolon), 0, []⟩ s' = tokens s' := by
    have hregex : startsRegex (LexerState.mk none 0 []).latest =
        startsRegex (some (.punctuation .semicolon)) := rfl
    exact tokensFrom_congr hregex
  exact congrArg (ts ++ .punctuation .semicolon :: ·) hbehind

/-- **What two scripts read in a row, the first one on lines of its own:** what each reads but for
what the other declares. -/
theorem freeNames_append (s s' : String) (hend : EndsInCode s.toList)
    (h : Nested (tokens s.toList)) (h' : Nested (tokens s'.toList)) :
    ScriptLanguage.javaScript.freeNames (s ++ "\n;\n" ++ s') =
      ((ScriptLanguage.javaScript.freeNames s).diff (declaredNames (tokens s'.toList))).union
        ((ScriptLanguage.javaScript.freeNames s').diff (declaredNames (tokens s.toList))) := by
  have htext : (s ++ "\n;\n" ++ s').toList = s.toList ++ '\n' :: ';' :: '\n' :: s'.toList := by
    simp
  show freeNames (tokens (s ++ "\n;\n" ++ s').toList) = _
  rw [htext, tokens_append hend h]
  exact freeNames_semicolon h h'

/-- The tokens of a script that reads `x` and declares `y`. -/
def copying : List Token :=
  [.identifier "const", .identifier "y", .punctuation .operator, .identifier "x"]

/-- The tokens of a script that reads `y` and `z` and declares `x`. -/
def listing : List Token :=
  [.identifier "const", .identifier "x", .punctuation .operator, .punctuation .openSquare,
    .identifier "y", .punctuation .comma, .identifier "z", .punctuation .closeSquare]

/-- In a row, two scripts read what neither declares. Behind a script in which a division is taken
for a regular expression, with a bracket in it, a script reads nothing. -/
theorem declared_elsewhere_is_not_read :
    (spaced copying = "const y = x ".toList ∧ spaced listing = "const x = [ y , z ] ".toList ∧
      ScriptLanguage.javaScript.freeNames ("const y = x " ++ "\n;\n" ++ "const x = [ y , z ] ") =
        .ofList ["z"]) ∧
    (ScriptLanguage.javaScript.freeNames "return [z];" = .ofList ["z"] ∧
      ScriptLanguage.javaScript.freeNames
        ("let [a = (1 / 2) / 3] = b" ++ "\n;\n" ++ "return [z];") = .ofList ["b"]) := by
  have hcopying : Spells copying "const y = x ".toList :=
    spells_spaced (by decide : ∀ t ∈ copying, t.isWritable = true)
  have hlisting : Spells listing "const x = [ y , z ] ".toList :=
    spells_spaced (by decide : ∀ t ∈ listing, t.isWritable = true)
  have hnames : Nested copying := .cons rfl rfl (.cons rfl rfl (.cons rfl rfl (.cons rfl rfl .nil)))
  have helements : Nested [.identifier "y", .punctuation .comma, .identifier "z"] :=
    .cons rfl rfl (.cons rfl rfl (.cons rfl rfl .nil))
  have harray : Nested (listing.drop 3) := .group (p := .openSquare) rfl helements .nil
  have hnested : Nested listing := .cons rfl rfl (.cons rfl rfl (.cons rfl rfl harray))
  refine ⟨⟨by decide, by decide, ?_⟩, by decide +kernel, by decide +kernel⟩
  rw [← tokens_of_spells hcopying] at hnames
  rw [← tokens_of_spells hlisting] at hnested
  rw [freeNames_append _ _ (.of_spells hcopying) hnames hnested]
  show ((freeNames (tokens _)).diff (declaredNames (tokens _))).union
    ((freeNames (tokens _)).diff (declaredNames (tokens _))) = _
  rw [tokens_of_spells hcopying, tokens_of_spells hlisting]
  decide

end PromptPipeline.JavaScript
