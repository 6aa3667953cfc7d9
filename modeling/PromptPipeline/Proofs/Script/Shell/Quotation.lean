import PromptPipeline.Proofs.Script.Shell.Assignment
import PromptPipeline.Script.Scan

/-!
# Text in double quotes

A text between double quotes assigns nothing, whatever stands in it. The names that it refers to are
found as such (`mem_referencedFrom_iff`), but assignments, loops and read commands are looked for by
their form in the whole script, so a name that the text has in one of these forms is not read. The
quotes themselves make no difference to that: the forms in the script are those in the text
(`assignsFrom_echo_iff`, `boundFrom_echo`).

Main statement: `freeNames_echo`.
-/

namespace PromptPipeline.Shell

open Text

variable {s rest before after : List Char} {c : Char}

/-! ## References -/

/-- What may stand between a dollar sign and a name. -/
def referenceMarks : List (List Char) :=
  [[], ['\x7b'], ['\x7b', '#'], ['\x7b', '!']]

/-- The text starts with a name, perhaps behind marks. -/
def StartsWithReference (s name : List Char) : Prop :=
  Name.isParameter name = true ∧ ∃ marks ∈ referenceMarks, ∃ after, s = marks ++ (name ++ after) ∧
    ∀ c ∈ after.head?, Name.isParameterPart c = false

/-- Somewhere in the text the name follows a dollar sign. -/
def Refers (s name : List Char) : Prop :=
  ∃ before after, s = before ++ '$' :: after ∧ StartsWithReference after name

theorem refers_append_iff {skipped name : List Char} (h : '$' ∉ skipped) :
    Refers (skipped ++ s) name ↔ Refers s name := by
  constructor
  · rintro ⟨before, after, heq, hname⟩
    rcases List.append_eq_append_iff.mp heq with ⟨between, -, hs⟩ | ⟨between, rfl, hs⟩
    · exact ⟨between, after, hs, hname⟩
    · cases between with
      | nil => exact ⟨[], after, hs.symm, hname⟩
      | cons c between =>
        obtain ⟨rfl, -⟩ := List.cons.inj hs
        exact absurd (List.mem_append_right _ List.mem_cons_self) h
  · rintro ⟨before, after, rfl, hname⟩
    exact ⟨skipped ++ before, after, (List.append_assoc _ _ _).symm, hname⟩

theorem refers_dollar_iff {name : List Char} :
    Refers ('$' :: s) name ↔ StartsWithReference s name ∨ Refers s name := by
  constructor
  · rintro ⟨before, after, heq, hname⟩
    cases before with
    | nil =>
      obtain ⟨-, rfl⟩ := List.cons.inj heq
      exact .inl hname
    | cons c before => exact .inr ⟨before, after, (List.cons.inj heq).2, hname⟩
  · rintro (hname | ⟨before, after, rfl, hname⟩)
    · exact ⟨[], s, rfl, hname⟩
    · exact ⟨'$' :: before, after, rfl, hname⟩

/-- The text behind the marks at its start. -/
def afterMarks (s : List Char) : List Char :=
  match s with
  | '\x7b' :: '#' :: rest => rest
  | '\x7b' :: '!' :: rest => rest
  | '\x7b' :: rest => rest
  | _ => s

theorem referenceAfterDollar_eq (s : List Char) :
    referenceAfterDollar s = ((nameAt? (afterMarks s)).map Prod.fst,
      ((nameAt? (afterMarks s)).map Prod.snd).getD (afterMarks s)) := by
  unfold referenceAfterDollar
  extract_lets body
  have hbody : afterMarks s = body := rfl
  rw [hbody]
  cases nameAt? body <;> rfl

theorem exists_marks (s : List Char) : ∃ marks ∈ referenceMarks, s = marks ++ afterMarks s := by
  fun_cases afterMarks s with
  | case1 rest => exact ⟨['\x7b', '#'], by decide, rfl⟩
  | case2 rest => exact ⟨['\x7b', '!'], by decide, rfl⟩
  | case3 rest => exact ⟨['\x7b'], by decide, rfl⟩
  | case4 => exact ⟨[], by decide, rfl⟩

/-- No name starts with a mark, so the marks before a name are read in one way. -/
theorem afterMarks_append {marks name : List Char} (hmarks : marks ∈ referenceMarks)
    (hname : Name.isParameter name = true) (rest : List Char) :
    afterMarks (marks ++ (name ++ rest)) = name ++ rest := by
  obtain ⟨c, name, rfl⟩ := List.exists_cons_of_ne_nil (ne_nil_of_isParameter hname)
  have hstart := (Bool.and_eq_true_iff.mp hname).1
  have hne {d : Char} (hd : Name.isParameterStart d = false) : c ≠ d := by
    rintro rfl
    rw [hd] at hstart
    cases hstart
  have hbrace : c ≠ '\x7b' := hne (by decide)
  have hhash : c ≠ '#' := hne (by decide)
  have hbang : c ≠ '!' := hne (by decide)
  simp only [referenceMarks, List.mem_cons, List.not_mem_nil, or_false] at hmarks
  rcases hmarks with rfl | rfl | rfl | rfl <;> simp [afterMarks, hbrace, hhash, hbang]

theorem startsWithReference_iff {name : List Char} :
    StartsWithReference s name ↔ (referenceAfterDollar s).1 = some name := by
  rw [referenceAfterDollar_eq, Option.map_eq_some_iff]
  constructor
  · rintro ⟨hname, marks, hmarks, after, rfl, hafter⟩
    rw [afterMarks_append hmarks hname]
    exact ⟨(name, after), nameAt?_eq_some_iff.mpr ⟨rfl, hname, hafter⟩, rfl⟩
  · rintro ⟨⟨_, after⟩, hsome, rfl⟩
    obtain ⟨heq, hname, hafter⟩ := nameAt?_eq_some_iff.mp hsome
    obtain ⟨marks, hmarks, hs⟩ := exists_marks s
    exact ⟨hname, marks, hmarks, after, heq ▸ hs, hafter⟩

/-- What a reference takes up has no dollar sign. -/
theorem exists_skipped (s : List Char) :
    ∃ skipped, s = skipped ++ (referenceAfterDollar s).2 ∧ '$' ∉ skipped := by
  obtain ⟨marks, hmarks, hs⟩ := exists_marks s
  have hnot : '$' ∉ marks := by
    have hall : ∀ marks ∈ referenceMarks, '$' ∉ marks := by decide
    exact hall marks hmarks
  rw [referenceAfterDollar_eq]
  cases hname : nameAt? (afterMarks s) with
  | none => exact ⟨marks, hs, hnot⟩
  | some found =>
    obtain ⟨name, rest⟩ := found
    obtain ⟨heq, hparameter, -⟩ := nameAt?_eq_some_iff.mp hname
    refine ⟨marks ++ name, ?_, fun hmem => ?_⟩
    · rw [List.append_assoc]
      exact heq ▸ hs
    · exact (List.mem_append.mp hmem).elim hnot
        (notMem_of_isParameterPart hparameter (by decide))

/-! ## Before a closing quote -/

theorem isWordChar_quote : isWordChar '"' = false := by
  rw [isWordChar_eq (by decide)]
  decide

theorem nameAt?_append_quote (s : List Char) :
    nameAt? (s ++ ['"']) = (nameAt? s).map fun (name, rest) => (name, rest ++ ['"']) := by
  have hquote : Name.isParameterPart '"' = false := by decide
  unfold nameAt?
  dsimp only
  rw [takeWhile_append_cons hquote, dropWhile_append_cons hquote]
  split <;> rfl

theorem afterMarks_append_quote (s : List Char) :
    afterMarks (s ++ ['"']) = afterMarks s ++ ['"'] := by
  fun_cases afterMarks s with
  | case1 rest => rfl
  | case2 rest => rfl
  | case3 rest hhash hbang =>
    cases rest with
    | nil => rfl
    | cons c rest => simp_all [afterMarks]
  | case4 s hhash hbang hbrace =>
    cases s with
    | nil => rfl
    | cons c s => simp_all [afterMarks]

theorem referenceAfterDollar_append_quote (s : List Char) : referenceAfterDollar (s ++ ['"']) =
    ((referenceAfterDollar s).1, (referenceAfterDollar s).2 ++ ['"']) := by
  rw [referenceAfterDollar_eq, referenceAfterDollar_eq, afterMarks_append_quote,
    nameAt?_append_quote]
  cases nameAt? (afterMarks s) <;> rfl

/-- **What a text in double quotes refers to** is found up to the closing quote. -/
theorem mem_referencedFrom_iff {fuel : Nat} {previous : Option Char} (hfuel : s.length < fuel)
    (hs : ∀ c ∈ s, c ≠ '"' ∧ c ≠ '\\') (n : String) :
    n ∈ referencedFrom fuel previous true (s ++ ['"']) ↔ Refers s n.toList := by
  induction fuel generalizing s previous with
  | zero => exact absurd hfuel (Nat.not_lt_zero _)
  | succ fuel ih =>
    cases s with
    | nil =>
      have hnone : referencedFrom (fuel + 1) previous true ([] ++ ['"']) = [] := by
        show referencedFrom fuel (some '"') false [] = []
        cases fuel <;> rfl
      rw [hnone]
      refine iff_of_false List.not_mem_nil ?_
      rintro ⟨before, after, heq, -⟩
      exact absurd (congrArg List.length heq) (by simp)
    | cons c s =>
      obtain ⟨⟨hquote, hescape⟩, hrest⟩ := List.forall_mem_cons.mp hs
      have hlength : s.length < fuel := Nat.lt_of_succ_lt_succ hfuel
      rw [List.cons_append, referencedFrom, if_neg hescape, if_neg (by simp), if_neg hquote,
        if_neg (by simp)]
      split
      next hdollar =>
        subst hdollar
        obtain ⟨skipped, heq, hskipped⟩ := exists_skipped s
        have hshorter : (referenceAfterDollar s).2.length ≤ s.length := by
          have := congrArg List.length heq
          rw [List.length_append] at this
          omega
        have hbehind : ∀ c ∈ (referenceAfterDollar s).2, c ≠ '"' ∧ c ≠ '\\' := by
          intro c hc
          refine hrest c ?_
          rw [heq]
          exact List.mem_append_right _ hc
        have hlater (previous : Option Char) :
            n ∈ referencedFrom fuel previous true ((referenceAfterDollar s).2 ++ ['"']) ↔
              Refers s n.toList := by
          rw [ih (Nat.lt_of_le_of_lt hshorter hlength) hbehind, ← refers_append_iff hskipped, ← heq]
        rw [refers_dollar_iff, startsWithReference_iff, referenceAfterDollar_append_quote]
        dsimp only
        cases (referenceAfterDollar s).1 with
        | none => simp [hlater]
        | some name => simp [hlater, ← String.toList_inj, eq_comm]
      next hdollar =>
        have hnot : '$' ∉ [c] := by simpa using fun h => hdollar h.symm
        rw [ih hlength hrest]
        exact (refers_append_iff hnot).symm

/-! ## Loops and read commands -/

/-- The names bound by the loops and read commands of a text. -/
def boundNames (s : List Char) : List String :=
  boundFrom (s.length + 1) false s

theorem dropStart?_append_quote {start : List Char} (h : '"' ∉ start) (s : List Char) :
    dropStart? start (s ++ ['"']) = (dropStart? start s).map (· ++ ['"']) := by
  induction start generalizing s with
  | nil => rfl
  | cons c start ih =>
    obtain ⟨hc, hstart⟩ := List.ne_and_not_mem_of_not_mem_cons h
    cases s with
    | nil =>
      show (if c = '"' then _ else none) = none
      rw [if_neg (Ne.symm hc)]
    | cons d s =>
      show (if c = d then dropStart? start (s ++ ['"']) else none) =
        (if c = d then dropStart? start s else none).map _
      rw [ih hstart]
      split <;> rfl

theorem afterBlanks?_append_quote (s : List Char) :
    afterBlanks? (s ++ ['"']) = (afterBlanks? s).map (· ++ ['"']) := by
  have hquote : isBlank '"' = false := by decide
  cases s with
  | nil => simp [afterBlanks?, hquote]
  | cons c s =>
    rw [List.cons_append, afterBlanks?, afterBlanks?, trimStart, dropWhile_append_cons hquote]
    split <;> rfl

theorem afterOptions_append_quote {fuel fuel' : Nat} (h : s.length ≤ fuel)
    (h' : s.length ≤ fuel') : afterOptions fuel' (s ++ ['"']) = afterOptions fuel s ++ ['"'] := by
  have hquote := isWordChar_quote
  induction fuel generalizing s fuel' with
  | zero =>
    obtain rfl := List.length_eq_zero_iff.mp (Nat.le_zero.mp h)
    cases fuel' <;> rfl
  | succ fuel ih =>
    cases s with
    | nil => cases fuel' <;> rfl
    | cons c s =>
      cases fuel' with
      | zero => exact absurd h' (by simp)
      | succ fuel' =>
        by_cases hc : c = '-'
        · subst hc
          rw [List.cons_append, afterOptions, afterOptions, takeWhile_append_cons hquote,
            dropWhile_append_cons hquote, afterBlanks?_append_quote]
          split
          next => rfl
          next =>
            cases hafter : afterBlanks? (s.dropWhile isWordChar) with
            | none => rfl
            | some after =>
              obtain ⟨g, hg, -⟩ := exists_of_afterBlanks? hafter
              have hle : after.length ≤ s.length := by
                have := (List.dropWhile_sublist isWordChar (l := s)).length_le
                rw [hg, List.length_append] at this
                omega
              exact ih (hle.trans (Nat.le_of_succ_le_succ h))
                (hle.trans (Nat.le_of_succ_le_succ h'))
        · rw [List.cons_append, afterOptions, afterOptions]
          · rfl
          all_goals simp [hc]

theorem afterWord_append_quote {word : List Char} (h : '"' ∉ word) (s : List Char) :
    (dropStart? word (s ++ ['"'])).bind afterBlanks? =
      ((dropStart? word s).bind afterBlanks?).map (· ++ ['"']) := by
  rw [dropStart?_append_quote h]
  cases dropStart? word s with
  | none => rfl
  | some rest => exact afterBlanks?_append_quote rest

theorem wordEndsBefore_append_quote (s : List Char) :
    wordEndsBefore (s ++ ['"']) = wordEndsBefore s := by
  have hquote := isWordChar_quote
  cases s with
  | nil => simp [wordEndsBefore, hquote]
  | cons c s => rfl

theorem boundAt?_append_quote (s : List Char) :
    boundAt? (s ++ ['"']) = (boundAt? s).map fun (name, rest) => (name, rest ++ ['"']) := by
  unfold boundAt?
  rw [afterWord_append_quote (by decide), afterWord_append_quote (by decide)]
  cases (dropStart? "for".toList s).bind afterBlanks? with
  | none =>
    cases (dropStart? "read".toList s).bind afterBlanks? with
    | none => rfl
    | some afterRead =>
      show nameAt? (afterOptions _ (afterRead ++ ['"'])) = (nameAt? (afterOptions _ afterRead)).map _
      rw [afterOptions_append_quote (Nat.le_refl _) (by simp), nameAt?_append_quote]
  | some afterFor =>
    show ((nameAt? (afterFor ++ ['"'])).bind fun (name, rest) => (afterBlanks? rest).bind fun rest =>
      (dropStart? "in".toList rest).bind fun rest =>
        if wordEndsBefore rest then some (name, rest) else none) = Option.map _
      ((nameAt? afterFor).bind fun (name, rest) => (afterBlanks? rest).bind fun rest =>
        (dropStart? "in".toList rest).bind fun rest =>
          if wordEndsBefore rest then some (name, rest) else none)
    rw [nameAt?_append_quote]
    cases nameAt? afterFor with
    | none => rfl
    | some found =>
      obtain ⟨name, rest⟩ := found
      simp only [Option.map_some, Option.bind_some, afterBlanks?_append_quote]
      cases afterBlanks? rest with
      | none => rfl
      | some rest =>
        have hin : '"' ∉ "in".toList := by decide
        simp only [Option.map_some, Option.bind_some, dropStart?_append_quote hin]
        cases dropStart? "in".toList rest with
        | none => rfl
        | some rest =>
          simp only [Option.map_some, Option.bind_some, wordEndsBefore_append_quote]
          split <;> rfl

/-- What a loop or a read command binds stands behind the word that it starts with. -/
theorem exists_of_boundAt? {name : List Char} (h : boundAt? s = some (name, rest)) :
    ∃ word ∈ ["for".toList, "read".toList], ∃ between skipped,
      s = word ++ (between ++ (name ++ (skipped ++ rest))) := by
  unfold boundAt? at h
  split at h
  next afterFor hfor =>
    obtain ⟨behind, hbehind, hblanks⟩ := Option.bind_eq_some_iff.mp hfor
    obtain ⟨g, rfl, -⟩ := exists_of_afterBlanks? hblanks
    obtain ⟨⟨name', rest₁⟩, hname, h⟩ := Option.bind_eq_some_iff.mp h
    obtain ⟨rest₂, hrest₂, h⟩ := Option.bind_eq_some_iff.mp h
    obtain ⟨rest₃, hrest₃, h⟩ := Option.bind_eq_some_iff.mp h
    split at h
    next =>
      cases h
      obtain ⟨rfl, -⟩ := nameAt?_eq_some_iff.mp hname
      obtain ⟨g', rfl, -⟩ := exists_of_afterBlanks? hrest₂
      rw [dropStart?_eq_some_iff.mp hbehind, dropStart?_eq_some_iff.mp hrest₃]
      exact ⟨_, List.mem_cons_self, g, g' ++ "in".toList, by rw [List.append_assoc]⟩
    next => cases h
  next =>
    obtain ⟨afterRead, hread, h⟩ := Option.bind_eq_some_iff.mp h
    obtain ⟨behind, hbehind, hblanks⟩ := Option.bind_eq_some_iff.mp hread
    obtain ⟨g, rfl, -⟩ := exists_of_afterBlanks? hblanks
    obtain ⟨options, hoptions, -⟩ := exists_of_afterOptions afterRead.length afterRead
    obtain ⟨heq, -⟩ := nameAt?_eq_some_iff.mp h
    refine ⟨_, List.mem_cons_of_mem _ List.mem_cons_self, g ++ options, [], ?_⟩
    rw [dropStart?_eq_some_iff.mp hbehind, List.append_assoc, List.nil_append, ← heq, ← hoptions]

theorem length_lt_of_boundAt? {name : List Char} (h : boundAt? s = some (name, rest)) :
    rest.length < s.length := by
  obtain ⟨word, hword, between, skipped, rfl⟩ := exists_of_boundAt? h
  have hpos : ∀ word ∈ ["for".toList, "read".toList], 0 < word.length := by decide
  have := hpos word hword
  simp only [List.length_append]
  omega

theorem boundFrom_succ (fuel : Nat) (inWord : Bool) (s : List Char) :
    boundFrom (fuel + 1) inWord s =
      match if inWord then none else boundAt? s with
      | some (name, rest) => .ofList name :: boundFrom fuel true rest
      | none =>
        match s with
        | [] => []
        | c :: rest => boundFrom fuel (isWordChar c) rest :=
  rfl

/-- A closing quote behind the text binds nothing and hides nothing. -/
theorem boundFrom_append_quote {fuel fuel' : Nat} (h : s.length < fuel)
    (h' : s.length + 1 < fuel') (inWord : Bool) :
    boundFrom fuel' inWord (s ++ ['"']) = boundFrom fuel inWord s := by
  induction fuel generalizing s fuel' inWord with
  | zero => exact absurd h (Nat.not_lt_zero _)
  | succ fuel ih =>
    obtain ⟨fuel', rfl⟩ : ∃ n, fuel' = n + 1 := Nat.exists_eq_succ_of_ne_zero (by omega)
    have hhere : (if inWord then none else boundAt? (s ++ ['"'])) =
        (if inWord then none else boundAt? s).map fun (name, rest) => (name, rest ++ ['"']) := by
      rw [boundAt?_append_quote]
      split <;> rfl
    rw [boundFrom_succ, boundFrom_succ, hhere]
    cases hfound : (if inWord then none else boundAt? s) with
    | some found =>
      obtain ⟨name, rest⟩ := found
      have hlt : rest.length < s.length := by
        split at hfound
        next => cases hfound
        next => exact length_lt_of_boundAt? hfound
      exact congrArg (_ :: ·) (ih (by omega) (by omega) true)
    | none =>
      cases s with
      | nil =>
        have hquote : boundAt? [] = none := by decide
        obtain ⟨fuel', rfl⟩ : ∃ n, fuel' = n + 1 := Nat.exists_eq_succ_of_ne_zero (by omega)
        show boundFrom (fuel' + 1) (isWordChar '"') [] = []
        rw [boundFrom_succ, hquote, ite_self]
      | cons c s => exact ih (Nat.lt_of_succ_lt_succ h) (Nat.lt_of_succ_lt_succ h') _

/-- Where neither of the two words starts, nothing is bound. -/
theorem boundFrom_append {fuel : Nat} {inWord : Bool} {lead : List Char}
    (hlead : ∀ d ∈ lead ++ [c], d ≠ 'f' ∧ d ≠ 'r') (s : List Char) :
    boundFrom (fuel + lead.length + 1) inWord (lead ++ c :: s) =
      boundFrom fuel (isWordChar c) s := by
  have hstep {fuel : Nat} {inWord : Bool} {d : Char} {s : List Char} (hd : d ≠ 'f' ∧ d ≠ 'r') :
      boundFrom (fuel + 1) inWord (d :: s) = boundFrom fuel (isWordChar d) s := by
    have hnone : boundAt? (d :: s) = none := by
      cases hfound : boundAt? (d :: s) with
      | none => rfl
      | some found =>
        obtain ⟨word, hword, between, skipped, heq⟩ := exists_of_boundAt? hfound
        simp only [List.mem_cons, List.not_mem_nil, or_false] at hword
        rcases hword with rfl | rfl
        · exact absurd (List.cons.inj heq).1 hd.1
        · exact absurd (List.cons.inj heq).1 hd.2
    rw [boundFrom_succ, hnone, ite_self]
  induction lead generalizing inWord with
  | nil => exact hstep (hlead c List.mem_cons_self)
  | cons d lead ih =>
    obtain ⟨hd, hlead⟩ := List.forall_mem_cons.mp hlead
    exact (hstep hd).trans (ih hlead)

theorem exists_of_mem_boundFrom {fuel : Nat} {inWord : Bool} {n : String}
    (h : n ∈ boundFrom fuel inWord s) : ∃ word ∈ ["for".toList, "read".toList], ∃ between,
      word ++ (between ++ n.toList) <:+: s := by
  induction fuel generalizing s inWord with
  | zero => cases h
  | succ fuel ih =>
    rw [boundFrom_succ] at h
    split at h
    next name rest hfound =>
      have hfound : boundAt? s = some (name, rest) := by
        split at hfound
        next => cases hfound
        next => exact hfound
      obtain ⟨word, hword, between, skipped, rfl⟩ := exists_of_boundAt? hfound
      rcases List.mem_cons.mp h with rfl | h
      · refine ⟨word, hword, between, [], skipped ++ rest, ?_⟩
        simp only [String.toList_ofList, List.nil_append, List.append_assoc]
      · obtain ⟨word', hword', between', hinfix⟩ := ih h
        refine ⟨word', hword', between', hinfix.trans (List.IsSuffix.isInfix ?_)⟩
        refine ⟨word ++ (between ++ (name ++ skipped)), ?_⟩
        simp only [List.append_assoc]
    next =>
      split at h
      next => cases h
      next _ c rest _ =>
        obtain ⟨word, hword, between, hinfix⟩ := ih h
        exact ⟨word, hword, between, hinfix.trans (List.suffix_cons c rest).isInfix⟩

/-! ## The script that echoes a text -/

/-- The script that echoes the text, which stands in double quotes. -/
def echoing (text : String) : String :=
  "echo \"" ++ text ++ "\""

theorem toList_echo (text : String) :
    (echoing text).toList = "echo \"".toList ++ (text.toList ++ ['"']) := by
  simp [echoing]

/-- Behind a text without an equals sign and a quote, what ends at an equals sign and has no quote
starts behind that quote. -/
theorem exists_between {lead name : List Char} (hlead : '=' ∉ lead) (hquote : '"' ∉ name)
    (hne : name ≠ []) (h : lead ++ ['"'] ++ s = before ++ (name ++ '=' :: after)) :
    ∃ between, before = lead ++ ['"'] ++ between ∧ s = between ++ (name ++ '=' :: after) := by
  rcases List.append_eq_append_iff.mp h with hbetween | ⟨crossing, hends, hs⟩
  · exact hbetween
  · have hmem (hne : crossing ≠ []) : '"' ∈ crossing := by
      have hlast := congrArg List.getLast? hends
      rw [List.getLast?_append_of_ne_nil _ hne, List.getLast?_concat] at hlast
      exact List.mem_of_getLast? hlast.symm
    rcases List.append_eq_append_iff.mp hs with ⟨more, rfl, hafter⟩ | ⟨more, rfl, hs⟩
    · cases more with
      | nil =>
        rw [List.append_nil] at hmem
        exact absurd (hmem hne) hquote
      | cons c more =>
        obtain ⟨rfl, -⟩ := List.cons.inj hafter
        have hequals : '=' ∈ lead ++ ['"'] := by simp [hends]
        simp [hlead] at hequals
    · by_cases hnil : crossing = []
      · subst hnil
        exact ⟨[], hends ▸ (List.append_nil _).symm ▸ (List.append_nil _).symm, hs.symm⟩
      · exact absurd (List.mem_append_left _ (hmem hnil)) hquote

/-- No assignment goes across an opening quote. -/
theorem assignsFrom_append_quote_iff {lead name : List Char} {atLineStart : Bool}
    (hlead : '=' ∉ lead) :
    AssignsFrom atLineStart (lead ++ '"' :: s) name ↔ AssignsFrom false s name := by
  rw [List.append_cons]
  constructor
  · rintro ⟨hname, before, after, heq, hstarts⟩
    obtain ⟨between, rfl, hs⟩ := exists_between hlead
      (notMem_of_isParameterPart hname (by decide)) (ne_nil_of_isParameter hname) heq
    refine ⟨hname, between, after, hs, ?_⟩
    rcases hstarts with ⟨hnil, -⟩ | ⟨c, hc, hseparates⟩
    · exact absurd hnil (by simp)
    · cases between with
      | nil =>
        rw [List.append_nil, List.getLast?_concat] at hc
        obtain rfl := Option.some.inj hc
        exact absurd hseparates (by decide)
      | cons d between =>
        rw [List.getLast?_append_of_ne_nil _ (List.cons_ne_nil _ _)] at hc
        exact .inr ⟨c, hc, hseparates⟩
  · rintro ⟨hname, before, after, rfl, hstarts⟩
    refine ⟨hname, lead ++ ['"'] ++ before, after, (List.append_assoc _ _ _).symm, ?_⟩
    rcases hstarts with ⟨-, hfalse⟩ | ⟨c, hc, hseparates⟩
    · cases hfalse
    · refine .inr ⟨c, ?_, hseparates⟩
      rw [List.getLast?_append, Option.mem_def.mp hc]
      rfl

theorem assignsFrom_append_singleton_iff {name : List Char} {atLineStart : Bool} (hc : c ≠ '=') :
    AssignsFrom atLineStart (s ++ [c]) name ↔ AssignsFrom atLineStart s name := by
  constructor
  · rintro ⟨hname, before, after, heq, hstarts⟩
    refine ⟨hname, before, ?_⟩
    rcases List.eq_nil_or_concat after with rfl | ⟨after, d, rfl⟩
    · have hlast := congrArg List.getLast? heq
      simp [hc] at hlast
    · refine ⟨after, ?_, hstarts⟩
      have heq : s ++ [c] = before ++ (name ++ '=' :: after) ++ [d] := by simpa using heq
      exact (List.append_inj' heq rfl).1
  · rintro ⟨hname, before, after, rfl, hstarts⟩
    exact ⟨hname, before, after ++ [c], by simp, hstarts⟩

theorem length_toList_echo (text : String) :
    (echoing text).toList.length = text.toList.length + 7 := by
  have hlead : "echo \"".toList.length = 6 := by decide
  rw [toList_echo, List.length_append, List.length_append, hlead, List.length_singleton]
  omega

/-- Neither the command nor the quotes assign anything. -/
theorem assignsFrom_echo_iff (text : String) (name : List Char) :
    AssignsFrom true (echoing text).toList name ↔ AssignsFrom false text.toList name := by
  rw [toList_echo]
  show AssignsFrom true ("echo ".toList ++ '"' :: (text.toList ++ ['"'])) name ↔ _
  rw [assignsFrom_append_quote_iff (by decide), assignsFrom_append_singleton_iff (by decide)]

theorem boundFrom_echo (text : String) :
    boundFrom ((echoing text).toList.length + 1) false (echoing text).toList =
      boundNames text.toList := by
  have hquote := isWordChar_quote
  have hwords : ∀ d ∈ "echo ".toList ++ ['"'], d ≠ 'f' ∧ d ≠ 'r' := by simp
  rw [length_toList_echo, toList_echo]
  show boundFrom (text.toList.length + 2 + "echo ".toList.length + 1) false
    ("echo ".toList ++ '"' :: (text.toList ++ ['"'])) = _
  rw [boundFrom_append hwords, hquote]
  exact boundFrom_append_quote (Nat.lt_succ_self _) (Nat.lt_succ_self _) false

/-- What the script refers to is what the text refers to. -/
theorem mem_referencedFrom_echo_iff {text : String}
    (htext : ∀ c ∈ text.toList, c ≠ '"' ∧ c ≠ '\\') (name : String) :
    name ∈ referencedFrom ((echoing text).toList.length + 1) none false (echoing text).toList ↔
      Refers text.toList name.toList := by
  rw [length_toList_echo, toList_echo]
  show name ∈ referencedFrom (text.toList.length + 2) (some '"') true (text.toList ++ ['"']) ↔ _
  exact mem_referencedFrom_iff (by omega) htext name

/-- Whether a name has a small letter, so that it is none of the environment. -/
def hasSmallLetter (name : String) : Bool :=
  name.toList.any Char.isLower

/-- **What a script reads that echoes a text in double quotes.** It reads the names with a small
letter that the text refers to, but for those that the text has in the form of an assignment or
binds in the form of a loop or a read command. So it reads all that the text refers to if and only if
none of these names stands in such a form. In the form of an assignment stands a name that is right
before an equals sign and right behind a separator (`AssignsFrom`); and what is bound stands
somewhere behind the word `for` or `read`. -/
theorem freeNames_echo (text : String) (htext : ∀ c ∈ text.toList, c ≠ '"' ∧ c ≠ '\\') :
    (∀ name, name ∈ ScriptLanguage.shell.freeNames (echoing text) ↔
      (Refers text.toList name.toList ∧ hasSmallLetter name = true) ∧
        ¬AssignsFrom false text.toList name.toList ∧ name ∉ boundNames text.toList) ∧
    ((∀ name, name ∈ ScriptLanguage.shell.freeNames (echoing text) ↔
        Refers text.toList name.toList ∧ hasSmallLetter name = true) ↔
      ∀ name, Refers text.toList name.toList → hasSmallLetter name = true →
        ¬AssignsFrom false text.toList name.toList ∧ name ∉ boundNames text.toList) ∧
    ∀ name ∈ boundNames text.toList, ∃ word ∈ ["for".toList, "read".toList], ∃ between,
      word ++ (between ++ name.toList) <:+: text.toList := by
  have hmem : ∀ name, name ∈ ScriptLanguage.shell.freeNames (echoing text) ↔
      (Refers text.toList name.toList ∧ hasSmallLetter name = true) ∧
        ¬AssignsFrom false text.toList name.toList ∧ name ∉ boundNames text.toList := by
    intro name
    show name ∈ freeNames (echoing text).toList ↔ _
    rw [freeNames, NameSet.mem_diff, NameSet.mem_filter, NameSet.mem_ofList,
      mem_referencedFrom_echo_iff htext, assignedNames, NameSet.mem_union, NameSet.mem_ofList,
      NameSet.mem_ofList, mem_assignedFrom_iff (Nat.lt_succ_self _), assignsFrom_echo_iff,
      boundFrom_echo, not_or]
    rfl
  refine ⟨hmem, ?_, fun name hname => exists_of_mem_boundFrom hname⟩
  constructor
  · intro hall name hrefers hsmall
    exact ((hmem name).mp ((hall name).mpr ⟨hrefers, hsmall⟩)).2
  · intro hnone name
    rw [hmem]
    exact and_iff_left_of_imp fun h => hnone name h.1 h.2

/-- A greeting is read as it should be; a name that the text has behind a space and before an equals
sign is not read. -/
theorem quoted_equation_is_hidden :
    (∀ name, name ∈ ScriptLanguage.shell.freeNames (echoing "Dear ${guest}!") ↔
      Refers "Dear ${guest}!".toList name.toList ∧ hasSmallLetter name = true) ∧
    (Refers " name=x $name".toList "name".toList ∧ hasSmallLetter "name" = true ∧
      "name" ∉ ScriptLanguage.shell.freeNames (echoing " name=x $name")) := by
  constructor
  · refine (freeNames_echo "Dear ${guest}!" (by simp)).2.1.mpr fun name _ _ => ⟨?_, ?_⟩
    · rintro ⟨-, before, after, heq, -⟩
      have hequals : '=' ∉ "Dear ${guest}!".toList := by decide
      rw [heq] at hequals
      simp at hequals
    · have hnone : boundNames "Dear ${guest}!".toList = [] := by decide +kernel
      rw [hnone]
      exact List.not_mem_nil
  · have hname : Name.isParameter "name".toList = true := by decide
    refine ⟨⟨" name=x ".toList, "name".toList, rfl, hname, [], by decide, [], rfl, by simp⟩,
      by decide, fun hmem => ?_⟩
    have hread := ((freeNames_echo " name=x $name" (by simp)).1 "name").mp hmem
    exact hread.2.1 ⟨hname, [' '], "x $name".toList, rfl, .inr ⟨' ', rfl, by decide⟩⟩

end PromptPipeline.Shell
