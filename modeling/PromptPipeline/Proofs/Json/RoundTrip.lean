import Mathlib.Tactic.SplitIfs
import PromptPipeline.Proofs.Json.Layout

/-!
# Reading what was written

A JSON value that is written in any layout is read back as it was (`readValue_chars`), if each of
its numbers is, and if it is not nested too deep; so a text on several lines is read back
(`read?_pretty`). An object is read back in front of anything at all, for its closing brace tells
where it ends, and so its text cannot be continued to the text of another one
(`eq_of_compact_isPrefix`).

Numbers are where this may fail: one that is not finite is written as `null`, and reading rounds
twice. So a number has to survive by itself (`Number.Survives`), which natural numbers below
`2 ^ 64` do.
-/

namespace PromptPipeline.Json

open Decimal

variable {s rest r : List Char} {fuel depth level : Nat} {n : Number} {L : Layout}

/-! ## White space -/

theorem skipSpace_line (L : Layout) (level : Nat) (s : List Char) :
    skipSpace (L.line level ++ s) = skipSpace s :=
  List.dropWhile_append_of_pos (L.line_blank level)

theorem skipSpace_gap (L : Layout) (s : List Char) : skipSpace (L.gap ++ s) = skipSpace s :=
  List.dropWhile_append_of_pos L.gap_blank

theorem skipSpace_cons {c : Char} (h : isSpace c = false) : skipSpace (c :: s) = c :: s := by
  unfold skipSpace
  rw [List.dropWhile_cons_of_neg (by simp [h])]

@[simp]
theorem skipSpace_skipSpace (s : List Char) : skipSpace (skipSpace s) = skipSpace s := by
  cases h : skipSpace s with
  | nil => rfl
  | cons c t =>
    refine skipSpace_cons ?_
    have hhead := List.head?_dropWhile_not isSpace s
    rw [show s.dropWhile isSpace = c :: t from h] at hhead
    simpa using hhead

/-! ## Numbers -/

/-- No number goes on with this text. -/
def Stops (rest : List Char) : Prop :=
  ∀ c ∈ rest.head?, c.isDigit = false ∧ c ≠ '.' ∧ c ≠ 'e' ∧ c ≠ 'E'

theorem stops_nil : Stops [] :=
  fun _ h => nomatch h

theorem stops_comma (rest : List Char) : Stops (',' :: rest) := by
  rintro c ⟨⟩
  decide

theorem stops_closing {c : Char} (h : c = ']' ∨ c = '\x7d') (rest : List Char) :
    Stops (c :: rest) := by
  intro d hd
  obtain rfl : c = d := Option.some.inj hd
  rcases h with rfl | rfl <;> decide

/-- White space is no part of a number. -/
theorem stops_line (L : Layout) (level : Nat) (h : Stops rest) : Stops (L.line level ++ rest) := by
  cases hline : L.line level with
  | nil => exact h
  | cons c t =>
    intro d hd
    obtain rfl : c = d := Option.some.inj hd
    have hspace : isSpace c = true := L.line_blank level c (hline ▸ List.mem_cons_self)
    simp only [isSpace, Bool.or_eq_true, beq_iff_eq] at hspace
    rcases hspace with ((rfl | rfl) | rfl) | rfl <;> decide

theorem takeDigits_append (h : Stops rest) (s : List Char) :
    takeDigits (s ++ rest) = ((takeDigits s).1, (takeDigits s).2 ++ rest) := by
  unfold takeDigits
  induction s with
  | nil =>
    cases rest with
    | nil => rfl
    | cons c rest => simp [(h c rfl).1]
  | cons d s ih =>
    cases hd : d.isDigit with
    | true => simpa [hd] using ih
    | false => simp [hd]

theorem readFraction_of_ne {c : Char} (h : c ≠ '.') :
    readFraction (c :: s) = some ([], c :: s) := by
  unfold readFraction
  split
  next heq => exact absurd (List.cons.inj heq).1 h
  next => rfl

theorem readFraction_append (h : Stops rest) {ds : List Char} (hs : readFraction s = some (ds, r)) :
    readFraction (s ++ rest) = some (ds, r ++ rest) := by
  cases s with
  | nil =>
    cases hs
    cases rest with
    | nil => rfl
    | cons c rest => exact readFraction_of_ne (h c rfl).2.1
  | cons c s =>
    by_cases hc : c = '.'
    · subst hc
      unfold readFraction at hs ⊢
      simp only [List.cons_append, takeDigits_append h] at hs ⊢
      generalize takeDigits s = read at hs ⊢
      obtain ⟨_ | ⟨d, ds'⟩, r'⟩ := read
      · cases hs
      · cases hs
        rfl
    · rw [readFraction_of_ne hc] at hs
      cases hs
      exact readFraction_of_ne hc

/-- The sign of an exponent, which may be missing, and what comes after it. -/
def splitSign : List Char → Bool × List Char
  | '+' :: rest => (true, rest)
  | '-' :: rest => (false, rest)
  | rest => (true, rest)

theorem splitSign_append (h : s ≠ []) (rest : List Char) :
    splitSign (s ++ rest) = ((splitSign s).1, (splitSign s).2 ++ rest) := by
  obtain ⟨c, s, rfl⟩ := List.exists_cons_of_ne_nil h
  by_cases hplus : c = '+'
  · subst hplus
    rfl
  · by_cases hminus : c = '-'
    · subst hminus
      rfl
    · have hsplit (t : List Char) : splitSign (c :: t) = (true, c :: t) := by
        unfold splitSign
        split
        next heq => exact absurd (List.cons.inj heq).1 hplus
        next heq => exact absurd (List.cons.inj heq).1 hminus
        next => rfl
      rw [List.cons_append, hsplit, hsplit]
      rfl

/-- What is left of an exponent after its mark. -/
theorem readExponent_of_mark {c : Char} (h : c = 'e' ∨ c = 'E') :
    readExponent (c :: s) =
      match takeDigits (splitSign s).2 with
      | ([], _) => none
      | (ds, r) => some (some ((splitSign s).1, ds), r) :=
  if_pos h

theorem readExponent_of_not_mark {c : Char} (h : ¬(c = 'e' ∨ c = 'E')) :
    readExponent (c :: s) = some (none, c :: s) :=
  if_neg h

theorem readExponent_append (h : Stops rest) {e : Option (Bool × List Char)}
    (hs : readExponent s = some (e, r)) : readExponent (s ++ rest) = some (e, r ++ rest) := by
  cases s with
  | nil =>
    cases hs
    cases rest with
    | nil => rfl
    | cons c rest => exact readExponent_of_not_mark (not_or.mpr (h c rfl).2.2)
  | cons c s =>
    rw [List.cons_append]
    by_cases hmark : c = 'e' ∨ c = 'E'
    · have hne : s ≠ [] := by
        rintro rfl
        rw [readExponent_of_mark hmark] at hs
        cases hs
      rw [readExponent_of_mark hmark] at hs ⊢
      rw [splitSign_append hne, takeDigits_append h]
      generalize takeDigits (splitSign s).2 = read at hs ⊢
      obtain ⟨_ | ⟨d, ds⟩, r'⟩ := read
      · cases hs
      · cases hs
        rfl
    · rw [readExponent_of_not_mark hmark] at hs ⊢
      cases hs
      rfl

/-- The sign of a number, which is a minus or missing, and what comes after it. -/
def splitMinus : List Char → Bool × List Char
  | '-' :: rest => (true, rest)
  | rest => (false, rest)

theorem splitMinus_of_ne {c : Char} (h : c ≠ '-') (s : List Char) :
    splitMinus (c :: s) = (false, c :: s) := by
  unfold splitMinus
  split
  next heq => exact absurd (List.cons.inj heq).1 h
  next => rfl

theorem splitMinus_append (h : s ≠ []) (rest : List Char) :
    splitMinus (s ++ rest) = ((splitMinus s).1, (splitMinus s).2 ++ rest) := by
  obtain ⟨c, s, rfl⟩ := List.exists_cons_of_ne_nil h
  by_cases hminus : c = '-'
  · subst hminus
    rfl
  · rw [List.cons_append, splitMinus_of_ne hminus, splitMinus_of_ne hminus]
    rfl

/-- A number is a sign, digits without a needless zero, a fraction and an exponent. -/
theorem readNumber_eq_some_iff :
    readNumber s = some (n, r) ↔
      ∃ whole rest, takeDigits (splitMinus s).2 = (whole, rest) ∧
        ¬(whole = [] ∨ whole.head? = some '0' ∧ 1 < whole.length) ∧
        ∃ fraction t, readFraction rest = some (fraction, t) ∧
          ∃ exponent, readExponent t = some (exponent, r) ∧
            NumberText.number? ⟨(splitMinus s).1, whole, fraction, exponent⟩ = some n := by
  have heq : readNumber s =
      if (takeDigits (splitMinus s).2).1 = [] ∨
          (takeDigits (splitMinus s).2).1.head? = some '0' ∧
            1 < (takeDigits (splitMinus s).2).1.length then none
      else (readFraction (takeDigits (splitMinus s).2).2).bind fun read =>
        (readExponent read.2).bind fun read' =>
          (NumberText.number? ⟨(splitMinus s).1, (takeDigits (splitMinus s).2).1, read.1,
            read'.1⟩).bind fun n => some (n, read'.2) := rfl
  rw [heq]
  generalize takeDigits (splitMinus s).2 = taken
  obtain ⟨whole, rest⟩ := taken
  constructor
  · intro h
    split at h
    next => cases h
    next hwhole =>
      simp only [Option.bind_eq_some_iff, Prod.exists] at h
      obtain ⟨fraction, t, hfraction, exponent, r', hexponent, n', hn, heq⟩ := h
      cases heq
      exact ⟨_, _, rfl, hwhole, fraction, t, hfraction, exponent, hexponent, hn⟩
  · rintro ⟨_, _, heq, hwhole, fraction, t, hfraction, exponent, hexponent, hn⟩
    cases heq
    rw [if_neg hwhole, hfraction, Option.bind_some, hexponent, Option.bind_some, hn]
    rfl

theorem readNumber_ne_nil (h : readNumber s = some (n, r)) : s ≠ [] := by
  rintro rfl
  cases h

/-- A number is read alike in front of what cannot be part of it. -/
theorem readNumber_append (h : Stops rest) (hs : readNumber s = some (n, r)) :
    readNumber (s ++ rest) = some (n, r ++ rest) := by
  have hne := readNumber_ne_nil hs
  rw [readNumber_eq_some_iff] at hs ⊢
  rw [splitMinus_append hne, takeDigits_append h]
  obtain ⟨whole, _, heq, hwhole, fraction, t, hfraction, exponent, hexponent, hn⟩ := hs
  rw [heq]
  exact ⟨_, _, rfl, hwhole, fraction, t ++ rest, readFraction_append h hfraction, exponent,
    readExponent_append h hexponent, hn⟩

/-- A number starts with a digit or with a minus. -/
theorem exists_of_readNumber (h : readNumber s = some (n, r)) :
    ∃ c t, s = c :: t ∧ (c = '-' ∨ c.isDigit = true) := by
  obtain ⟨c, t, rfl⟩ := List.exists_cons_of_ne_nil (readNumber_ne_nil h)
  refine ⟨c, t, rfl, ?_⟩
  by_cases hminus : c = '-'
  · exact .inl hminus
  · refine .inr ?_
    obtain ⟨whole, _, heq, hwhole, -⟩ := readNumber_eq_some_iff.mp h
    rw [splitMinus_of_ne hminus] at heq
    cases hc : c.isDigit with
    | true => rfl
    | false =>
      simp only [takeDigits, List.takeWhile_cons, hc] at heq
      cases heq
      exact absurd (.inl rfl) hwhole

/-- The number is read back from its text. -/
def Number.Survives (n : Number) : Prop :=
  readNumber n.text = some (n, [])

/-! ### Natural numbers -/

theorem isDigit_of_mem_digits {k : Nat} {c : Char} (h : c ∈ digits k) : c.isDigit = true :=
  Nat.isDigit_of_mem_toDigits (by decide) (by decide) h

theorem digits_ne_nil (k : Nat) : digits k ≠ [] :=
  Nat.toDigits_ne_nil

/-- A positive number has no leading zero. -/
theorem head?_digits_ne_zero {k : Nat} (h : 0 < k) : (digits k).head? ≠ some '0' := by
  induction k using Nat.strongRecOn with
  | _ k ih =>
    unfold digits
    rw [Nat.toDigits_eq_if (by decide)]
    split
    next hlt =>
      have hall : ∀ d : Fin 10, 0 < d.val → d.val.digitChar ≠ '0' := by decide
      exact fun heq => hall ⟨k, hlt⟩ h (Option.some.inj heq)
    next hle =>
      obtain ⟨d, ds, heq⟩ := List.exists_cons_of_ne_nil (digits_ne_nil (k / 10))
      have hhead := ih (k / 10) (by omega) (by omega)
      rw [heq] at hhead
      rw [show Nat.toDigits 10 (k / 10) = d :: ds from heq]
      exact hhead

/-- A number of several digits has no leading zero. -/
theorem not_leading_zero (k : Nat) : ¬((digits k).head? = some '0' ∧ 1 < (digits k).length) := by
  rintro ⟨hhead, hlength⟩
  rcases Nat.eq_zero_or_pos k with rfl | hpos
  · exact absurd hlength (by decide)
  · exact head?_digits_ne_zero hpos hhead

theorem le_ofDigitChars (ds : List Char) (acc : Nat) : acc ≤ Nat.ofDigitChars 10 ds acc := by
  induction ds generalizing acc with
  | nil => exact Nat.le_of_eq Nat.ofDigitChars_nil.symm
  | cons d ds ih =>
    rw [Nat.ofDigitChars_cons]
    have hle := ih (10 * acc + (d.toNat - '0'.toNat))
    omega

/-- Digits are read to the end if their value fits. -/
theorem readSignificand_eq (ds : List Char) (acc : Nat)
    (h : Nat.ofDigitChars 10 ds acc ≤ maxSignificand) :
    readSignificand acc ds = (Nat.ofDigitChars 10 ds acc, []) := by
  induction ds generalizing acc with
  | nil => rw [readSignificand, Nat.ofDigitChars_nil]
  | cons d ds ih =>
    rw [Nat.ofDigitChars_cons] at h ⊢
    have hnext : acc * 10 + digitValue d = 10 * acc + (d.toNat - '0'.toNat) := by
      rw [Nat.mul_comm]
      rfl
    have hle := le_ofDigitChars ds (10 * acc + (d.toNat - '0'.toNat))
    rw [readSignificand, hnext, if_neg (by omega)]
    exact ih _ h

theorem takeDigits_digits (k : Nat) : takeDigits (digits k) = (digits k, []) := by
  have hall : ∀ c ∈ digits k, c.isDigit = true := fun c => isDigit_of_mem_digits
  have hdrop : (digits k ++ []).dropWhile Char.isDigit = [] := List.dropWhile_append_of_pos hall
  have htake : (digits k ++ []).takeWhile Char.isDigit = digits k ++ [] :=
    List.takeWhile_append_of_pos hall
  rw [List.append_nil] at hdrop htake
  rw [takeDigits, htake, hdrop]

/-- Natural numbers of 64 bits survive. -/
theorem natural_survives {k : Nat} (h : k ≤ maxSignificand) : (Number.natural k).Survives := by
  have hsign : splitMinus (digits k) = (false, digits k) := by
    obtain ⟨c, t, heq⟩ := List.exists_cons_of_ne_nil (digits_ne_nil k)
    rw [heq]
    refine splitMinus_of_ne ?_ t
    rintro rfl
    exact absurd (isDigit_of_mem_digits (k := k) (heq ▸ List.mem_cons_self)) (by decide)
  have hread : readSignificand 0 (digits k) = (k, []) := by
    have hvalue : Nat.ofDigitChars 10 (digits k) 0 = k := Nat.ofDigitChars_ten_toDigits
    rw [readSignificand_eq _ _ (by rw [hvalue]; exact h), hvalue]
  have hnumber : NumberText.number? ⟨false, digits k, [], none⟩ = some (.natural k) := by
    unfold NumberText.number?
    rw [hread]
    rfl
  show readNumber (digits k) = _
  rw [readNumber_eq_some_iff, hsign, takeDigits_digits]
  exact ⟨_, _, rfl, not_or.mpr ⟨digits_ne_nil k, not_leading_zero k⟩, [], [], rfl, none, rfl,
    hnumber⟩

/-! ## Strings -/

theorem hexValue?_hexDigit (k : Nat) : hexValue? (hexDigit k) = some (k % 16) := by
  have hall : ∀ d : Fin 16, hexValue? (Nat.digitChar d.val) = some d.val := by decide
  exact hall ⟨k % 16, Nat.mod_lt k (by decide)⟩

/-- The escape of a control character. -/
theorem readCodePoint_control {c : Char} (h : c.toNat < 0x20) (s : List Char) :
    readCodePoint ('0' :: '0' :: hexDigit (c.toNat / 16) :: hexDigit c.toNat :: s) =
      some (c, s) := by
  have hzero : hexValue? '0' = some 0 := by decide
  have hvalue : ((0 * 16 + 0) * 16 + c.toNat / 16 % 16) * 16 + c.toNat % 16 = c.toNat := by omega
  unfold readCodePoint readHex4
  simp only [hzero, hexValue?_hexDigit, Option.bind_eq_bind, Option.bind_some, hvalue]
  rw [if_neg (by omega), if_neg (by omega), Char.ofNat_toNat]

/-- One character is read back from its written form. -/
theorem readString_escapeChar (fuel : Nat) (c : Char) (s : List Char) :
    readString (fuel + 1) (escapeChar c ++ s) =
      (readString fuel s).map fun (cs, r) => (c :: cs, r) := by
  have hbind : (readString fuel s).map (fun (cs, r) => (c :: cs, r)) =
      (readString fuel s).bind fun (cs, r) => some (c :: cs, r) := by
    cases readString fuel s <;> rfl
  rw [hbind]
  unfold escapeChar
  split_ifs with hquote hbackslash hnewline hreturn htab hbackspace hfeed hcontrol
  · subst hquote; rfl
  · subst hbackslash; rfl
  · subst hnewline; rfl
  · subst hreturn; rfl
  · subst htab; rfl
  · subst hbackspace; rfl
  · subst hfeed; rfl
  · show (readCodePoint ('0' :: '0' :: hexDigit (c.toNat / 16) :: hexDigit c.toNat :: s)).bind _ = _
    rw [readCodePoint_control hcontrol]
    rfl
  · -- Any other character stands for itself.
    rw [List.singleton_append, readString]
    · rw [if_neg (not_or.mpr ⟨hcontrol, hbackslash⟩)]
      rfl
    · exact hquote
    · exact fun _ hc _ => hbackslash hc
    · exact fun _ _ hc _ => hbackslash hc

/-- A string is read back, up to its closing quote. -/
theorem readString_quoted (cs rest : List Char) (h : cs.length < fuel) :
    readString fuel (cs.flatMap escapeChar ++ '"' :: rest) = some (cs, rest) := by
  induction cs generalizing fuel with
  | nil =>
    obtain ⟨fuel, rfl⟩ := Nat.exists_eq_add_one_of_ne_zero (Nat.ne_of_gt h)
    rfl
  | cons c cs ih =>
    obtain ⟨fuel, rfl⟩ := Nat.exists_eq_add_one_of_ne_zero (Nat.ne_of_gt (Nat.zero_lt_of_lt h))
    rw [List.flatMap_cons, List.append_assoc, readString_escapeChar, ih (Nat.lt_of_succ_lt_succ h)]
    rfl

theorem length_le_flatMap_escapeChar (cs : List Char) :
    cs.length ≤ (cs.flatMap escapeChar).length := by
  induction cs with
  | nil => exact Nat.le_refl _
  | cons c cs ih =>
    have hpos : 0 < (escapeChar c).length := by
      unfold escapeChar
      split_ifs <;> exact Nat.succ_pos _
    rw [List.flatMap_cons, List.length_append, List.length_cons]
    omega

/-- A string in quotes is read back. -/
theorem readString_of_quoted (text : String) (rest : List Char) :
    ∃ t, quoted text ++ rest = '"' :: t ∧
      readString (t.length + 1) t = some (text.toList, rest) := by
  refine ⟨text.toList.flatMap escapeChar ++ '"' :: rest, by simp [quoted], ?_⟩
  have hle := length_le_flatMap_escapeChar text.toList
  refine readString_quoted _ _ ?_
  rw [List.length_append]
  omega

/-! ## Values -/

mutual

/-- Every number in the value survives, and arrays and objects are nested at most `depth` deep. -/
def ReadableAt : (depth : Nat) → Json → Prop
  | _, .null | _, .bool _ | _, .string _ => True
  | _, .number n => n.Survives
  | 0, .array _ | 0, .object _ => False
  | depth + 1, .array items => ItemsReadableAt depth items
  | depth + 1, .object members => MembersReadableAt depth members

/-- The items can be read at this depth. -/
def ItemsReadableAt : (depth : Nat) → List Json → Prop
  | _, [] => True
  | depth, item :: rest => ReadableAt depth item ∧ ItemsReadableAt depth rest

/-- The members can be read at this depth. -/
def MembersReadableAt : (depth : Nat) → List (String × Json) → Prop
  | _, [] => True
  | depth, (_, value) :: rest => ReadableAt depth value ∧ MembersReadableAt depth rest

end

/-- Whether the written form of the value is a text that reading gives back. -/
def Readable (j : Json) : Prop :=
  j.ReadableAt maxDepth

@[simp]
theorem readValue_skipSpace (fuel depth : Nat) (s : List Char) :
    readValue fuel depth (skipSpace s) = readValue fuel depth s := by
  cases fuel with
  | zero => rfl
  | succ fuel =>
    rw [readValue, readValue, skipSpace_skipSpace]

theorem readValue_line (L : Layout) (fuel depth level : Nat) (s : List Char) :
    readValue fuel depth (L.line level ++ s) = readValue fuel depth s := by
  rw [← readValue_skipSpace, skipSpace_line, readValue_skipSpace]

theorem readValue_gap (L : Layout) (fuel depth : Nat) (s : List Char) :
    readValue fuel depth (L.gap ++ s) = readValue fuel depth s := by
  rw [← readValue_skipSpace, skipSpace_gap, readValue_skipSpace]

@[simp]
theorem readItems_skipSpace (fuel depth : Nat) (s : List Char) :
    readItems fuel depth (skipSpace s) = readItems fuel depth s := by
  cases fuel with
  | zero => rfl
  | succ fuel => rw [readItems, readItems, readValue_skipSpace]

@[simp]
theorem readName_skipSpace (s : List Char) : readName (skipSpace s) = readName s := by
  unfold readName
  rw [skipSpace_skipSpace]

@[simp]
theorem readMembers_skipSpace (fuel depth : Nat) (s : List Char) :
    readMembers fuel depth (skipSpace s) = readMembers fuel depth s := by
  cases fuel with
  | zero => rfl
  | succ fuel => rw [readMembers, readMembers, readName_skipSpace]

/-- A number starts with none of the characters that other values or white space start with. -/
theorem ne_of_starts {c d : Char} (hc : c = '-' ∨ c.isDigit = true) (hdigit : d.isDigit = false)
    (hminus : d ≠ '-') : c ≠ d := by
  rintro rfl
  rcases hc with hc | hc
  · exact hminus hc
  · rw [hdigit] at hc
    cases hc

theorem isSpace_of_starts {c : Char} (hc : c = '-' ∨ c.isDigit = true) : isSpace c = false := by
  simp [isSpace, ne_of_starts hc (d := ' ') rfl (by decide),
    ne_of_starts hc (d := '\n') rfl (by decide), ne_of_starts hc (d := '\t') rfl (by decide),
    ne_of_starts hc (d := '\r') rfl (by decide)]

/-- What starts like a number is read as one. -/
theorem readValue_number (h : readNumber s = some (n, r)) :
    readValue (fuel + 1) depth s = some (.number n, r) := by
  obtain ⟨c, t, rfl, hc⟩ := exists_of_readNumber h
  rw [readValue, skipSpace_cons (isSpace_of_starts hc)]
  split
  next heq => exact absurd (List.cons.inj heq).1 (ne_of_starts hc rfl (by decide))
  next heq => exact absurd (List.cons.inj heq).1 (ne_of_starts hc rfl (by decide))
  next heq => exact absurd (List.cons.inj heq).1 (ne_of_starts hc rfl (by decide))
  next heq => exact absurd (List.cons.inj heq).1 (ne_of_starts hc rfl (by decide))
  next heq => exact absurd (List.cons.inj heq).1 (ne_of_starts hc rfl (by decide))
  next heq => exact absurd (List.cons.inj heq).1 (ne_of_starts hc rfl (by decide))
  next => rw [h, Option.map_some]

/-- After an opening bracket, items are read unless it is closed at once. -/
theorem readValue_array {c : Char} {t : List Char} (h : skipSpace s = c :: t) (hc : c ≠ ']') :
    readValue (fuel + 1) (depth + 1) ('[' :: s) =
      (readItems fuel depth s).map fun (items, r) => (.array items, r) := by
  rw [readValue, skipSpace_cons rfl]
  split
  case h_5 heq =>
    cases heq
    dsimp only
    rw [← readItems_skipSpace fuel depth s, h]
    split
    next heq => exact absurd (List.cons.inj heq).1 hc
    next => rfl
  case h_7 hnot _ => exact absurd rfl (hnot s)
  all_goals
    next heq => simp at heq

/-- After an opening brace, members are read unless it is closed at once. -/
theorem readValue_object {c : Char} {t : List Char} (h : skipSpace s = c :: t) (hc : c ≠ '\x7d') :
    readValue (fuel + 1) (depth + 1) ('\x7b' :: s) =
      (readMembers fuel depth s).map fun (members, r) => (.object members, r) := by
  rw [readValue, skipSpace_cons rfl]
  split
  case h_6 heq =>
    cases heq
    dsimp only
    rw [← readMembers_skipSpace fuel depth s, h]
    split
    next heq => exact absurd (List.cons.inj heq).1 hc
    next => rfl
  case h_7 hnot => exact absurd rfl (hnot s)
  all_goals
    next heq => simp at heq

/-- The last item is followed by the closing bracket. -/
theorem readItems_last {item : Json} {t : List Char}
    (h : readValue fuel depth s = some (item, t)) (ht : skipSpace t = ']' :: r) :
    readItems (fuel + 1) depth s = some ([item], r) := by
  rw [readItems, h]
  simp only [Option.bind_eq_bind, Option.bind_some, ht]

/-- Any other item is followed by a comma. -/
theorem readItems_comma (item : Json) {t : List Char}
    (h : readValue fuel depth s = some (item, ',' :: t)) :
    readItems (fuel + 1) depth s =
      (readItems fuel depth t).map fun (items, r) => (item :: items, r) := by
  rw [readItems, h]
  show (readItems fuel depth t).bind _ = _
  cases readItems fuel depth t <;> rfl

/-- The last member is followed by the closing brace. -/
theorem readMembers_last {name : String} {value : Json} {t u : List Char}
    (hname : readName s = some (name, t)) (h : readValue fuel depth t = some (value, u))
    (hu : skipSpace u = '\x7d' :: r) :
    readMembers (fuel + 1) depth s = some ([(name, value)], r) := by
  rw [readMembers, hname]
  simp only [Option.bind_eq_bind, Option.bind_some, h, hu]

/-- Any other member is followed by a comma. -/
theorem readMembers_comma (name : String) (value : Json) {t u : List Char}
    (hname : readName s = some (name, t))
    (h : readValue fuel depth t = some (value, ',' :: u)) :
    readMembers (fuel + 1) depth s =
      (readMembers fuel depth u).map fun (members, r) => ((name, value) :: members, r) := by
  rw [readMembers, hname]
  simp only [Option.bind_eq_bind, Option.bind_some, h]
  show (readMembers fuel depth u).bind _ = _
  cases readMembers fuel depth u <;> rfl

theorem readName_quoted (L : Layout) (level : Nat) (name : String) (s : List Char) :
    readName (L.line level ++ (quoted name ++ ':' :: s)) = some (name, s) := by
  obtain ⟨t, heq, hread⟩ := readString_of_quoted name (':' :: s)
  unfold readName
  rw [skipSpace_line, heq, skipSpace_cons rfl]
  simp only [hread, Option.bind_eq_bind, Option.bind_some]
  rw [skipSpace_cons rfl]
  simp

/-- No written form starts with white space or with a closing bracket. -/
theorem exists_of_chars {j : Json} (h : j.ReadableAt depth) (L : Layout) (level : Nat) :
    ∃ c t, L.chars level j = c :: t ∧ isSpace c = false ∧ c ≠ ']' := by
  cases j with
  | null => exact ⟨'n', _, rfl, rfl, by decide⟩
  | bool b => cases b <;> exact ⟨_, _, rfl, rfl, by decide⟩
  | number n =>
    have hsurvives : n.Survives := by cases depth <;> exact h
    obtain ⟨c, t, heq, hc⟩ := exists_of_readNumber hsurvives
    exact ⟨c, t, heq, isSpace_of_starts hc, ne_of_starts hc rfl (by decide)⟩
  | string text => exact ⟨'"', _, rfl, rfl, by decide⟩
  | array items => exact ⟨'[', _, rfl, rfl, by decide⟩
  | object members => exact ⟨'\x7b', _, rfl, rfl, by decide⟩

/-- After the opening bracket comes an item. -/
theorem exists_skipSpace_items (L : Layout) (level : Nat) {item : Json} (items : List Json)
    (rest : List Char) (h : item.ReadableAt depth) :
    ∃ c t, skipSpace (L.items level (item :: items) ++ rest) = c :: t ∧ c ≠ ']' := by
  obtain ⟨c, t, hhead, hspace, hbracket⟩ := exists_of_chars h L (level + 1)
  by_cases hlast : items = []
  · subst hlast
    rw [Layout.items, hhead, List.append_assoc, skipSpace_line]
    exact ⟨c, _, skipSpace_cons hspace, hbracket⟩
  · rw [L.items_cons _ _ hlast, hhead, List.append_assoc, skipSpace_line]
    exact ⟨c, _, skipSpace_cons hspace, hbracket⟩

/-- After the opening brace comes a name. -/
theorem exists_skipSpace_members (L : Layout) (level : Nat) (member : String × Json)
    (members : List (String × Json)) (rest : List Char) :
    ∃ t, skipSpace (L.members level (member :: members) ++ rest) = '"' :: t := by
  obtain ⟨name, value⟩ := member
  by_cases hlast : members = []
  · subst hlast
    rw [Layout.members, List.append_assoc, skipSpace_line]
    exact ⟨_, skipSpace_cons rfl⟩
  · rw [L.members_cons _ _ _ hlast, List.append_assoc, skipSpace_line]
    exact ⟨_, skipSpace_cons rfl⟩

/-- An object is read back if its members are. -/
theorem readValue_object_of_members {members : List (String × Json)}
    (h : members ≠ [] → readMembers fuel depth (L.members level members ++ rest) =
      some (members, rest)) :
    readValue (fuel + 1) (depth + 1) (L.chars level (.object members) ++ rest) =
      some (.object members, rest) := by
  cases members with
  | nil => rfl
  | cons member members =>
    obtain ⟨t, hhead⟩ := exists_skipSpace_members L level member members rest
    show readValue _ _ ('\x7b' :: (L.members level (member :: members) ++ rest)) = _
    rw [readValue_object hhead (by decide), h (List.cons_ne_nil _ _), Option.map_some]

-- The induction is on the value. Each step of the reader takes one unit of fuel and at least one
-- character, so that the length of what was written is fuel enough.
mutual

/-- A value is read back from its written form, in front of what cannot be part of a number. -/
theorem readValue_chars (L : Layout) (j : Json) {fuel depth level : Nat} {rest : List Char}
    (hj : j.ReadableAt depth) (hfuel : (L.chars level j).length ≤ fuel) (hrest : Stops rest) :
    readValue fuel depth (L.chars level j ++ rest) = some (j, rest) := by
  obtain ⟨c, t, hhead, hspace, -⟩ := exists_of_chars hj L level
  obtain ⟨fuel, rfl⟩ : ∃ fuel', fuel = fuel' + 1 := by
    rw [hhead] at hfuel
    exact Nat.exists_eq_add_one_of_ne_zero (Nat.ne_of_gt (Nat.zero_lt_of_lt hfuel))
  cases j with
  | null => rfl
  | bool b => cases b <;> rfl
  | number n =>
    have hsurvives : n.Survives := by cases depth <;> exact hj
    exact readValue_number (readNumber_append hrest hsurvives)
  | string text =>
    obtain ⟨t, heq, hread⟩ := readString_of_quoted text rest
    show readValue _ _ (quoted text ++ rest) = _
    rw [heq, readValue, skipSpace_cons rfl]
    simp [hread]
  | array items =>
    cases depth with
    | zero => exact hj.elim
    | succ depth =>
      cases items with
      | nil => rfl
      | cons item items =>
        have hitems : readItems fuel depth (L.items level (item :: items) ++ rest) =
            some (item :: items, rest) :=
          readItems_chars L (item :: items) hj (List.cons_ne_nil _ _)
            (Nat.le_of_succ_le_succ hfuel)
        obtain ⟨c, t, hhead, hbracket⟩ := exists_skipSpace_items L level items rest hj.1
        show readValue _ _ ('[' :: (L.items level (item :: items) ++ rest)) = _
        rw [readValue_array hhead hbracket, hitems, Option.map_some]
  | object members =>
    cases depth with
    | zero => exact hj.elim
    | succ depth =>
      refine readValue_object_of_members fun hne => ?_
      exact readMembers_chars L members hj hne (Nat.le_of_succ_le_succ hfuel)

/-- Items are read back from their written forms. -/
theorem readItems_chars (L : Layout) (items : List Json) {fuel depth level : Nat}
    {rest : List Char} (hitems : ItemsReadableAt depth items) (hne : items ≠ [])
    (hfuel : (L.items level items).length ≤ fuel) :
    readItems fuel depth (L.items level items ++ rest) = some (items, rest) := by
  cases items with
  | nil => exact absurd rfl hne
  | cons item items =>
    by_cases hlast : items = []
    · subst hlast
      rw [Layout.items] at hfuel ⊢
      simp only [List.length_append, List.length_singleton] at hfuel
      obtain ⟨fuel, rfl⟩ := Nat.exists_eq_add_one_of_ne_zero (show fuel ≠ 0 by omega)
      have hitem : readValue fuel depth
          (L.chars (level + 1) item ++ (L.line level ++ ']' :: rest)) =
            some (item, L.line level ++ ']' :: rest) :=
        readValue_chars L item hitems.1 (by omega)
          (stops_line L level (stops_closing (.inl rfl) rest))
      refine readItems_last (t := L.line level ++ ']' :: rest) ?_ (skipSpace_line ..)
      simpa [readValue_line] using hitem
    · rw [L.items_cons _ _ hlast] at hfuel ⊢
      simp only [List.length_append, List.length_cons] at hfuel
      obtain ⟨fuel, rfl⟩ := Nat.exists_eq_add_one_of_ne_zero (show fuel ≠ 0 by omega)
      have hitem : readValue fuel depth
          (L.chars (level + 1) item ++ ',' :: (L.items level items ++ rest)) =
            some (item, ',' :: (L.items level items ++ rest)) :=
        readValue_chars L item hitems.1 (by omega) (stops_comma _)
      have hrest : readItems fuel depth (L.items level items ++ rest) = some (items, rest) :=
        readItems_chars L items hitems.2 hlast (by omega)
      rw [readItems_comma item (t := L.items level items ++ rest), hrest, Option.map_some]
      simpa [readValue_line] using hitem

/-- Members are read back from their written forms. -/
theorem readMembers_chars (L : Layout) (members : List (String × Json)) {fuel depth level : Nat}
    {rest : List Char} (hmembers : MembersReadableAt depth members) (hne : members ≠ [])
    (hfuel : (L.members level members).length ≤ fuel) :
    readMembers fuel depth (L.members level members ++ rest) = some (members, rest) := by
  cases members with
  | nil => exact absurd rfl hne
  | cons member members =>
    obtain ⟨name, value⟩ := member
    by_cases hlast : members = []
    · subst hlast
      rw [Layout.members] at hfuel ⊢
      simp only [List.length_append, List.length_cons] at hfuel
      obtain ⟨fuel, rfl⟩ := Nat.exists_eq_add_one_of_ne_zero (show fuel ≠ 0 by omega)
      have hvalue : readValue fuel depth
          (L.chars (level + 1) value ++ (L.line level ++ '\x7d' :: rest)) =
            some (value, L.line level ++ '\x7d' :: rest) :=
        readValue_chars L value hmembers.1 (by omega)
          (stops_line L level (stops_closing (.inr rfl) rest))
      refine readMembers_last (t := L.gap ++ (L.chars (level + 1) value ++
        (L.line level ++ '\x7d' :: rest))) (u := L.line level ++ '\x7d' :: rest) ?_ ?_
        (skipSpace_line ..)
      · simpa using readName_quoted ..
      · rwa [readValue_gap]
    · rw [L.members_cons _ _ _ hlast] at hfuel ⊢
      simp only [List.length_append, List.length_cons] at hfuel
      obtain ⟨fuel, rfl⟩ := Nat.exists_eq_add_one_of_ne_zero (show fuel ≠ 0 by omega)
      have hvalue : readValue fuel depth
          (L.chars (level + 1) value ++ ',' :: (L.members level members ++ rest)) =
            some (value, ',' :: (L.members level members ++ rest)) :=
        readValue_chars L value hmembers.1 (by omega) (stops_comma _)
      have hrest : readMembers fuel depth (L.members level members ++ rest) =
          some (members, rest) :=
        readMembers_chars L members hmembers.2 hlast (by omega)
      rw [readMembers_comma name value (t := L.gap ++ (L.chars (level + 1) value ++
        ',' :: (L.members level members ++ rest))), hrest, Option.map_some]
      · simpa using readName_quoted ..
      · rwa [readValue_gap]

end

/-- **A value is read back from its written form.** -/
theorem read?_pretty {j : Json} (h : j.Readable) : read? j.pretty.toList = some j := by
  have hlist : j.pretty.toList = Layout.lines.chars 0 j := by
    rw [pretty, String.toList_ofList, prettyChars_eq]
  have hread : readValue (2 * (Layout.lines.chars 0 j).length + 2) maxDepth
      (Layout.lines.chars 0 j ++ []) = some (j, []) :=
    readValue_chars _ j h (by omega) stops_nil
  rw [List.append_nil] at hread
  unfold read?
  rw [hlist, hread]
  rfl

/-! ## Objects -/

/-- **An object is read back from its written form, whatever comes after it.** -/
theorem readValue_object_chars {members : List (String × Json)}
    (h : (Json.object members).ReadableAt depth)
    (hfuel : (L.chars level (.object members)).length ≤ fuel) (rest : List Char) :
    readValue fuel depth (L.chars level (.object members) ++ rest) =
      some (.object members, rest) := by
  obtain ⟨fuel, rfl⟩ : ∃ fuel', fuel = fuel' + 1 := by
    rw [Layout.chars, List.length_cons] at hfuel
    exact Nat.exists_eq_add_one_of_ne_zero (by omega)
  cases depth with
  | zero => exact h.elim
  | succ depth =>
    refine readValue_object_of_members fun hne => ?_
    exact readMembers_chars L members h hne (Nat.le_of_succ_le_succ hfuel)

/-- No text of an object is the beginning of the text of another one. -/
theorem eq_of_compact_isPrefix {ms ns : List (String × Json)}
    (hms : (Json.object ms).Readable) (hns : (Json.object ns).Readable)
    (hstart : compactChars (.object ms) <+: compactChars (.object ns)) : ms = ns := by
  obtain ⟨rest, heq⟩ := hstart
  rw [compactChars_eq 0, compactChars_eq 0] at heq
  -- the longer text is fuel enough to read either object off its front
  have hlength : (Layout.dense.chars 0 (.object ms)).length ≤
      (Layout.dense.chars 0 (.object ns)).length := by
    rw [← heq, List.length_append]
    omega
  have hread := readValue_object_chars hms hlength rest
  have hread' : readValue (Layout.dense.chars 0 (.object ns)).length maxDepth
      (Layout.dense.chars 0 (.object ns) ++ []) = some (.object ns, []) :=
    readValue_object_chars hns (Nat.le_refl _) []
  rw [List.append_nil] at hread'
  rw [heq, hread'] at hread
  have hsame : Json.object ns = .object ms := congrArg Prod.fst (Option.some.inj hread)
  exact (Json.object.inj hsame).symm

end PromptPipeline.Json
