import PromptPipeline.Proofs.Dialect.Unambiguous

/-!
# Expectations in their own words

The words of an expectation, behind the keyword of its command, are an item that asks for it. So is
each respelling of them, with letters in any case and any white space for a space: its words are
those of the expectation except for the case of letters, and the sign, the amount and the unit are
read from the words one by one.

Main statement: `Command.parse_respelled`.
-/

namespace PromptPipeline

open Text

namespace Text

/-- The second text is the first with ASCII letters in any case and with white space, at least one
character of it, for each space. -/
inductive Respells : List Char → List Char → Prop
  | nil : Respells [] []
  | letter {c d : Char} {s t : List Char} (hc : c ≠ ' ') (hcase : d.toLower = c.toLower)
    (h : Respells s t) : Respells (c :: s) (d :: t)
  | space {g s t : List Char} (hg : g ∈ gap) (h : Respells s t) : Respells (' ' :: s) (g ++ t)

variable {s s' t w : List Char}

theorem respells_iff_of_notMem (hs : ' ' ∉ s) :
    Respells s t ↔ smallLetters t = smallLetters s := by
  induction s generalizing t with
  | nil =>
    constructor
    · rintro ⟨⟩
      rfl
    · intro h
      obtain rfl : t = [] := List.map_eq_nil_iff.mp (smallLetters_eq_iff.mp h)
      exact .nil
  | cons c s ih =>
    obtain ⟨hc, hs⟩ := not_or.mp (mt List.mem_cons.mpr hs)
    constructor
    · intro h
      cases h with
      | letter _ hcase h => exact smallLetters_cons_iff.mpr ⟨hcase, (ih hs).mp h⟩
      | space => exact absurd rfl hc
    · intro h
      cases t with
      | nil => cases smallLetters_eq_iff.mp h
      | cons d t =>
        obtain ⟨hcase, h⟩ := smallLetters_cons_iff.mp h
        exact .letter (Ne.symm hc) hcase ((ih hs).mpr h)

/-- A respelling has a word for the first word and white space for the space behind it. -/
theorem respells_append_iff (hs : ' ' ∉ s) : Respells (s ++ ' ' :: s') t ↔
    ∃ w, smallLetters w = smallLetters s ∧ ∃ g ∈ gap, ∃ t', Respells s' t' ∧
      t = w ++ (g ++ t') := by
  induction s generalizing t with
  | nil =>
    constructor
    · intro h
      cases h with
      | letter hc => exact absurd rfl hc
      | space hg h => exact ⟨[], rfl, _, hg, _, h, rfl⟩
    · rintro ⟨w, hw, g, hg, t', h, rfl⟩
      obtain rfl : w = [] := List.map_eq_nil_iff.mp (smallLetters_eq_iff.mp hw)
      show Respells (' ' :: s') (g ++ t')
      exact .space hg h
  | cons c s ih =>
    obtain ⟨hc, hs⟩ := not_or.mp (mt List.mem_cons.mpr hs)
    constructor
    · intro h
      cases h with
      | letter _ hcase h =>
        obtain ⟨w, hw, g, hg, t', hrest, rfl⟩ := (ih hs).mp h
        exact ⟨_ :: w, smallLetters_cons_iff.mpr ⟨hcase, hw⟩, g, hg, t', hrest, rfl⟩
      | space => exact absurd rfl hc
    · rintro ⟨w, hw, g, hg, t', h, rfl⟩
      cases w with
      | nil => cases smallLetters_eq_iff.mp hw
      | cons d w =>
        obtain ⟨hcase, hw⟩ := smallLetters_cons_iff.mp hw
        exact .letter (Ne.symm hc) hcase ((ih hs).mpr ⟨w, hw, g, hg, t', h, rfl⟩)

theorem space_notMem_of_solid (hw : w ∈ solid) : ' ' ∉ w :=
  fun hmem => absurd ((mem_solid.mp hw).2 _ hmem) (by decide)

/-- **The words of a respelling** are those of the text except for the case of letters. -/
theorem Respells.forall₂_words {ws : List (List Char)} (hws : ∀ w ∈ ws, w ∈ solid)
    (h : Respells (joinWith [' '] ws) t) :
    List.Forall₂ (fun v w => smallLetters v = smallLetters w) (words t) ws := by
  induction ws generalizing t with
  | nil =>
    cases h
    exact .nil
  | cons w ws ih =>
    obtain ⟨hw, hws⟩ := List.forall_mem_cons.mp hws
    have hspace := space_notMem_of_solid hw
    cases ws with
    | nil =>
      have heq := (respells_iff_of_notMem hspace).mp h
      rw [words_of_solid (solid_of_smallLetters heq hw)]
      exact .cons heq .nil
    | cons w' ws =>
      have hjoin : joinWith [' '] (w :: w' :: ws) = w ++ ' ' :: joinWith [' '] (w' :: ws) :=
        List.append_assoc w [' '] _
      rw [hjoin] at h
      -- the first space stands behind the first word, so the rest of the text goes on after it
      obtain ⟨v, hv, g, hg, t', hrest, rfl⟩ := (respells_append_iff hspace).mp h
      rw [words_append (solid_of_smallLetters hv hw) hg]
      exact .cons hv (ih hws hrest)

end Text

variable {w : List Char}

/-! ## The words of an expectation -/

theorem isDigit_of_mem_toDigits {n : Nat} : ∀ c ∈ Nat.toDigits 10 n, c.isDigit = true :=
  fun _ => Nat.isDigit_of_mem_toDigits (by decide) (by decide)

theorem amountOfText_toDigits (n : Amount) : amountOfText (Nat.toDigits 10 n.toNat) = .ok n := by
  have hvalue : (Nat.toDigits 10 n.toNat).foldl (fun n d => n * 10 + (d.toNat - '0'.toNat)) 0 =
      n.toNat := by
    have h := Nat.ofDigitChars_ten_toDigits (n := n.toNat)
    rw [Nat.ofDigitChars_eq_foldl] at h
    simp only [Nat.mul_comm 10] at h
    exact h
  have hamount : amountOfText? (Nat.toDigits 10 n.toNat) = some n := by
    unfold amountOfText?
    split
    -- no digit is a plus sign
    next heq => exact absurd (isDigit_of_mem_toDigits '+' (heq ▸ List.mem_cons_self)) (by decide)
    next =>
      rw [if_pos ⟨Nat.toDigits_ne_nil, List.all_eq_true.mpr isDigit_of_mem_toDigits⟩, hvalue,
        if_pos n.toNat_lt_size]
      exact congrArg some n.ofNat_toNat
  unfold amountOfText
  rw [hamount]

/-- The command that expects an amount takes its parts from the words. -/
theorem amountCommand_eq {sign : Sign} {unit : TextUnit} {n : Amount} {a b c : List Char}
    (hsign : smallLetters a = smallLetters sign.words.toList)
    (hamount : smallLetters b = smallLetters (Nat.toDigits 10 n.toNat))
    (hunit : smallLetters c = smallLetters unit.label.toList) :
    amountCommand a b c = .ok (.expect (.amount sign unit n)) := by
  have hsign : signOfWord a = sign := by
    unfold signOfWord
    rw [capitals_of_smallLetters hsign]
    cases sign <;> rfl
  have hunit : unitOfText c = .ok unit := by
    unfold unitOfText
    rw [hunit]
    cases unit <;> rfl
  obtain rfl := eq_of_smallLetters_of_isDigit isDigit_of_mem_toDigits hamount
  unfold amountCommand
  rw [amountOfText_toDigits, hunit, hsign]
  rfl

/-- The words of the command that expects the expectation. -/
def Expectation.itemWords : Expectation → List (List Char)
  | .amount sign unit n =>
    ["EXPECT".toList, sign.words.toList, Nat.toDigits 10 n.toNat, unit.label.toList]
  | .format f => ["EXPECT".toList, "format".toList, f.label.toList]

theorem Expectation.toList_item (e : Expectation) :
    ("EXPECT " ++ e.words).toList = joinWith [' '] e.itemWords := by
  cases e with
  | amount sign unit n => simp [Expectation.words, itemWords, joinWith, toString, Nat.toList_repr]
  | format f => cases f; rfl

theorem Expectation.solid_itemWords (e : Expectation) : ∀ w ∈ e.itemWords, w ∈ solid := by
  have hkeyword {k : String} (hk : IsKeyword k) : k.toList ∈ solid :=
    letters_le_solid ⟨hk.1, List.all_eq_true.mp hk.2⟩
  have hdigits (n : Nat) : Nat.toDigits 10 n ∈ solid := mem_solid.mpr
    ⟨Nat.toDigits_ne_nil, fun c hc => isBlank_of_isDigit (isDigit_of_mem_toDigits c hc)⟩
  have hexpect : "EXPECT".toList ∈ solid := hkeyword (by decide)
  cases e with
  | amount sign unit n =>
    have hsign : sign.words.toList ∈ solid := hkeyword (by cases sign <;> decide)
    have hunit : unit.label.toList ∈ solid := hkeyword (by cases unit <;> decide)
    exact List.forall_mem_cons.mpr ⟨hexpect, by simp [hsign, hdigits, hunit]⟩
  | format f =>
    have hformat : "format".toList ∈ solid := hkeyword (by decide)
    have hlabel : f.label.toList ∈ solid := hkeyword (by cases f; decide)
    exact List.forall_mem_cons.mpr ⟨hexpect,
      List.forall_mem_cons.mpr ⟨hformat, List.forall_mem_singleton.mpr hlabel⟩⟩

/-! ## Respelled commands -/

namespace Form

variable {s a b c d : List Char}

theorem read?_expectAmount {sign : Sign} {unit : TextUnit} {n : Amount}
    (hwords : List.Forall₂ (fun v w => smallLetters v = smallLetters w) (words s)
      (Expectation.amount sign unit n).itemWords) :
    Form.expectAmount.read? s = some (.ok (.expect (.amount sign unit n))) := by
  simp only [Expectation.itemWords, List.forall₂_cons_right_iff, List.forall₂_nil_right_iff]
    at hwords
  obtain ⟨a, _, ha, ⟨b, _, hb, ⟨c, _, hc, ⟨d, _, hd, rfl, rfl⟩, rfl⟩, rfl⟩, heq⟩ := hwords
  have hexpect : spells "EXPECT" a = true := spells_of_smallLetters (by decide) ha
  have hsign : spellsAny ["EXACTLY", "MIN", "MINIMUM", "MAX", "MAXIMUM"] b = true := by
    have hkeyword : ∃ k ∈ ["EXACTLY", "MIN", "MINIMUM", "MAX", "MAXIMUM"],
        folded sign.words.toList = folded k.toList := by
      cases sign <;> decide
    obtain ⟨k, hk, hfolded⟩ := hkeyword
    have hspells : spells sign.words b = true :=
      spells_of_smallLetters (by cases sign <;> decide) hb
    exact spellsAny_iff.mpr ⟨k, hk, spells_iff.mpr ((spells_iff.mp hspells).trans hfolded)⟩
  have hunit : d.all foldsToLetter = true := by
    have hspells : spells unit.label d = true :=
      spells_of_smallLetters (by cases unit <;> decide) hd
    exact List.all_eq_true.mpr (mem_letters_of_spells (by cases unit <;> decide) hspells).2
  unfold read?
  rw [heq]
  simp only [hexpect, hsign, hunit, Bool.and_self, if_true, amountCommand_eq hb hc hd]

theorem read?_expectFormat
    (hwords : List.Forall₂ (fun v w => smallLetters v = smallLetters w) (words s)
      (Expectation.format .json).itemWords) :
    Form.expectFormat.read? s = some (.ok (.expect (.format .json))) := by
  simp only [Expectation.itemWords, List.forall₂_cons_right_iff, List.forall₂_nil_right_iff]
    at hwords
  obtain ⟨a, _, ha, ⟨b, _, hb, ⟨c, _, hc, rfl, rfl⟩, rfl⟩, heq⟩ := hwords
  have hexpect : spells "EXPECT" a = true := spells_of_smallLetters (by decide) ha
  have hformat : spells "FORMAT" b = true :=
    spells_of_smallLetters (by decide) (hb.trans (by decide))
  have hjson : spells "JSON" c = true := spells_of_smallLetters (by decide) hc
  unfold read?
  simp [heq, hexpect, hformat, hjson]

end Form

namespace Command

/-- **Each respelling of the words of an expectation asks for it.** -/
theorem parse_respelled {e : Expectation} {item : String}
    (h : Respells ("EXPECT " ++ e.words).toList item.toList) (line : Nat) :
    parse item line = .ok (.expect e) := by
  rw [e.toList_item] at h
  have hwords := h.forall₂_words e.solid_itemWords
  rw [← words_trim] at hwords
  cases e with
  | amount sign unit n =>
    exact parseTrying_of_read? (Form.read?_expectAmount hwords) (Form.mem_all _) line
  | format f =>
    cases f
    exact parseTrying_of_read? (Form.read?_expectFormat hwords) (Form.mem_all _) line

/-- Capitals, a tab and a second space make no difference. -/
theorem loud_minimum_is_read :
    Respells ("EXPECT " ++ (Expectation.amount .minimum .words 2).words).toList
      "Expect\tMINIMUM  2 Words".toList ∧
    parse "Expect\tMINIMUM  2 Words" 1 = .ok (.expect (.amount .minimum .words 2)) := by
  have hgap {g : List Char} (hne : g ≠ []) (hblank : g.all isBlank = true) : g ∈ gap :=
    ⟨hne, List.all_eq_true.mp hblank⟩
  have hunit : Respells "words".toList "Words".toList :=
    (respells_iff_of_notMem (by decide)).mpr (by decide)
  have hamount : Respells ("2".toList ++ ' ' :: "words".toList) "2 Words".toList :=
    (respells_append_iff (by decide)).mpr
      ⟨"2".toList, rfl, " ".toList, hgap (by decide) (by decide), _, hunit, rfl⟩
  have hsign : Respells ("minimum".toList ++ ' ' :: ("2".toList ++ ' ' :: "words".toList))
      "MINIMUM  2 Words".toList :=
    (respells_append_iff (by decide)).mpr
      ⟨"MINIMUM".toList, by decide, "  ".toList, hgap (by decide) (by decide), _, hamount, rfl⟩
  have hitem : Respells ("EXPECT " ++ (Expectation.amount .minimum .words 2).words).toList
      "Expect\tMINIMUM  2 Words".toList :=
    (respells_append_iff (s := "EXPECT".toList) (by decide)).mpr
      ⟨"Expect".toList, by decide, "\t".toList, hgap (by decide) (by decide), _, hsign, rfl⟩
  exact ⟨hitem, parse_respelled hitem 1⟩

end Command

end PromptPipeline
