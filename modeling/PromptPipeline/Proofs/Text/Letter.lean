import Mathlib
import PromptPipeline.Text.Letter
import PromptPipeline.Text.Lowercase

/-!
# Letters and digits

The ASCII letters and digits are among the letters and digits of all scripts, and no other character
of ASCII is (`isAlphabetic_eq`, `isAlphanumeric_eq`, `isWordChar_eq`).

There are four ways to a lowercase form (`lowers_lowercaseChar`). With one exception they lead from
letters and digits to letters and digits, which are lowercase already: the capital I with a dot above
turns into a small i and a dot, and the dot is no letter (`isAlphanumeric_of_mem_lowercaseChar`,
`lowercaseChar_of_mem`).

A text in lowercase has each character in its lowercase form, but a capital sigma has two such
forms, one of which is for the end of words. Where it matters only what is in ASCII, either may
stand anywhere (`LowersTo`). The letters of ASCII have their small letters for lowercase forms
(`LowersTo.eq_map_toLower`). From beyond ASCII two characters come into it, the sign of the unit
with a k, and the dotted capital I with an i and a dot that is beyond ASCII. So a text of ASCII
without a k is the lowercase form of texts of ASCII only, and these are the texts that have it for
small letters (`LowersTo.eq_iff`).
-/

namespace PromptPipeline.Text

variable {c : Char}

theorem isAlphabetic_of_isAlpha (h : c.isAlpha = true) : isAlphabetic c = true := by
  have hcode : 0x41 ≤ c.toNat ∧ c.toNat ≤ 0x5A ∨ 0x61 ≤ c.toNat ∧ c.toNat ≤ 0x7A := by
    simpa [Char.isAlpha, Char.isUpper, Char.isLower, UInt32.le_iff_toNat_le] using h
  rcases hcode with hupper | hlower
  · exact inRanges_iff.mpr ⟨(0x41, 0x5A), List.mem_cons_self, hupper⟩
  · exact inRanges_iff.mpr ⟨(0x61, 0x7A), List.mem_cons_of_mem _ List.mem_cons_self, hlower⟩

theorem isDecimalDigit_of_isDigit (h : c.isDigit = true) : isDecimalDigit c = true := by
  have hcode : 0x30 ≤ c.toNat ∧ c.toNat ≤ 0x39 := by
    simpa [Char.isDigit, UInt32.le_iff_toNat_le] using h
  exact inRanges_iff.mpr ⟨(0x30, 0x39), List.mem_cons_self, hcode⟩

theorem isAlphanumeric_of_isAlphanum (h : c.isAlphanum = true) : isAlphanumeric c = true := by
  simp only [isAlphanumeric, isNumeric, Bool.or_eq_true]
  rcases Bool.or_eq_true_iff.mp h with hletter | hdigit
  · exact .inl (isAlphabetic_of_isAlpha hletter)
  · exact .inr (.inl (isDecimalDigit_of_isDigit hdigit))

/-! ## In ASCII -/

/-- All ranges of the table are beyond ASCII. -/
def beyondAscii (table : List (Nat × Nat)) : Bool :=
  table.all (0x80 ≤ ·.1)

/-- The tables start with the ranges of ASCII. -/
theorem beyondAscii_tables : beyondAscii (alphabeticRanges.drop 2) = true ∧
    beyondAscii (decimalDigitRanges.drop 1) = true ∧
      beyondAscii (letterNumberRanges.drop 0) = true ∧
        beyondAscii (wordExtensionRanges.drop 1) = true := by
  decide +kernel

/-- For a character of ASCII only the ranges before those beyond ASCII count. -/
theorem inRanges_take {table : List (Nat × Nat)} {n : Nat}
    (hbeyond : beyondAscii (table.drop n) = true) (hc : c.toNat < 0x80) :
    inRanges table c.toNat = inRanges (table.take n) c.toNat := by
  have hnone : inRanges (table.drop n) c.toNat = false := by
    rw [← Bool.not_eq_true, inRanges_iff]
    intro ⟨r, hr, hle, _⟩
    have hr : 0x80 ≤ r.1 := of_decide_eq_true (List.all_eq_true.mp hbeyond r hr)
    omega
  have happend : inRanges (table.take n ++ table.drop n) c.toNat =
      (inRanges (table.take n) c.toNat || inRanges (table.drop n) c.toNat) := List.any_append
  rw [List.take_append_drop, hnone, Bool.or_false] at happend
  exact happend

theorem isAlphabetic_eq (hc : c.toNat < 0x80) : isAlphabetic c = c.isAlpha := by
  rw [isAlphabetic, inRanges_take beyondAscii_tables.1 hc]
  show inRanges [(0x41, 0x5A), (0x61, 0x7A)] c.toNat = c.isAlpha
  simp [inRanges, Char.isAlpha, Char.isUpper, Char.isLower, UInt32.le_iff_toNat_le]

theorem isDecimalDigit_eq (hc : c.toNat < 0x80) : isDecimalDigit c = c.isDigit := by
  rw [isDecimalDigit, inRanges_take beyondAscii_tables.2.1 hc]
  show inRanges [(0x30, 0x39)] c.toNat = c.isDigit
  simp [inRanges, Char.isDigit, UInt32.le_iff_toNat_le]

theorem isAlphanumeric_eq (hc : c.toNat < 0x80) : isAlphanumeric c = c.isAlphanum := by
  have hnumber : inRanges letterNumberRanges c.toNat = false :=
    inRanges_take beyondAscii_tables.2.2.1 hc
  rw [isAlphanumeric, isNumeric, isAlphabetic_eq hc, isDecimalDigit_eq hc, hnumber, Bool.or_false]
  rfl

theorem isWordChar_eq (hc : c.toNat < 0x80) :
    isWordChar c = (c.isAlphanum || c.toNat == 0x5F) := by
  have hextension : inRanges wordExtensionRanges c.toNat = (c.toNat == 0x5F) := by
    rw [inRanges_take beyondAscii_tables.2.2.2 hc]
    show inRanges [(0x5F, 0x5F)] c.toNat = _
    rw [Bool.eq_iff_iff, inRanges_iff, beq_iff_eq]
    simp [Nat.le_antisymm_iff, and_comm]
  rw [isWordChar, isAlphabetic_eq hc, isDecimalDigit_eq hc, hextension]
  rfl

/-! ## Lowercase forms -/

/-- The last of the lowercase code points of a run. -/
def CapitalRun.targetEnd (r : CapitalRun) : Nat :=
  r.lower r.last

/-- One range of letters has the lowercase forms of the run. -/
def CapitalRun.amongLetters (r : CapitalRun) : Bool :=
  alphabeticRanges.any fun letters => Nat.ble letters.1 r.target && Nat.ble r.targetEnd letters.2

/-- No lowercase form of the run is a member of the other run. -/
def CapitalRun.apart (r s : CapitalRun) : Bool :=
  Nat.blt r.targetEnd s.first || Nat.blt s.last r.target ||
    (List.range (r.last - r.first + 1)).all fun k =>
      !(r.holds (r.first + k) && s.holds (r.lower (r.first + k)))

/-- The capital I with a dot above. -/
def dottedI : Char := Char.ofNat 0x130

/-- The dot above, which combines with the letter before it. -/
def combiningDot : Char := Char.ofNat 0x307

/-- A run of its own for the one capital letter that is in no run. -/
def dottedRun : CapitalRun := ⟨0x130, 0x130, 1, 0x69⟩

theorem amongLetters_capitalRuns : ∀ r ∈ capitalRuns, r.amongLetters = true := by
  decide +kernel

theorem apart_capitalRuns :
    capitalRuns.all (fun r => (dottedRun :: capitalRuns).all r.apart) = true := by
  decide +kernel

/-- Of the lowercase letters in ASCII only the k is in the table, for the sign of the unit. -/
theorem target_capitalRuns :
    ∀ r ∈ capitalRuns, 0x80 ≤ r.target ∨ r.target = 0x6B ∧ r.first = r.last := by
  decide +kernel

/-- Letters are characters. -/
theorem isValidChar_alphabeticRanges :
    ∀ r ∈ alphabeticRanges, r.2 < 0xD800 ∨ 0xDFFF < r.1 ∧ r.2 < 0x110000 := by
  decide +kernel

theorem isValidChar_of_alphabetic {n : Nat} (h : inRanges alphabeticRanges n = true) :
    n.isValidChar := by
  obtain ⟨r, hr, hfirst, hlast⟩ := inRanges_iff.mp h
  rcases isValidChar_alphabeticRanges r hr with hlow | ⟨hhigh, hend⟩
  · exact .inl (by omega)
  · exact .inr ⟨by omega, by omega⟩

namespace CapitalRun

variable {r s : CapitalRun} {n : Nat}

theorem bounds_of_holds (h : r.holds n = true) :
    r.first ≤ n ∧ n ≤ r.last ∧ r.target ≤ r.lower n ∧ r.lower n ≤ r.targetEnd := by
  simp only [holds, Bool.and_eq_true, decide_eq_true_eq] at h
  obtain ⟨⟨hfirst, hlast⟩, -⟩ := h
  unfold targetEnd lower
  omega

/-- The lowercase forms in the table are letters. -/
theorem inRanges_lower (hr : r ∈ capitalRuns) (h : r.holds n = true) :
    inRanges alphabeticRanges (r.lower n) = true := by
  obtain ⟨-, -, htarget, hend⟩ := bounds_of_holds h
  obtain ⟨letters, hletters, hrange⟩ := List.any_eq_true.mp (amongLetters_capitalRuns r hr)
  simp only [Bool.and_eq_true, Nat.ble_eq] at hrange
  exact inRanges_iff.mpr ⟨letters, hletters, by omega, by omega⟩

/-- No lowercase form in the table is a capital letter of the table. -/
theorem holds_lower (hr : r ∈ capitalRuns) (hs : s ∈ dottedRun :: capitalRuns)
    (h : r.holds n = true) : s.holds (r.lower n) = false := by
  obtain ⟨hfirst, hlast, htarget, hend⟩ := bounds_of_holds h
  have hapart : r.apart s = true :=
    List.all_eq_true.mp (List.all_eq_true.mp apart_capitalRuns r hr) s hs
  simp only [apart, Bool.or_eq_true, Nat.blt_eq] at hapart
  rw [← Bool.not_eq_true]
  intro hholds
  obtain ⟨hfirst', hlast', -, -⟩ := bounds_of_holds hholds
  rcases hapart with (hbefore | hbehind) | hall
  · omega
  · omega
  · have hk := List.all_eq_true.mp hall (n - r.first) (List.mem_range.mpr (by omega))
    rw [Nat.add_sub_cancel' hfirst, h, hholds] at hk
    cases hk

end CapitalRun

/-- How a character comes to its lowercase form: in ASCII, as the one exception, by the table, or
not at all. -/
inductive Lowers (c : Char) : List Char → Prop
  | ascii (hc : c.toNat < 0x80) : Lowers c [c.toLower]
  | dotted (hc : c = dottedI) : Lowers c ['i', combiningDot]
  | run {r : CapitalRun} {d : Char} (hr : r ∈ capitalRuns) (hc : r.holds c.toNat = true)
    (hd : d.toNat = r.lower c.toNat) : Lowers c [d]
  | same (hc : 0x80 ≤ c.toNat) (hne : c ≠ dottedI)
    (hnone : ∀ r ∈ capitalRuns, r.holds c.toNat = false) : Lowers c [c]

theorem toNat_ne_of_ne_dottedI (hne : c ≠ dottedI) : c.toNat ≠ 0x130 :=
  fun h => hne (Char.toNat_inj.mp (h.trans (by decide : 0x130 = dottedI.toNat)))

theorem lowercaseChar_eq_self (hc : 0x80 ≤ c.toNat) (hne : c ≠ dottedI)
    (hnone : ∀ r ∈ capitalRuns, r.holds c.toNat = false) : lowercaseChar c = [c] := by
  have hfind : capitalRuns.find? (·.holds c.toNat) = none :=
    List.find?_eq_none.mpr fun r hr => Bool.not_eq_true _ ▸ hnone r hr
  unfold lowercaseChar
  rw [if_neg (Nat.not_lt.mpr hc), if_neg (toNat_ne_of_ne_dottedI hne), hfind]

theorem lowers_lowercaseChar (c : Char) : Lowers c (lowercaseChar c) := by
  by_cases hascii : c.toNat < 0x80
  · rw [lowercaseChar, if_pos hascii]
    exact .ascii hascii
  by_cases hdotted : c = dottedI
  · rw [hdotted]
    exact .dotted rfl
  cases hfind : capitalRuns.find? (·.holds c.toNat) with
  | some r =>
    have hr := List.mem_of_find?_eq_some hfind
    have hholds : r.holds c.toNat = true :=
      List.find?_some (p := fun r : CapitalRun => r.holds c.toNat) hfind
    have hvalid := isValidChar_of_alphabetic (CapitalRun.inRanges_lower hr hholds)
    rw [lowercaseChar, if_neg hascii, if_neg (toNat_ne_of_ne_dottedI hdotted), hfind]
    refine .run hr hholds ?_
    rw [Char.toNat_ofNat, if_pos hvalid]
  | none =>
    have hnone : ∀ r ∈ capitalRuns, r.holds c.toNat = false :=
      fun r hr => Bool.not_eq_true _ ▸ List.find?_eq_none.mp hfind r hr
    rw [lowercaseChar_eq_self (Nat.not_lt.mp hascii) hdotted hnone]
    exact .same (Nat.not_lt.mp hascii) hdotted hnone

theorem lowercaseChar_dottedI : lowercaseChar dottedI = ['i', combiningDot] :=
  rfl

theorem isAlphanumeric_combiningDot : isAlphanumeric combiningDot = false := by
  decide +kernel

theorem isAlphanum_toLower (c : Char) : c.toLower.isAlphanum = c.isAlphanum := by
  by_cases hupper : c.isUpper = true
  · have hletter : c.isAlpha = true := by simp [Char.isAlpha, hupper]
    simp [Char.isAlphanum, Char.isAlpha_toLower_eq_isAlpha, hletter]
  · rw [Char.toLower_eq_of_not_isUpper hupper]

theorem toNat_toLower_lt (h : c.toNat < 0x80) : c.toLower.toNat < 0x80 := by
  have hascii : ∀ n : Fin 0x80, (Char.ofNat n).toLower.toNat < 0x80 := by
    decide +kernel
  have hlower := hascii ⟨c.toNat, h⟩
  rwa [Char.ofNat_toNat] at hlower

/-- **With one exception letters and digits have letters and digits for lowercase forms.** -/
theorem isAlphanumeric_of_mem_lowercaseChar {d : Char} (hc : isAlphanumeric c = true)
    (hne : c ≠ dottedI) (hd : d ∈ lowercaseChar c) : isAlphanumeric d = true := by
  have hlowers := lowers_lowercaseChar c
  generalize lowercaseChar c = form at hlowers hd
  cases hlowers with
  | ascii hascii =>
    obtain rfl := List.mem_singleton.mp hd
    rw [isAlphanumeric_eq hascii] at hc
    exact isAlphanumeric_of_isAlphanum ((isAlphanum_toLower c).trans hc)
  | dotted hdotted => exact absurd hdotted hne
  | run hr hholds hcode =>
    obtain rfl := List.mem_singleton.mp hd
    have hletter := CapitalRun.inRanges_lower hr hholds
    rw [← hcode] at hletter
    exact Bool.or_eq_true_iff.mpr (.inl hletter)
  | same =>
    rw [List.mem_singleton.mp hd]
    exact hc

/-- **With the same exception a lowercase form is lowercase already.** -/
theorem lowercaseChar_of_mem {d : Char} (hne : c ≠ dottedI) (hd : d ∈ lowercaseChar c) :
    lowercaseChar d = [d] := by
  have hlowers := lowers_lowercaseChar c
  generalize lowercaseChar c = form at hlowers hd
  cases hlowers with
  | ascii hascii =>
    obtain rfl := List.mem_singleton.mp hd
    have hsmall : c.toLower.toNat < 0x80 := toNat_toLower_lt hascii
    rw [lowercaseChar, if_pos hsmall, Char.toLower_toLower_eq_toLower]
  | dotted hdotted => exact absurd hdotted hne
  | @run r _ hr hholds hcode =>
    obtain rfl := List.mem_singleton.mp hd
    obtain ⟨hfirst, hlast, htarget, hend⟩ := CapitalRun.bounds_of_holds hholds
    rcases target_capitalRuns r hr with hlarge | ⟨hk, hsingle⟩
    · have hdotted : d ≠ dottedI := by
        rintro rfl
        have hapart := CapitalRun.holds_lower hr List.mem_cons_self hholds
        rw [← hcode] at hapart
        exact absurd hapart (by decide)
      apply lowercaseChar_eq_self (by omega) hdotted
      intro s hs
      rw [hcode]
      exact CapitalRun.holds_lower hr (List.mem_cons_of_mem _ hs) hholds
    · have hcode : d.toNat = 'k'.toNat := by
        rw [hcode, CapitalRun.lower, hk, hsingle]
        show 0x6B + (c.toNat - r.last) = 0x6B
        omega
      rw [Char.toNat_inj.mp hcode]
      rfl
  | same hlarge hdotted hnone =>
    rw [List.mem_singleton.mp hd]
    exact lowercaseChar_eq_self hlarge hdotted hnone

/-- Only the exception brings the dot into the lowercase form of a letter. -/
theorem eq_dottedI_of_combiningDot_mem (hc : isAlphanumeric c = true)
    (h : combiningDot ∈ lowercaseChar c) : c = dottedI := by
  by_contra hne
  have hletter := isAlphanumeric_of_mem_lowercaseChar hc hne h
  rw [isAlphanumeric_combiningDot] at hletter
  cases hletter

/-- The exception is not itself a lowercase form. -/
theorem dottedI_notMem_lowercaseChar (c : Char) : dottedI ∉ lowercaseChar c := by
  intro h
  by_cases hdotted : c = dottedI
  · rw [hdotted, lowercaseChar_dottedI] at h
    exact absurd h (by decide)
  · have hsame := lowercaseChar_of_mem hdotted h
    rw [lowercaseChar_dottedI] at hsame
    cases hsame

/-! ## Lowercase texts in ASCII -/

/-- The Greek capital letter that has two lowercase forms. -/
def capitalSigma : Char := Char.ofNat 0x3A3

/-- Its lowercase form at the end of a word. -/
def finalSigma : Char := Char.ofNat 0x3C2

/-- The second text is the first one in lowercase, with either small letter for a capital sigma. -/
inductive LowersTo : List Char → List Char → Prop
  | nil : LowersTo [] []
  | form (c : Char) {s t : List Char} (h : LowersTo s t) : LowersTo (c :: s) (lowercaseChar c ++ t)
  | final {s t : List Char} (h : LowersTo s t) : LowersTo (capitalSigma :: s) (finalSigma :: t)

variable {s t w : List Char}

theorem lowersTo_lowercase (s : List Char) : LowersTo s (lowercase s) := by
  induction s with
  | nil => exact .nil
  | cons c s ih => exact .form c ih

theorem lowercaseChar_eq_toLower (hc : c.toNat < 0x80) : lowercaseChar c = [c.toLower] :=
  if_pos hc

/-- A lowercase form in ASCII without a k is that of a character of ASCII. -/
theorem toNat_lt_of_lowercaseChar (hform : ∀ d ∈ lowercaseChar c, d.toNat < 0x80)
    (hk : 'k' ∉ lowercaseChar c) : c.toNat < 0x80 := by
  have hlowers := lowers_lowercaseChar c
  generalize lowercaseChar c = form at hlowers hform hk
  cases hlowers with
  | ascii hascii => exact hascii
  | dotted =>
    have hdot := hform combiningDot (by simp)
    exact absurd hdot (by decide)
  | @run r d hr hholds hcode =>
    obtain ⟨hfirst, hlast, htarget, -⟩ := CapitalRun.bounds_of_holds hholds
    -- The one run that leads into ASCII is the sign of the unit, and it leads to a k.
    have hsmall : d.toNat < 0x80 := hform d List.mem_cons_self
    rcases target_capitalRuns r hr with hlarge | ⟨htargetK, hsingle⟩
    · omega
    · have hcodeK : d.toNat = 'k'.toNat := by
        rw [hcode, CapitalRun.lower, htargetK]
        show 0x6B + (c.toNat - r.first) = 0x6B
        omega
      rw [Char.toNat_inj.mp hcodeK] at hk
      exact absurd List.mem_cons_self hk
  | same => exact hform c List.mem_cons_self

/-- Small letters in ASCII are those of characters of ASCII. -/
theorem toNat_lt_of_toLower (h : c.toLower.toNat < 0x80) : c.toNat < 0x80 := by
  by_cases hupper : c.isUpper = true
  · have hcode : 65 ≤ c.toNat ∧ c.toNat ≤ 90 := by
      simpa [Char.isUpper, UInt32.le_iff_toNat_le] using hupper
    omega
  · rwa [Char.toLower_eq_of_not_isUpper hupper] at h

namespace LowersTo

/-- In ASCII the lowercase form of a text is the text in small letters. -/
theorem eq_map_toLower (h : LowersTo s t) (hs : ∀ c ∈ s, c.toNat < 0x80) :
    t = s.map Char.toLower := by
  induction h with
  | nil => rfl
  | form c h ih =>
    obtain ⟨hc, hs⟩ := List.forall_mem_cons.mp hs
    rw [lowercaseChar_eq_toLower hc, ih hs]
    rfl
  | final h ih =>
    obtain ⟨hsigma, -⟩ := List.forall_mem_cons.mp hs
    exact absurd hsigma (by decide)

/-- A lowercase form in ASCII without a k is that of a text of ASCII. -/
theorem toNat_lt (h : LowersTo s t) (ht : ∀ d ∈ t, d.toNat < 0x80) (hk : 'k' ∉ t) :
    ∀ c ∈ s, c.toNat < 0x80 := by
  induction h with
  | nil => exact List.forall_mem_nil _
  | form c h ih =>
    obtain ⟨hform, ht⟩ := List.forall_mem_append.mp ht
    obtain ⟨hkform, hk⟩ := not_or.mp (mt List.mem_append.mpr hk)
    exact List.forall_mem_cons.mpr ⟨toNat_lt_of_lowercaseChar hform hkform, ih ht hk⟩
  | final h ih =>
    obtain ⟨hsigma, -⟩ := List.forall_mem_cons.mp ht
    exact absurd hsigma (by decide)

/-- **A text of ASCII without a k is the lowercase form of another one if and only if it is that one
in small letters.** -/
theorem eq_iff (h : LowersTo s t) (hw : ∀ d ∈ w, d.toNat < 0x80) (hk : 'k' ∉ w) :
    t = w ↔ s.map Char.toLower = w := by
  constructor
  · rintro rfl
    exact (h.eq_map_toLower (h.toNat_lt hw hk)).symm
  · rintro rfl
    refine h.eq_map_toLower fun c hc => toNat_lt_of_toLower ?_
    exact hw _ (List.mem_map_of_mem hc)

end LowersTo

end PromptPipeline.Text
