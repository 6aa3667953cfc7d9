import PromptPipeline.Proofs.Dialect.Forms
import PromptPipeline.Proofs.Text.Letter

/-!
# Versions of the dialect

A version is three numbers with points between them and perhaps a dash and a label. In a semantic
version the digits are ASCII. The reader of versions takes the digits of any script
(`isVersion_iff`), and other characters in the place of digits it does not take; so of the versions
that a command can set, the semantic ones are those without foreign digits.

Main statement: `Command.parse_dialectVersion`.
-/

namespace PromptPipeline

open Text

/-- Three numbers in the given digits with points between them, and perhaps a dash and a label. -/
def versions (digit : Char → Bool) : Language Char :=
  many1 digit * ({['.']} * (many1 digit * ({['.']} * (many1 digit *
    (1 + {['-']} * many1 isLabelChar)))))

/-- The versions in ASCII digits. -/
def semanticVersions : Language Char :=
  versions Char.isDigit

variable {s t : List Char} {c : Char} {L : Language Char}

/-! ## Digits of any script -/

theorem isBlank_of_isDecimalDigit (h : isDecimalDigit c = true) : isBlank c = false := by
  obtain ⟨r, hr, hle, hge⟩ := inRanges_iff.mp h
  have hapart : ∀ r ∈ decimalDigitRanges, ∀ b ∈ whiteSpaceRanges, r.2 < b.1 ∨ b.2 < r.1 := by
    decide +kernel
  rw [← Bool.not_eq_true]
  intro hblank
  obtain ⟨b, hb, hle', hge'⟩ := inRanges_iff.mp hblank
  have := hapart r hr b hb
  omega

theorem toNat_lt_of_isLabelChar (h : isLabelChar c = true) : c.toNat < 0x80 := by
  simp only [isLabelChar, Char.isAlphanum, Char.isAlpha, Char.isUpper, Char.isLower, Char.isDigit,
    UInt32.le_iff_toNat_le, Bool.or_eq_true, Bool.and_eq_true, decide_eq_true_eq, beq_iff_eq,
    ge_iff_le] at h
  rcases h with (hcode | rfl) | rfl
  · grind [Char.toNat_val]
  · decide
  · decide

/-- In a label only ASCII digits are digits. -/
theorem isDigit_of_isLabelChar (h : isDecimalDigit c = true) (hlabel : isLabelChar c = true) :
    c.isDigit = true := by
  obtain ⟨r, hr, hle, hge⟩ := inRanges_iff.mp h
  have hfirst : ∀ r ∈ decimalDigitRanges, r = (0x30, 0x39) ∨ 0x80 ≤ r.1 := by decide
  rcases hfirst r hr with rfl | hforeign
  · simpa [Char.isDigit, UInt32.le_iff_toNat_le] using And.intro hle hge
  · have := toNat_lt_of_isLabelChar hlabel
    omega

/-! ## Numbers and separators -/

theorem mem_char_mul_iff : s ∈ {[c]} * L ↔ ∃ t ∈ L, s = c :: t := by
  rw [Language.mem_mul]
  constructor
  · intro h
    obtain ⟨_, rfl, t, ht, rfl⟩ := h
    exact ⟨t, ht, rfl⟩
  · intro h
    obtain ⟨t, ht, rfl⟩ := h
    exact ⟨[c], rfl, t, ht, rfl⟩

/-- A number takes all digits that it can get. -/
theorem mem_number_mul_iff (hL : ∀ t ∈ L, ∀ c ∈ t.head?, isDecimalDigit c = false) :
    s ∈ many1 isDecimalDigit * L ↔
      ∃ d digits rest, spanDigits s = (d :: digits, rest) ∧ rest ∈ L := by
  constructor
  · intro h
    obtain ⟨number, ⟨hne, hdigits⟩, rest, hrest, rfl⟩ := h
    obtain ⟨d, digits, rfl⟩ := List.exists_cons_of_ne_nil hne
    refine ⟨d, digits, rest, ?_, hrest⟩
    exact Prod.ext (takeWhile_run_append hdigits (hL _ hrest))
      (dropWhile_run_append hdigits (hL _ hrest))
  · intro h
    obtain ⟨d, digits, rest, hspan, hrest⟩ := h
    obtain ⟨hdigits, rfl⟩ := Prod.mk.inj hspan
    refine ⟨d :: digits, ⟨List.cons_ne_nil _ _, fun c hc => ?_⟩, _, hrest, ?_⟩
    · rw [← hdigits] at hc
      exact List.mem_takeWhile_imp hc
    · show d :: digits ++ _ = s
      rw [← hdigits, List.takeWhile_append_dropWhile]

theorem head?_point : ∀ t ∈ {['.']} * L, ∀ c ∈ t.head?, isDecimalDigit c = false := by
  intro t ht c hc
  obtain ⟨t, -, rfl⟩ := mem_char_mul_iff.mp ht
  obtain rfl := Option.some.inj hc
  decide

theorem mem_label_iff : s ∈ 1 + {['-']} * many1 isLabelChar ↔
    s = [] ∨ ∃ label, s = '-' :: label ∧ label ≠ [] ∧ label.all isLabelChar = true := by
  rw [Language.mem_add, mem_char_mul_iff]
  refine or_congr Iff.rfl (exists_congr fun label => ?_)
  rw [mem_many1, List.all_eq_true]
  exact and_comm

theorem head?_label : ∀ t ∈ 1 + {['-']} * many1 isLabelChar, ∀ c ∈ t.head?,
    isDecimalDigit c = false := by
  intro t ht c hc
  obtain rfl | ⟨label, rfl, -⟩ := mem_label_iff.mp ht
  · cases hc
  · obtain rfl := Option.some.inj hc
    decide

/-! ## Versions -/

theorem mem_number_point_iff : s ∈ many1 isDecimalDigit * ({['.']} * L) ↔
    ∃ d digits rest, spanDigits s = (d :: digits, '.' :: rest) ∧ rest ∈ L := by
  rw [mem_number_mul_iff head?_point]
  simp only [mem_char_mul_iff]
  constructor
  · intro h
    obtain ⟨d, digits, _, hspan, rest, hrest, rfl⟩ := h
    exact ⟨d, digits, rest, hspan, hrest⟩
  · intro h
    obtain ⟨d, digits, rest, hspan, hrest⟩ := h
    exact ⟨d, digits, _, hspan, rest, hrest, rfl⟩

/-- **The reader of versions takes the digits of any script.** -/
theorem isVersion_iff : isVersion s = true ↔ s ∈ versions isDecimalDigit := by
  unfold versions
  constructor
  · intro h
    unfold isVersion at h
    split at h
    next major rest hmajor =>
      refine mem_number_point_iff.mpr ⟨_, major, rest, hmajor, ?_⟩
      split at h
      next minor rest hminor =>
        refine mem_number_point_iff.mpr ⟨_, minor, rest, hminor, ?_⟩
        split at h
        next patch hpatch =>
          exact (mem_number_mul_iff head?_label).mpr
            ⟨_, patch, _, hpatch, mem_label_iff.mpr (.inl rfl)⟩
        next patch label hpatch =>
          obtain ⟨hne, hlabel⟩ := Bool.and_eq_true_iff.mp h
          exact (mem_number_mul_iff head?_label).mpr ⟨_, patch, _, hpatch,
            mem_label_iff.mpr (.inr ⟨label, rfl, of_decide_eq_true hne, hlabel⟩)⟩
        next => cases h
      next => cases h
    next => cases h
  · intro h
    obtain ⟨_, major, rest, hmajor, h⟩ := mem_number_point_iff.mp h
    obtain ⟨_, minor, rest', hminor, h⟩ := mem_number_point_iff.mp h
    obtain ⟨_, patch, rest'', hpatch, h⟩ := (mem_number_mul_iff head?_label).mp h
    unfold isVersion
    simp only [hmajor, hminor, hpatch]
    obtain rfl | ⟨label, rfl, hne, hlabel⟩ := mem_label_iff.mp h
    · rfl
    · simp [hne, hlabel]

variable {p q : Char → Bool}

theorem mem_versions_iff : s ∈ versions p ↔ ∃ major ∈ many1 p, ∃ minor ∈ many1 p,
    ∃ patch ∈ many1 p, ∃ ending ∈ 1 + {['-']} * many1 isLabelChar,
      s = major ++ '.' :: (minor ++ '.' :: (patch ++ ending)) := by
  constructor
  · intro h
    obtain ⟨major, hmajor, _, hpoint, rfl⟩ := h
    obtain ⟨_, ⟨minor, hminor, _, hpoint', rfl⟩, rfl⟩ := mem_char_mul_iff.mp hpoint
    obtain ⟨_, ⟨patch, hpatch, ending, hending, rfl⟩, rfl⟩ := mem_char_mul_iff.mp hpoint'
    exact ⟨major, hmajor, minor, hminor, patch, hpatch, ending, hending, rfl⟩
  · intro h
    obtain ⟨major, hmajor, minor, hminor, patch, hpatch, ending, hending, rfl⟩ := h
    exact ⟨major, hmajor, _, mem_char_mul_iff.mpr ⟨_, ⟨minor, hminor, _, mem_char_mul_iff.mpr
      ⟨_, ⟨patch, hpatch, ending, hending, rfl⟩, rfl⟩, rfl⟩, rfl⟩, rfl⟩

/-- Whether a text is a version depends on its digits only. -/
theorem mem_versions_of_forall (h : s ∈ versions p) (hq : ∀ c ∈ s, p c = true → q c = true) :
    s ∈ versions q := by
  obtain ⟨major, hmajor, minor, hminor, patch, hpatch, ending, hending, rfl⟩ :=
    mem_versions_iff.mp h
  simp only [List.forall_mem_append, List.forall_mem_cons] at hq
  obtain ⟨hqmajor, -, hqminor, -, hqpatch, -⟩ := hq
  have hdigits {n : List Char} (hn : n ∈ many1 p) (hqn : ∀ c ∈ n, p c = true → q c = true) :
      n ∈ many1 q := ⟨hn.1, fun c hc => hqn c hc (hn.2 c hc)⟩
  exact mem_versions_iff.mpr ⟨major, hdigits hmajor hqmajor, minor, hdigits hminor hqminor, patch,
    hdigits hpatch hqpatch, ending, hending, rfl⟩

/-- Beside its digits a version has points, a dash and the characters of a label. -/
theorem isLabelChar_of_mem_versions (h : s ∈ versions p) :
    ∀ c ∈ s, p c = true ∨ isLabelChar c = true := by
  obtain ⟨major, hmajor, minor, hminor, patch, hpatch, ending, hending, rfl⟩ :=
    mem_versions_iff.mp h
  have hpoint : isLabelChar '.' = true := by decide
  have hlabel : ∀ c ∈ ending, isLabelChar c = true := by
    obtain rfl | ⟨label, rfl, -, hlabel⟩ := mem_label_iff.mp hending
    · exact List.forall_mem_nil _
    · exact List.forall_mem_cons.mpr ⟨by decide, List.all_eq_true.mp hlabel⟩
  simp only [List.forall_mem_append, List.forall_mem_cons]
  exact ⟨fun c hc => .inl (hmajor.2 c hc), .inr hpoint, fun c hc => .inl (hminor.2 c hc),
    .inr hpoint, fun c hc => .inl (hpatch.2 c hc), fun c hc => .inr (hlabel c hc)⟩

/-- **The semantic versions are the versions without foreign digits.** -/
theorem mem_semanticVersions_iff : s ∈ semanticVersions ↔
    s ∈ versions isDecimalDigit ∧ ∀ c ∈ s, isDecimalDigit c = true → c.isDigit = true := by
  constructor
  · intro h
    refine ⟨mem_versions_of_forall h fun c _ => isDecimalDigit_of_isDigit, fun c hc hdigit => ?_⟩
    rcases isLabelChar_of_mem_versions h c hc with hascii | hlabel
    · exact hascii
    · exact isDigit_of_isLabelChar hdigit hlabel
  · intro h
    exact mem_versions_of_forall h.1 h.2

/-- A version is one word. -/
theorem solid_of_mem_versions (h : s ∈ versions isDecimalDigit) : s ∈ solid := by
  have hblank : ∀ c, isLabelChar c = true → isBlank c = false := by
    intro c hc
    simp only [isLabelChar, Char.isAlphanum, Bool.or_eq_true, beq_iff_eq] at hc
    rcases hc with ((hletter | hdigit) | rfl) | rfl
    · exact isBlank_of_isAlpha hletter
    · exact isBlank_of_isDigit hdigit
    · decide
    · decide
  refine mem_solid.mpr ⟨?_, fun c hc => ?_⟩
  · obtain ⟨major, hmajor, minor, -, patch, -, ending, -, rfl⟩ := mem_versions_iff.mp h
    simp [hmajor.1]
  · rcases isLabelChar_of_mem_versions h c hc with hdigit | hlabel
    · exact isBlank_of_isDecimalDigit hdigit
    · exact hblank c hlabel

/-! ## The command that sets a version -/

theorem Form.read?_dialectVersion_iff {command : Command} :
    Form.dialectVersion.read? s = some (.ok command) ↔ ∃ a b version, words s = [a, b, version] ∧
      spellsAny ["PROMPTBOOK", "PTBK"] a = true ∧ spells "VERSION" b = true ∧
      versionCommand version = .ok command := by
  unfold read?
  generalize words s = ws
  constructor
  · intro h
    rcases ws with _ | ⟨a, _ | ⟨b, _ | ⟨version, _ | ⟨d, ws⟩⟩⟩⟩
    all_goals simp only [reduceCtorEq] at h
    split at h
    next hkeywords =>
      obtain ⟨ha, hb⟩ := Bool.and_eq_true_iff.mp hkeywords
      exact ⟨a, b, version, rfl, ha, hb, Option.some.inj h⟩
    next => cases h
  · intro h
    obtain ⟨a, b, version, rfl, ha, hb, hcommand⟩ := h
    simp [ha, hb, hcommand]

namespace Command

/-- A command sets nothing but versions. -/
theorem mem_versions_of_parse {item : String} {line : Nat} {v : String}
    (h : parse item line = .ok (.dialectVersion v)) : v.toList ∈ versions isDecimalDigit := by
  have hread := ofItem_eq_ok_iff.mp (parse_eq_ok_iff.mp h)
  obtain ⟨a, b, version, -, -, -, hcommand⟩ := Form.read?_dialectVersion_iff.mp hread
  obtain ⟨hversion, heq⟩ := versionCommand_eq_ok_iff.mp hcommand
  obtain rfl := Command.dialectVersion.inj heq
  rw [String.toList_ofList]
  exact isVersion_iff.mp hversion

/-- Each version is set by its keywords in any case. -/
theorem parse_version {name word v : String} (hv : v.toList ∈ versions isDecimalDigit)
    (hname : smallLetters name.toList = smallLetters "PROMPTBOOK".toList ∨
      smallLetters name.toList = smallLetters "PTBK".toList)
    (hword : smallLetters word.toList = smallLetters "VERSION".toList) (line : Nat) :
    parse (name ++ " " ++ word ++ " " ++ v) line = .ok (.dialectVersion v) := by
  have hkeyword : spellsAny ["PROMPTBOOK", "PTBK"] name.toList = true := by
    rcases hname with hname | hname
    · exact spellsAny_iff.mpr ⟨"PROMPTBOOK", by simp, spells_of_smallLetters (by decide) hname⟩
    · exact spellsAny_iff.mpr ⟨"PTBK", by simp, spells_of_smallLetters (by decide) hname⟩
  have hversion : spells "VERSION" word.toList = true := spells_of_smallLetters (by decide) hword
  have hitem : (name ++ " " ++ word ++ " " ++ v).toList =
      name.toList ++ ([' '] ++ (word.toList ++ ([' '] ++ v.toList))) := by
    simp
  have hwords : words (trim (name ++ " " ++ word ++ " " ++ v).toList) =
      [name.toList, word.toList, v.toList] := by
    rw [words_trim, hitem, words_append (anyOf_le_solid (by decide) hkeyword) space_mem_gap,
      words_append (keyword_le_solid (by decide) hversion) space_mem_gap,
      words_of_solid (solid_of_mem_versions hv)]
  refine parse_eq_ok_iff.mpr (ofItem_eq_ok_iff.mpr (Form.read?_dialectVersion_iff.mpr
    ⟨_, _, _, hwords, hkeyword, hversion, versionCommand_eq_ok_iff.mpr ⟨isVersion_iff.mpr hv, ?_⟩⟩))
  rw [String.ofList_toList]

/-- **The versions that a command can set.** They are the versions in digits of any script, among
which the semantic versions are those without foreign digits; and each of them is set by its
keywords in any case. -/
theorem parse_dialectVersion (v : String) :
    ((∃ item line, parse item line = .ok (.dialectVersion v)) ↔
      v.toList ∈ versions isDecimalDigit) ∧
    (v.toList ∈ semanticVersions ↔ v.toList ∈ versions isDecimalDigit ∧
      ∀ c ∈ v.toList, isDecimalDigit c = true → c.isDigit = true) ∧
    ∀ name word : String, v.toList ∈ versions isDecimalDigit →
      (smallLetters name.toList = smallLetters "PROMPTBOOK".toList ∨
        smallLetters name.toList = smallLetters "PTBK".toList) →
      smallLetters word.toList = smallLetters "VERSION".toList →
      ∀ line, parse (name ++ " " ++ word ++ " " ++ v) line = .ok (.dialectVersion v) := by
  refine ⟨⟨?_, fun hv => ?_⟩, mem_semanticVersions_iff, fun name word hv => parse_version hv⟩
  · intro h
    obtain ⟨item, line, hparse⟩ := h
    exact mem_versions_of_parse hparse
  · exact ⟨_, 1, parse_version hv (.inl rfl) (Eq.refl (smallLetters "VERSION".toList)) 1⟩

/-- A version in Arabic digits is set, and it is not semantic. -/
theorem arabic_version_is_set :
    parse "Ptbk version \u0661.0.0" 1 = .ok (.dialectVersion "\u0661.0.0") ∧
      "\u0661.0.0".toList ∉ semanticVersions := by
  obtain ⟨-, hsemantic, hset⟩ := parse_dialectVersion "\u0661.0.0"
  have hversion : "\u0661.0.0".toList ∈ versions isDecimalDigit :=
    isVersion_iff.mp (by decide +kernel)
  refine ⟨hset "Ptbk" "version" hversion (.inr (by decide)) (by decide) 1, fun h => ?_⟩
  have hascii := (hsemantic.mp h).2 '\u0661' (by simp) (by decide)
  exact absurd hascii (by decide)

end Command

end PromptPipeline
