import PromptPipeline.Proofs.Text.Words

/-!
# The spellings of a keyword

A word spells a keyword if both have the same letters when case is folded (`spells_iff`). Only ASCII
letters, the long s and the Kelvin sign fold to ASCII letters, so a spelling without these two
differs from its keyword in the case of ASCII letters only (`capitals_of_spells`).
-/

namespace PromptPipeline.Text

/-- The letter in the spelling of old prints that folds to an s. -/
def longS : Char := Char.ofNat 0x17F

/-- The sign of the unit that folds to a k. -/
def kelvinSign : Char := Char.ofNat 0x212A

/-- The word with its case folded. -/
def folded (word : List Char) : String :=
  .ofList (word.map foldChar)

/-- The words that spell the keyword. -/
def keyword (k : String) : Language Char :=
  {w | spells k w = true}

/-- The words that spell one of the keywords. -/
def anyOf (ks : List String) : Language Char :=
  {w | spellsAny ks w = true}

/-- The words of ASCII letters in any case. -/
def letters : Language Char :=
  many1 foldsToLetter

/-- The keyword is a word of ASCII letters. -/
def IsKeyword (k : String) : Prop :=
  k.toList ≠ [] ∧ k.toList.all foldsToLetter = true

instance (k : String) : Decidable (IsKeyword k) :=
  inferInstanceAs (Decidable (k.toList ≠ [] ∧ k.toList.all foldsToLetter = true))

variable {k : String} {ks : List String} {w v : List Char} {c : Char}

/-! ## Characters -/

theorem foldChar_eq_toLower (hlong : c ≠ longS) (hkelvin : c ≠ kelvinSign) :
    foldChar c = c.toLower := by
  have hne {d : Char} {n : Nat} (hd : d.toNat = n) (h : c ≠ d) : c.toNat ≠ n :=
    fun heq => h (Char.toNat_inj.mp (heq.trans hd.symm))
  unfold foldChar
  rw [if_neg (hne (by decide) hlong), if_neg (hne (by decide) hkelvin)]

theorem isBlank_of_foldsToLetter (h : foldsToLetter c = true) : isBlank c = false := by
  have hcode : c.toNat = 0x17F ∨ c.toNat = 0x212A ∨ 65 ≤ c.toNat ∧ c.toNat ≤ 90 ∨
      97 ≤ c.toNat ∧ c.toNat ≤ 122 := by
    unfold foldsToLetter foldChar at h
    split at h
    next hlong => exact .inl hlong
    next =>
      split at h
      next hkelvin => exact .inr (.inl hkelvin)
      next =>
        rw [Char.isAlpha_toLower_eq_isAlpha] at h
        simp only [Char.isAlpha, Char.isUpper, Char.isLower, UInt32.le_iff_toNat_le] at h
        grind [Char.toNat_val]
  simp only [isBlank, inRanges, whiteSpaceRanges, List.any_cons, List.any_nil, Bool.or_false,
    Bool.or_eq_false_iff, Bool.and_eq_false_iff, decide_eq_false_iff_not]
  omega

theorem map_foldChar (hlong : longS ∉ w) (hkelvin : kelvinSign ∉ w) :
    w.map foldChar = w.map Char.toLower :=
  List.map_congr_left fun _ hc =>
    foldChar_eq_toLower (ne_of_mem_of_not_mem hc hlong) (ne_of_mem_of_not_mem hc hkelvin)

theorem isBlank_of_isAlpha (h : c.isAlpha = true) : isBlank c = false := by
  have hne {d : Char} (hd : d.isAlpha = false) : c ≠ d := by
    rintro rfl
    exact absurd (h.symm.trans hd) (by decide)
  refine isBlank_of_foldsToLetter ?_
  unfold foldsToLetter
  rw [foldChar_eq_toLower (hne (by decide)) (hne (by decide)), Char.isAlpha_toLower_eq_isAlpha, h]

theorem isBlank_of_isDigit (h : c.isDigit = true) : isBlank c = false := by
  have hcode : 48 ≤ c.toNat ∧ c.toNat ≤ 57 := by
    simpa [Char.isDigit, UInt32.le_iff_toNat_le] using h
  simp only [isBlank, inRanges, whiteSpaceRanges, List.any_cons, List.any_nil, Bool.or_false,
    Bool.or_eq_false_iff, Bool.and_eq_false_iff, decide_eq_false_iff_not]
  omega

theorem isAlpha_of_isDigit (h : c.isDigit = true) : c.isAlpha = false := by
  simp only [Char.isDigit, Char.isAlpha, Char.isUpper, Char.isLower, UInt32.le_iff_toNat_le] at h ⊢
  grind

/-- Only letters have another small letter. -/
theorem toLower_eq_of_isAlpha_eq_false (h : c.isAlpha = false) : c.toLower = c := by
  refine Char.toLower_eq_of_not_isUpper fun hupper => ?_
  simp [Char.isAlpha, hupper] at h

theorem isBlank_toLower (c : Char) : isBlank c.toLower = isBlank c := by
  cases h : c.isAlpha with
  | true => rw [isBlank_of_isAlpha h, isBlank_of_isAlpha (by rwa [Char.isAlpha_toLower_eq_isAlpha])]
  | false => rw [toLower_eq_of_isAlpha_eq_false h]

/-! ## Keywords -/

theorem spells_iff : spells k w = true ↔ folded w = folded k.toList := by
  unfold spells folded
  rw [String.ofList_inj, beq_iff_eq]

theorem spells_eq_false {k' : String} (h : spells k' w = true)
    (hne : folded k'.toList ≠ folded k.toList) : spells k w = false := by
  rw [← Bool.not_eq_true, spells_iff]
  exact fun heq => hne ((spells_iff.mp h).symm.trans heq)

theorem mem_keyword : w ∈ keyword k ↔ spells k w = true :=
  Iff.rfl

theorem mem_anyOf : w ∈ anyOf ks ↔ spellsAny ks w = true :=
  Iff.rfl

theorem spellsAny_iff : spellsAny ks w = true ↔ ∃ k ∈ ks, spells k w = true := by
  simp [spellsAny]

theorem folded_mem_of_anyOf (h : w ∈ anyOf ks) : folded w ∈ ks.map (folded ·.toList) := by
  obtain ⟨k, hk, hspells⟩ := spellsAny_iff.mp h
  exact List.mem_map.mpr ⟨k, hk, (spells_iff.mp hspells).symm⟩

/-- Words that spell keywords one by one are the keywords when case is folded. -/
theorem map_folded_eq {ws : List (List Char)} (h : List.Forall₂ (· ∈ ·) ws (ks.map keyword)) :
    ws.map folded = ks.map (folded ·.toList) := by
  rw [List.forall₂_map_right_iff] at h
  induction h with
  | nil => rfl
  | cons hw _ ih => rw [List.map_cons, List.map_cons, spells_iff.mp hw, ih]

theorem exists_spells_of_mem {ws : List (List Char)}
    (h : List.Forall₂ (· ∈ ·) ws (ks.map keyword)) (hw : w ∈ ws) : ∃ k ∈ ks, spells k w = true := by
  rw [List.forall₂_map_right_iff] at h
  induction h with
  | nil => cases hw
  | cons hfirst _ ih =>
    rcases List.mem_cons.mp hw with rfl | hw
    · exact ⟨_, List.mem_cons_self, hfirst⟩
    · obtain ⟨k, hk, hspells⟩ := ih hw
      exact ⟨k, List.mem_cons_of_mem _ hk, hspells⟩

theorem letters_le_solid : letters ≤ solid := by
  rintro w ⟨hne, hletters⟩
  exact mem_solid.mpr ⟨hne, fun c hc => isBlank_of_foldsToLetter (hletters c hc)⟩

theorem mem_letters_of_solid (hw : w ∈ solid) : w ∈ letters ↔ w.all foldsToLetter = true := by
  rw [List.all_eq_true]
  exact and_iff_right (mem_solid.mp hw).1

/-- What spells a keyword is a word of letters. -/
theorem mem_letters_of_spells (hk : IsKeyword k) (h : spells k w = true) : w ∈ letters := by
  have heq : w.map foldChar = k.toList.map foldChar := by simpa [spells] using h
  obtain ⟨hne, hletters⟩ := hk
  refine ⟨?_, fun c hc => ?_⟩
  · rintro rfl
    exact hne (List.map_eq_nil_iff.mp heq.symm)
  · have hmem : foldChar c ∈ k.toList.map foldChar := heq ▸ List.mem_map_of_mem hc
    obtain ⟨d, hd, hfold⟩ := List.mem_map.mp hmem
    unfold foldsToLetter
    rw [← hfold]
    exact List.all_eq_true.mp hletters d hd

theorem keyword_le_solid (hk : IsKeyword k) : keyword k ≤ solid :=
  fun _ h => letters_le_solid (mem_letters_of_spells hk h)

theorem anyOf_le_solid (hks : ∀ k ∈ ks, IsKeyword k) : anyOf ks ≤ solid := by
  intro w h
  obtain ⟨k, hk, hspells⟩ := spellsAny_iff.mp h
  exact keyword_le_solid (hks k hk) hspells

theorem keywords_le_solid (hks : ∀ k ∈ ks, IsKeyword k) : ∀ L ∈ ks.map keyword, L ≤ solid :=
  List.forall_mem_map.mpr fun k hk => keyword_le_solid (hks k hk)

theorem map_folded_words (hks : ∀ k ∈ ks, IsKeyword k) (h : w ∈ phrase (ks.map keyword)) :
    (words w).map folded = ks.map (folded ·.toList) :=
  map_folded_eq (forall₂_words_of_mem_phrase (keywords_le_solid hks) h)

/-! ## Capitals -/

/-- A word does not have a character that folds to none of the letters of its keyword. -/
theorem notMem_of_spells (hc : foldChar c ∉ k.toList.map foldChar) (h : spells k w = true) :
    c ∉ w := by
  have heq : w.map foldChar = k.toList.map foldChar := by simpa [spells] using h
  intro hmem
  exact hc (heq ▸ List.mem_map_of_mem hmem)

theorem map_toUpper_eq (w : List Char) :
    w.map Char.toUpper = (w.map Char.toLower).map Char.toUpper := by
  rw [List.map_map]
  exact List.map_congr_left fun c _ => (Char.toUpper_toLower_eq_toUpper c).symm

/-- A spelling in ASCII letters has the capitals of its keyword. -/
theorem capitals_of_spells (hk : longS ∉ k.toList ∧ kelvinSign ∉ k.toList)
    (hw : longS ∉ w ∧ kelvinSign ∉ w) (h : spells k w = true) : capitals w = capitals k.toList := by
  have heq : w.map foldChar = k.toList.map foldChar := by simpa [spells] using h
  rw [map_foldChar hw.1 hw.2, map_foldChar hk.1 hk.2] at heq
  unfold capitals
  rw [map_toUpper_eq w, heq, ← map_toUpper_eq]

/-- Words without a long s that spell keywords without a k are the keywords in capitals. -/
theorem map_capitals_eq {ws : List (List Char)}
    (hks : ∀ k ∈ ks, longS ∉ k.toList ∧ foldChar kelvinSign ∉ k.toList.map foldChar)
    (hws : ∀ w ∈ ws, longS ∉ w) (h : List.Forall₂ (· ∈ ·) ws (ks.map keyword)) :
    ws.map capitals = ks.map (capitals ·.toList) := by
  rw [List.forall₂_map_right_iff] at h
  induction h with
  | nil => rfl
  | cons hw _ ih =>
    obtain ⟨⟨hlong, hkelvin⟩, hks⟩ := List.forall_mem_cons.mp hks
    obtain ⟨hlong', hws⟩ := List.forall_mem_cons.mp hws
    have hplain := capitals_of_spells ⟨hlong, mt List.mem_map_of_mem hkelvin⟩
      ⟨hlong', notMem_of_spells hkelvin hw⟩ hw
    rw [List.map_cons, List.map_cons, hplain, ih hks hws]

/-- A long s has no other capital than itself. -/
theorem capitals_ne_of_longS (h : longS ∈ w) {t : String} (ht : longS ∉ t.toList) :
    capitals w ≠ t := by
  rintro rfl
  unfold capitals at ht
  rw [String.toList_ofList] at ht
  exact ht (List.mem_map.mpr ⟨longS, h, by decide⟩)

/-! ## Small letters -/

theorem smallLetters_eq_iff :
    smallLetters w = smallLetters v ↔ w.map Char.toLower = v.map Char.toLower :=
  String.ofList_inj

theorem smallLetters_cons_iff {d : Char} : smallLetters (d :: w) = smallLetters (c :: v) ↔
    d.toLower = c.toLower ∧ smallLetters w = smallLetters v := by
  simp only [smallLetters_eq_iff, List.map_cons, List.cons.injEq]

theorem solid_of_smallLetters (h : smallLetters w = smallLetters v) (hv : v ∈ solid) :
    w ∈ solid := by
  have heq := smallLetters_eq_iff.mp h
  obtain ⟨hne, hsolid⟩ := mem_solid.mp hv
  refine mem_solid.mpr ⟨?_, fun c hc => ?_⟩
  · rintro rfl
    exact hne (List.map_eq_nil_iff.mp heq.symm)
  · obtain ⟨d, hd, hlower⟩ := List.mem_map.mp (heq ▸ List.mem_map_of_mem hc)
    rw [← isBlank_toLower, ← hlower, isBlank_toLower]
    exact hsolid d hd

theorem capitals_of_smallLetters (h : smallLetters w = smallLetters v) :
    capitals w = capitals v := by
  unfold capitals
  rw [map_toUpper_eq w, map_toUpper_eq v, smallLetters_eq_iff.mp h]

/-- A word that differs from a keyword in the case of ASCII letters spells it. -/
theorem spells_of_smallLetters
    (hk : longS ∉ k.toList.map Char.toLower ∧ kelvinSign ∉ k.toList.map Char.toLower)
    (h : smallLetters w = smallLetters k.toList) : spells k w = true := by
  have hfold {v : List Char} (hv : v.map Char.toLower = k.toList.map Char.toLower) :
      v.map foldChar = v.map Char.toLower :=
    map_foldChar (fun hmem => hk.1 (hv ▸ List.mem_map.mpr ⟨longS, hmem, by decide⟩))
      (fun hmem => hk.2 (hv ▸ List.mem_map.mpr ⟨kelvinSign, hmem, by decide⟩))
  have heq := smallLetters_eq_iff.mp h
  unfold spells
  rw [hfold heq, hfold rfl, heq, beq_self_eq_true]

/-- Digits have no case. -/
theorem eq_of_smallLetters_of_isDigit (hv : ∀ c ∈ v, c.isDigit = true)
    (h : smallLetters w = smallLetters v) : w = v := by
  have hsame {u : List Char} (hu : ∀ c ∈ u, c.isAlpha = false) : u.map Char.toLower = u :=
    (List.map_congr_left fun c hc => toLower_eq_of_isAlpha_eq_false (hu c hc)).trans
      (List.map_id' u)
  have heq : w.map Char.toLower = v :=
    (smallLetters_eq_iff.mp h).trans (hsame fun c hc => isAlpha_of_isDigit (hv c hc))
  have hw : ∀ c ∈ w, c.isAlpha = false := by
    intro c hc
    rw [← Char.isAlpha_toLower_eq_isAlpha]
    exact isAlpha_of_isDigit (hv _ (heq ▸ List.mem_map_of_mem hc))
  exact (hsame hw).symm.trans heq

end PromptPipeline.Text
