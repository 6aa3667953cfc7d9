import PromptPipeline.Proofs.Dialect.Placeholders
import PromptPipeline.Proofs.Text.Letter
import PromptPipeline.Script.Shell.Scope

/-!
# Assignments by form

An assignment is found by its form alone: a name right before an equals sign, at the start of a line
or behind a separator. The words that may introduce one (`export`, `local` and so on, with their
options) end in white space, which is a separator, so they add no names. Assignments are looked for
from left to right and do not overlap, and no name is lost by that: where an assignment is found,
there is no other one up to its equals sign.

Main statement: `mem_assignedFrom_iff`, for every script.
-/

namespace PromptPipeline.Shell

open Text

variable {s rest before after name : List Char} {c : Char} {atLineStart : Bool}

/-- An assignment may start behind the text: behind a separator, or at the start of a line. -/
def StartsBehind (atLineStart : Bool) (before : List Char) : Prop :=
  (before = [] ∧ atLineStart = true) ∨ ∃ c ∈ before.getLast?, separatesCommands c = true

/-- Somewhere in the text the name stands right before an equals sign, where an assignment may
start. -/
def AssignsFrom (atLineStart : Bool) (s name : List Char) : Prop :=
  Name.isParameter name = true ∧
    ∃ before after, s = before ++ (name ++ '=' :: after) ∧ StartsBehind atLineStart before

/-! ## Names and separators -/

theorem separatesCommands_of_isParameterPart (h : Name.isParameterPart c = true) :
    separatesCommands c = false := by
  have hmarks : [';', '&', '|', '('].all (!Name.isParameterPart ·) = true := by decide
  have hmark {d : Char} (hd : d ∈ [';', '&', '|', '(']) : c ≠ d := by
    rintro rfl
    simpa [h] using List.all_eq_true.mp hmarks c hd
  simp [separatesCommands, isBlank_of_isParameterPart h, hmark (d := ';'), hmark (d := '&'),
    hmark (d := '|'), hmark (d := '(')]

theorem separatesCommands_of_isBlank (h : isBlank c = true) : separatesCommands c = true := by
  simp [separatesCommands, h]

/-- The start of a line and a separator are the only places where a name starts, so the name that
ends at a given place is unique. -/
theorem eq_of_append_eq {before' name' : List Char} {atLineStart' : Bool}
    (h : before ++ name = before' ++ name') (hname : Name.isParameter name = true)
    (hname' : Name.isParameter name' = true) (hbefore : StartsBehind atLineStart before)
    (hbefore' : StartsBehind atLineStart' before') : name = name' := by
  have hinner {between left : List Char} {first : Bool} (hpart : ∀ c ∈ between,
      Name.isParameterPart c = true) (hstarts : StartsBehind first (left ++ between)) :
      between = [] := by
    by_contra hne
    rcases hstarts with ⟨hnil, -⟩ | ⟨c, hc, hseparates⟩
    · exact hne (List.append_eq_nil_iff.mp hnil).2
    · rw [List.getLast?_append_of_ne_nil _ hne] at hc
      rw [separatesCommands_of_isParameterPart (hpart c (List.mem_of_getLast? hc))] at hseparates
      cases hseparates
  rcases List.append_eq_append_iff.mp h with ⟨between, rfl, rfl⟩ | ⟨between, rfl, rfl⟩
  · obtain rfl := hinner (fun c hc => Template.isParameterPart_of_mem hname
      (List.mem_append_left _ hc)) hbefore'
    rfl
  · obtain rfl := hinner (fun c hc => Template.isParameterPart_of_mem hname'
      (List.mem_append_left _ hc)) hbefore
    rfl

/-! ## What is matched -/

theorem nameAt?_eq_some_iff : nameAt? s = some (name, rest) ↔
    s = name ++ rest ∧ Name.isParameter name = true ∧
      ∀ c ∈ rest.head?, Name.isParameterPart c = false := by
  constructor
  · intro h
    unfold nameAt? at h
    dsimp only at h
    split at h
    next hname =>
      cases h
      exact ⟨List.takeWhile_append_dropWhile.symm, hname, head?_dropWhile s⟩
    next => cases h
  · rintro ⟨rfl, hname, hrest⟩
    have hpart : ∀ c ∈ name, Name.isParameterPart c = true :=
      fun c => Template.isParameterPart_of_mem hname
    simp [nameAt?, takeWhile_run_append hpart hrest, dropWhile_run_append hpart hrest, hname]

theorem plainAssignment?_eq_some_iff : plainAssignment? s = some (name, rest) ↔
    s = name ++ '=' :: rest ∧ Name.isParameter name = true := by
  constructor
  · intro h
    unfold plainAssignment? at h
    split at h
    next name' rest' heq =>
      cases h
      obtain ⟨rfl, hname, -⟩ := nameAt?_eq_some_iff.mp heq
      exact ⟨rfl, hname⟩
    next => cases h
  · rintro ⟨rfl, hname⟩
    have hequals : ∀ c ∈ ('=' :: rest).head?, Name.isParameterPart c = false := by
      intro c hc
      obtain rfl := Option.some.inj hc
      decide
    rw [plainAssignment?, nameAt?_eq_some_iff.mpr ⟨rfl, hname, hequals⟩]
    rfl

theorem exists_of_afterBlanks? (h : afterBlanks? s = some rest) :
    ∃ g, s = g ++ rest ∧ ∃ c ∈ g.getLast?, isBlank c = true ∧ ∀ c ∈ g, isBlank c = true := by
  unfold afterBlanks? at h
  split at h
  next c s =>
    split at h
    next hc =>
      cases h
      have hblank : ∀ d ∈ c :: s.takeWhile isBlank, isBlank d = true :=
        List.forall_mem_cons.mpr ⟨hc, fun d hd => List.mem_takeWhile_imp hd⟩
      refine ⟨c :: s.takeWhile isBlank, ?_, ?_⟩
      · rw [List.cons_append, trimStart, List.takeWhile_append_dropWhile]
      · have hlast := List.getLast?_eq_some_getLast (List.cons_ne_nil c (s.takeWhile isBlank))
        exact ⟨_, hlast, hblank _ (List.mem_of_getLast? hlast), hblank⟩
    next => cases h
  next => cases h

/-- The text has no equals sign, and if there is any then white space at its end. -/
def Introduces (pre : List Char) : Prop :=
  '=' ∉ pre ∧ (pre = [] ∨ ∃ c ∈ pre.getLast?, isBlank c = true)

theorem introduces_nil : Introduces [] :=
  ⟨List.not_mem_nil, .inl rfl⟩

theorem Introduces.append {pre pre' : List Char} (h : Introduces pre) (h' : Introduces pre') :
    Introduces (pre ++ pre') := by
  refine ⟨fun hmem => (List.mem_append.mp hmem).elim h.1 h'.1, ?_⟩
  rcases h'.2 with rfl | ⟨c, hc, hblank⟩
  · rw [List.append_nil]
    exact h.2
  · refine .inr ⟨c, ?_, hblank⟩
    rw [List.getLast?_append, Option.mem_def.mp hc]
    rfl

/-- A word without an equals sign and the white space behind it. -/
theorem introduces_of_afterBlanks? {word : List Char} (hword : '=' ∉ word)
    (h : afterBlanks? s = some rest) : ∃ pre, word ++ s = pre ++ rest ∧ Introduces pre := by
  obtain ⟨g, rfl, c, hc, hblank, hall⟩ := exists_of_afterBlanks? h
  refine ⟨word ++ g, (List.append_assoc _ _ _).symm, ?_, .inr ⟨c, ?_, hblank⟩⟩
  · intro hmem
    rcases List.mem_append.mp hmem with hmem | hmem
    · exact hword hmem
    · exact absurd (hall _ hmem) (by decide)
  · rw [List.getLast?_append, Option.mem_def.mp hc]
    rfl

theorem exists_of_afterOptions (fuel : Nat) (s : List Char) :
    ∃ pre, s = pre ++ afterOptions fuel s ∧ Introduces pre := by
  fun_induction afterOptions fuel s with
  | case1 => exact ⟨[], rfl, introduces_nil⟩
  | case2 fuel rest hword after hafter ih =>
    have hequals : '=' ∉ '-' :: rest.takeWhile isWordChar := by
      rw [List.mem_cons, not_or]
      refine ⟨by decide, fun hmem => ?_⟩
      have hword := List.mem_takeWhile_imp hmem
      rw [isWordChar_eq (by decide)] at hword
      cases hword
    obtain ⟨pre, hpre, hintroduces⟩ := introduces_of_afterBlanks? hequals hafter
    obtain ⟨pre', hpre', hintroduces'⟩ := ih
    refine ⟨pre ++ pre', ?_, hintroduces.append hintroduces'⟩
    rw [List.append_assoc, ← hpre', ← hpre, List.cons_append, List.takeWhile_append_dropWhile]
  | case3 => exact ⟨[], rfl, introduces_nil⟩
  | case4 => exact ⟨[], rfl, introduces_nil⟩

/-- A word behind which an assignment may stand has no equals sign and ends in white space. -/
theorem exists_of_afterDeclarationWord? (h : afterDeclarationWord? s = some rest) :
    ∃ pre, s = pre ++ rest ∧ Introduces pre := by
  have hword {word : List Char} {rest' : List Char} (hequals : '=' ∉ word)
      (hafter : (dropStart? word s).bind afterBlanks? = some rest') :
      ∃ pre, s = pre ++ rest' ∧ Introduces pre := by
    obtain ⟨behind, hbehind, hblanks⟩ := Option.bind_eq_some_iff.mp hafter
    rw [dropStart?_eq_some_iff.mp hbehind]
    exact introduces_of_afterBlanks? hequals hblanks
  unfold afterDeclarationWord? at h
  dsimp only at h
  split at h
  next hexport =>
    cases h
    exact hword (by decide) hexport
  next =>
    split at h
    next hlocal =>
      cases h
      exact hword (by decide) hlocal
    next =>
      split at h
      next hreadonly =>
        cases h
        exact hword (by decide) hreadonly
      next =>
        obtain ⟨rest', hdeclare, rfl⟩ := Option.map_eq_some_iff.mp h
        obtain ⟨pre, hpre, hintroduces⟩ := hword (by decide) hdeclare
        obtain ⟨pre', hpre', hintroduces'⟩ := exists_of_afterOptions rest'.length rest'
        refine ⟨pre ++ pre', ?_, hintroduces.append hintroduces'⟩
        rw [List.append_assoc, ← hpre', hpre]

theorem exists_of_assignmentAt? (h : assignmentAt? s = some (name, rest)) :
    ∃ pre, s = pre ++ (name ++ '=' :: rest) ∧ Name.isParameter name = true ∧ Introduces pre := by
  unfold assignmentAt? at h
  split at h
  next hdeclared =>
    cases h
    obtain ⟨behind, hbehind, hplain⟩ := Option.bind_eq_some_iff.mp hdeclared
    obtain ⟨pre, rfl, hintroduces⟩ := exists_of_afterDeclarationWord? hbehind
    obtain ⟨rfl, hname⟩ := plainAssignment?_eq_some_iff.mp hplain
    exact ⟨pre, rfl, hname, hintroduces⟩
  next =>
    obtain ⟨rfl, hname⟩ := plainAssignment?_eq_some_iff.mp h
    exact ⟨[], rfl, hname, introduces_nil⟩

theorem assignmentAt?_ne_none (hname : Name.isParameter name = true) :
    assignmentAt? (name ++ '=' :: rest) ≠ none := by
  unfold assignmentAt?
  split
  next => exact Option.some_ne_none _
  next =>
    rw [plainAssignment?_eq_some_iff.mpr ⟨rfl, hname⟩]
    exact Option.some_ne_none _

/-- What is found is the assignment that ends at the first equals sign. -/
theorem exists_of_assignmentHere? (h : assignmentHere? atLineStart s = some (name, rest)) :
    ∃ pre, s = pre ++ (name ++ '=' :: rest) ∧ Name.isParameter name = true ∧ '=' ∉ pre ∧
      StartsBehind atLineStart pre := by
  unfold assignmentHere? at h
  dsimp only at h
  split at h
  next hdirect =>
    cases h
    split at hdirect
    next hstart =>
      obtain ⟨pre, rfl, hname, hequals, hblank⟩ := exists_of_assignmentAt? hdirect
      refine ⟨pre, rfl, hname, hequals, ?_⟩
      rcases hblank with hnil | ⟨c, hc, hblank⟩
      · exact .inl ⟨hnil, hstart⟩
      · exact .inr ⟨c, hc, separatesCommands_of_isBlank hblank⟩
    next => cases hdirect
  next c s _ =>
    split at h
    next hseparates =>
      obtain ⟨pre, rfl, hname, hequals, hblank⟩ := exists_of_assignmentAt? h
      have hc : '=' ≠ c := by
        rintro rfl
        exact absurd hseparates (by decide)
      refine ⟨c :: pre, rfl, hname, List.not_mem_cons_of_ne_of_not_mem hc hequals, .inr ?_⟩
      rcases hblank with rfl | ⟨d, hd, hblank⟩
      · exact ⟨c, rfl, hseparates⟩
      · refine ⟨d, ?_, separatesCommands_of_isBlank hblank⟩
        rw [List.getLast?_cons, Option.mem_def.mp hd]
        rfl
    next => cases h
  next => cases h

/-- Where an assignment may start, one is found. -/
theorem assignmentHere?_ne_none (hname : Name.isParameter name = true)
    (hstart : (before = [] ∧ atLineStart = true) ∨
      ∃ c, before = [c] ∧ separatesCommands c = true) :
    assignmentHere? atLineStart (before ++ (name ++ '=' :: after)) ≠ none := by
  unfold assignmentHere?
  dsimp only
  split
  next => exact Option.some_ne_none _
  next c s hdirect heq =>
    rcases hstart with ⟨rfl, rfl⟩ | ⟨d, rfl, hd⟩
    · exact absurd hdirect (assignmentAt?_ne_none hname)
    · obtain ⟨rfl, rfl⟩ := List.cons.inj heq
      rw [if_pos hd]
      exact assignmentAt?_ne_none hname
  next hnil =>
    exact absurd (List.append_eq_nil_iff.mp (List.append_eq_nil_iff.mp hnil).2).2
      (List.cons_ne_nil _ _)

/-! ## All assignments of a text -/

/-- A text is split in one way at its first equals sign. -/
theorem append_equals_inj {left right left' right' : List Char} (hleft : '=' ∉ left)
    (hleft' : '=' ∉ left') (h : left ++ '=' :: right = left' ++ '=' :: right') :
    left = left' ∧ right = right' := by
  induction left generalizing left' with
  | nil =>
    cases left' with
    | nil => exact ⟨rfl, (List.cons.inj h).2⟩
    | cons c left' => exact absurd ((List.cons.inj h).1 ▸ List.mem_cons_self) hleft'
  | cons c left ih =>
    cases left' with
    | nil => exact absurd ((List.cons.inj h).1 ▸ List.mem_cons_self) hleft
    | cons d left' =>
      obtain ⟨rfl, hrest⟩ := List.cons.inj h
      obtain ⟨rfl, rfl⟩ := ih (List.not_mem_of_not_mem_cons hleft)
        (List.not_mem_of_not_mem_cons hleft') hrest
      exact ⟨rfl, rfl⟩

/-- Up to the equals sign of an assignment there is no other one. -/
theorem assignsFrom_append_iff {name' : List Char} (hname : Name.isParameter name = true)
    (hequals : '=' ∉ before) (hstarts : StartsBehind atLineStart before) :
    AssignsFrom atLineStart (before ++ (name ++ '=' :: rest)) name' ↔
      name' = name ∨ AssignsFrom false rest name' := by
  have hnot : '=' ∉ before ++ name := fun hmem => (List.mem_append.mp hmem).elim hequals
    (notMem_of_isParameterPart hname (by decide))
  rw [← List.append_assoc]
  constructor
  · rintro ⟨hname', before', after', heq, hstarts'⟩
    rcases List.append_eq_append_iff.mp heq with ⟨between, hbefore, hrest⟩ |
      ⟨between, hends, hrest⟩
    · -- the equals sign stands before the other name
      cases between with
      | nil =>
        cases name' with
        | nil => exact absurd rfl (ne_nil_of_isParameter hname')
        | cons c name' =>
          obtain ⟨rfl, -⟩ := List.cons.inj hrest
          exact absurd List.mem_cons_self (notMem_of_isParameterPart hname' (by decide))
      | cons c between =>
        obtain ⟨rfl, rfl⟩ := List.cons.inj hrest
        refine .inr ⟨hname', between, after', rfl, ?_⟩
        rcases hstarts' with ⟨hnil, -⟩ | ⟨c, hc, hseparates⟩
        · rw [hnil] at hbefore
          exact absurd hbefore.symm (by simp)
        · cases between with
          | nil =>
            rw [hbefore, List.getLast?_append] at hc
            obtain rfl := Option.some.inj hc
            exact absurd hseparates (by decide)
          | cons d between =>
            refine .inr ⟨c, ?_, hseparates⟩
            rwa [hbefore, List.getLast?_append_of_ne_nil _ (List.cons_ne_nil _ _),
              List.getLast?_cons_cons] at hc
    · -- the equals sign is that of the other name
      rw [hends] at hnot
      obtain ⟨rfl, -⟩ := append_equals_inj
        (fun hmem => hnot (List.mem_append_right _ hmem))
        (notMem_of_isParameterPart hname' (by decide)) hrest.symm
      exact .inl (eq_of_append_eq hends.symm hname' hname hstarts' hstarts)
  · rintro (rfl | ⟨hname', before', after', rfl, hstarts'⟩)
    · exact ⟨hname, before, rest, List.append_assoc _ _ _, hstarts⟩
    · refine ⟨hname', before ++ name ++ '=' :: before', after', ?_, ?_⟩
      · simp only [List.append_assoc, List.cons_append]
      · rcases hstarts' with ⟨-, hfalse⟩ | ⟨c, hc, hseparates⟩
        · cases hfalse
        · refine .inr ⟨c, ?_, hseparates⟩
          rw [List.getLast?_append, List.getLast?_cons, Option.mem_def.mp hc]
          rfl

/-- Where no assignment is found, the text behind the first character has them all. -/
theorem assignsFrom_cons_iff (hnone : assignmentHere? atLineStart (c :: rest) = none) :
    AssignsFrom atLineStart (c :: rest) name ↔ AssignsFrom (c == '\n') rest name := by
  constructor
  · rintro ⟨hname, before, after, heq, hstarts⟩
    refine ⟨hname, ?_⟩
    cases before with
    | nil =>
      rcases hstarts with ⟨-, hstart⟩ | ⟨d, hd, -⟩
      · rw [heq] at hnone
        exact absurd hnone (assignmentHere?_ne_none hname (.inl ⟨rfl, hstart⟩))
      · cases hd
    | cons d before =>
      obtain ⟨rfl, rfl⟩ := List.cons.inj heq
      rcases hstarts with ⟨hnil, -⟩ | ⟨d, hd, hseparates⟩
      · cases hnil
      · cases before with
        | nil =>
          obtain rfl := Option.some.inj hd
          have hfound : assignmentHere? atLineStart ([c] ++ (name ++ '=' :: after)) ≠ none :=
            assignmentHere?_ne_none hname (.inr ⟨c, rfl, hseparates⟩)
          exact absurd hnone hfound
        | cons e before =>
          exact ⟨e :: before, after, rfl, .inr ⟨d, List.getLast?_cons_cons ▸ hd, hseparates⟩⟩
  · rintro ⟨hname, before, after, rfl, hstarts⟩
    refine ⟨hname, c :: before, after, rfl, .inr ?_⟩
    rcases hstarts with ⟨rfl, hline⟩ | ⟨d, hd, hseparates⟩
    · obtain rfl := eq_of_beq hline
      exact ⟨_, rfl, by decide⟩
    · refine ⟨d, ?_, hseparates⟩
      rw [List.getLast?_cons, Option.mem_def.mp hd]
      rfl

/-- **The names assigned in a text** are those that stand right before an equals sign, at the start
of a line or behind a separator. -/
theorem mem_assignedFrom_iff {fuel : Nat} (hfuel : s.length < fuel) (n : String) :
    n ∈ assignedFrom fuel atLineStart s ↔ AssignsFrom atLineStart s n.toList := by
  induction fuel generalizing s atLineStart with
  | zero => exact absurd hfuel (Nat.not_lt_zero _)
  | succ fuel ih =>
    unfold assignedFrom
    split
    next name rest hfound =>
      obtain ⟨pre, rfl, hname, hequals, hstarts⟩ := exists_of_assignmentHere? hfound
      rw [assignsFrom_append_iff hname hequals hstarts, List.mem_cons, ih]
      · rw [← String.toList_inj, String.toList_ofList]
      · simp only [List.length_append, List.length_cons] at hfuel
        omega
    next hnone =>
      cases s with
      | nil =>
        refine iff_of_false List.not_mem_nil ?_
        rintro ⟨-, before, after, heq, -⟩
        exact absurd (congrArg List.length heq) (by simp)
      | cons c rest =>
        rw [assignsFrom_cons_iff hnone]
        exact ih (Nat.lt_of_succ_lt_succ hfuel)

end PromptPipeline.Shell
