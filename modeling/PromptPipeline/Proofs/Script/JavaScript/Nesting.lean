import PromptPipeline.Script.JavaScript.Scope

/-!
# Nested brackets

The groups of a pattern or a parameter list are found by counting brackets, forwards from an opening
one and backwards from a closing one. Where the brackets are properly nested (`Nested`), all that is
open before a place is closed behind it (`closesAll`), and so a group that starts there ends there:
what stands further behind makes no difference (`takeGroup_append`), and the same holds backwards,
which is forwards in the mirror (`takeGroupBack_append`).
-/

namespace PromptPipeline.JavaScript

/-- The bracket that closes the bracket, or opens it. -/
def Punctuation.partner : Punctuation → Punctuation
  | .openRound => .closeRound
  | .closeRound => .openRound
  | .openSquare => .closeSquare
  | .closeSquare => .openSquare
  | .openCurly => .closeCurly
  | .closeCurly => .openCurly
  | p => p

/-- Brackets are properly nested: each is closed by its partner, behind what it opened before. -/
inductive Nested : List Token → Prop where
  | nil : Nested []
  | cons {t : Token} {ts : List Token} (hopens : t.opens = false) (hcloses : t.closes = false)
      (h : Nested ts) : Nested (t :: ts)
  | group {p : Punctuation} {inner rest : List Token} (hopens : p.opens = true)
      (hinner : Nested inner) (hrest : Nested rest) :
      Nested (.punctuation p :: (inner ++ .punctuation p.partner :: rest))

variable {t : Token} {ts rest more : List Token} {depth outer : Nat}

theorem Nested.append (h : Nested ts) (hrest : Nested rest) : Nested (ts ++ rest) := by
  induction h with
  | nil => exact hrest
  | cons hopens hcloses _ ih => exact .cons hopens hcloses ih
  | group hopens hinner _ _ ih =>
    rw [List.cons_append, List.append_assoc, List.cons_append]
    exact .group hopens hinner ih

/-- The partner of a bracket that opens closes. -/
theorem Token.of_opens {p : Punctuation} (h : p.opens = true) :
    (Token.punctuation p).opens = true ∧ (Token.punctuation p.partner).opens = false ∧
      (Token.punctuation p.partner).closes = true := by
  cases p <;> first | exact ⟨rfl, rfl, rfl⟩ | cases h

/-! ## Counting -/

/-- Whether the tokens close `depth` brackets and all that they open. -/
def closesAll (depth : Nat) : List Token → Bool
  | [] => depth == 0
  | t :: rest =>
    if t.opens then closesAll (depth + 1) rest
    else if t.closes then depth != 0 && closesAll (depth - 1) rest
    else closesAll depth rest

/-- What is nested opens and closes nothing for what follows. -/
theorem Nested.closesAll_append (h : Nested ts) (depth : Nat) (more : List Token) :
    closesAll depth (ts ++ more) = closesAll depth more := by
  induction h generalizing depth more with
  | nil => rfl
  | cons hopens hcloses _ ih =>
    rw [List.cons_append, closesAll, if_neg (by simp [hopens]), if_neg (by simp [hcloses]), ih]
  | @group p inner rest hopens _ _ ihinner ihrest =>
    obtain ⟨hfirst, hlast, hlast'⟩ := Token.of_opens hopens
    rw [List.cons_append, List.append_assoc, List.cons_append, closesAll, if_pos hfirst, ihinner,
      closesAll, if_neg (by simp [hlast]), if_pos hlast', ihrest]
    simp

theorem Nested.closesAll (h : Nested ts) : closesAll 0 ts = true := by
  rw [← List.append_nil ts, h.closesAll_append]
  rfl

/-- A group that starts in what is closed ends there. -/
theorem takeGroup_append (h : closesAll (outer + (depth + 1)) ts = true) (more : List Token) :
    takeGroup (depth + 1) (ts ++ more) = takeGroup (depth + 1) ts := by
  induction ts generalizing depth with
  | nil => simp [closesAll] at h
  | cons t ts ih =>
    rw [closesAll] at h
    rw [List.cons_append, takeGroup, takeGroup]
    split at h
    next hopens => rw [if_pos hopens, if_pos hopens, ih h]
    next hopens =>
      rw [if_neg hopens, if_neg hopens]
      split at h
      next hcloses =>
        rw [if_pos hcloses, if_pos hcloses]
        cases depth with
        -- The group ends here, whatever is open outside.
        | zero => rfl
        | succ depth =>
          have hrest : closesAll (outer + (depth + 1)) ts = true := (Bool.and_eq_true_iff.mp h).2
          rw [if_neg (by omega), if_neg (by omega)]
          exact congrArg (t :: ·) (ih hrest)
      next hcloses => rw [if_neg hcloses, if_neg hcloses, ih h]

/-- What is nested is taken as a whole. -/
theorem Nested.takeGroup_append (h : Nested ts) (depth : Nat) (more : List Token) :
    takeGroup (depth + 1) (ts ++ more) = ts ++ takeGroup (depth + 1) more := by
  induction h generalizing depth more with
  | nil => rfl
  | cons hopens hcloses _ ih =>
    rw [List.cons_append, takeGroup, if_neg (by simp [hopens]), if_neg (by simp [hcloses]), ih]
    rfl
  | @group p inner rest hopens _ _ ihinner ihrest =>
    obtain ⟨hfirst, hlast, hlast'⟩ := Token.of_opens hopens
    rw [List.cons_append, List.append_assoc, List.cons_append, takeGroup, if_pos hfirst, ihinner,
      takeGroup, if_neg (by simp [hlast]), if_pos hlast', if_neg (by omega), Nat.add_sub_cancel,
      ihrest]
    simp

/-! ## The mirror -/

/-- The token with its bracket exchanged for the partner. -/
def Token.mirror : Token → Token
  | .punctuation p => .punctuation p.partner
  | .identifier name => .identifier name

theorem Token.opens_mirror (t : Token) : t.mirror.opens = t.closes := by
  cases t with
  | identifier name => rfl
  | punctuation p => cases p <;> rfl

theorem Token.closes_mirror (t : Token) : t.mirror.closes = t.opens := by
  cases t with
  | identifier name => rfl
  | punctuation p => cases p <;> rfl

theorem Token.mirror_mirror (t : Token) : t.mirror.mirror = t := by
  cases t with
  | identifier name => rfl
  | punctuation p => cases p <;> rfl

/-- Backwards is forwards in the mirror. -/
theorem takeGroupBack_eq (depth : Nat) (ts : List Token) :
    takeGroupBack depth ts = (takeGroup depth (ts.map Token.mirror)).map Token.mirror := by
  induction ts generalizing depth with
  | nil => rfl
  | cons t ts ih =>
    rw [List.map_cons, takeGroupBack, takeGroup, Token.opens_mirror, Token.closes_mirror]
    split
    next => rw [ih, List.map_cons, Token.mirror_mirror]
    next =>
      split
      next =>
        split
        next => rw [List.map_singleton, Token.mirror_mirror]
        next => rw [ih, List.map_cons, Token.mirror_mirror]
      next => rw [ih, List.map_cons, Token.mirror_mirror]

theorem takeGroupBack_append (h : closesAll (outer + (depth + 1)) (ts.map Token.mirror) = true)
    (more : List Token) :
    takeGroupBack (depth + 1) (ts ++ more) = takeGroupBack (depth + 1) ts := by
  rw [takeGroupBack_eq, takeGroupBack_eq, List.map_append, takeGroup_append h]

theorem Token.closes_of_opens (h : t.opens = true) : t.closes = false := by
  cases t with
  | identifier name => cases h
  | punctuation p => cases p <;> first | rfl | cases h

/-- What is closed before a token, read backwards, is open behind it. -/
theorem closesAll_cons (h : closesAll depth (t :: ts) = true) :
    ∃ after, closesAll after ts = true ∧ ∀ before : List Token,
      closesAll depth (before.map Token.mirror) = true →
        closesAll after ((t :: before).map Token.mirror) = true := by
  have hback (after : Nat) (before : List Token) :
      closesAll after ((t :: before).map Token.mirror) =
        if t.closes then closesAll (after + 1) (before.map Token.mirror)
        else if t.opens then after != 0 && closesAll (after - 1) (before.map Token.mirror)
        else closesAll after (before.map Token.mirror) := by
    rw [List.map_cons, closesAll, Token.opens_mirror, Token.closes_mirror]
  rw [closesAll] at h
  split at h
  next hopens =>
    refine ⟨depth + 1, h, fun before hbefore => ?_⟩
    rw [hback, Token.closes_of_opens hopens, if_neg Bool.false_ne_true, if_pos hopens]
    exact hbefore
  next hopens =>
    split at h
    next hcloses =>
      obtain ⟨hdepth, hrest⟩ := Bool.and_eq_true_iff.mp h
      refine ⟨depth - 1, hrest, fun before hbefore => ?_⟩
      rw [hback, if_pos hcloses, Nat.sub_add_cancel]
      · exact hbefore
      · exact Nat.one_le_iff_ne_zero.mpr (bne_iff_ne.mp hdepth)
    next hcloses =>
      refine ⟨depth, h, fun before hbefore => ?_⟩
      rw [hback, if_neg hcloses, if_neg hopens]
      exact hbefore

end PromptPipeline.JavaScript
