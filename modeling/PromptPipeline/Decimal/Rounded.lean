/-!
# Rounding to a decimal grid

Decimal text of an exact fraction with a fixed number of places. Main statement:
`roundHalfEven_near`, the rounded quotient is within half a unit of the exact one.
-/

namespace PromptPipeline.Decimal

/-- The digits of a natural number. -/
def digits (n : Nat) : List Char :=
  Nat.toDigits 10 n

/-- The integer nearest to `num / den`; of two equally near ones the even one. -/
def roundHalfEven (num den : Nat) : Nat :=
  let floor := num / den
  let twice := 2 * (num % den)
  if twice < den then floor
  else if den < twice then floor + 1
  else if floor % 2 = 0 then floor
  else floor + 1

/-- Twice the error of the rounded quotient is at most one unit. -/
theorem roundHalfEven_near (num den : Nat) (h : 0 < den) :
    2 * num ≤ 2 * (roundHalfEven num den * den) + den ∧
      2 * (roundHalfEven num den * den) ≤ 2 * num + den := by
  have hdiv := Nat.div_add_mod num den
  have hlt := Nat.mod_lt num h
  have key : num = num / den * den + num % den := by rw [Nat.mul_comm]; exact hdiv.symm
  have hsucc : (num / den + 1) * den = num / den * den + den := Nat.succ_mul ..
  simp only [roundHalfEven]
  split
  · omega
  · split
    · rw [hsucc]; omega
    · split
      · omega
      · rw [hsucc]; omega

/-- The text of `num / den` with exactly `places` digits after the point, and without a point if
there are none. -/
def fixedText (num den places : Nat) : List Char :=
  let scaled := roundHalfEven (num * Nat.pow 10 places) den
  let ds := digits scaled
  let padded := List.replicate (places + 1 - ds.length) '0' ++ ds
  if places = 0 then padded
  else padded.take (padded.length - places) ++ '.' :: padded.drop (padded.length - places)

end PromptPipeline.Decimal
