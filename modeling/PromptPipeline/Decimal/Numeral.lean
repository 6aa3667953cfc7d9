/-!
# Numbers in digits

The natural number that digits stand for in a base (`digitsValue?`), and whether a decimal number
with an exponent is within the range of double precision (`isFinite`).
-/

namespace PromptPipeline.Decimal

/-- The value of a hexadecimal digit. -/
def hexValue? (c : Char) : Option Nat :=
  if c.isDigit then some (c.toNat - '0'.toNat)
  else if 'a' ≤ c ∧ c ≤ 'f' then some (c.toNat - 'a'.toNat + 10)
  else if 'A' ≤ c ∧ c ≤ 'F' then some (c.toNat - 'A'.toNat + 10)
  else none

/-- The value of a digit in a base up to sixteen. -/
def digitValue? (base : Nat) (c : Char) : Option Nat :=
  (hexValue? c).filter (· < base)

/-- The number that the digits stand for in a base, if they are digits and there is one. -/
def digitsValue? (base : Nat) (digits : List Char) : Option Nat :=
  if digits = [] then none
  else digits.foldlM (fun n c => (digitValue? base c).map (base * n + ·)) 0

/-- Whether a decimal number is below the least one that double precision takes for infinite. The
number has the digits before and after the point, and an exponent. -/
def isFinite (whole fraction : List Char) (exponent : Int) : Bool :=
  let significand := (digitsValue? 10 (whole ++ fraction)).getD 0
  let scale := exponent - fraction.length
  let length := (Nat.toDigits 10 significand).length
  let bound := Nat.pow 2 1024 - Nat.pow 2 970
  if significand = 0 then true
  else if 400 < length + scale then false
  else if 0 ≤ scale then significand * Nat.pow 10 scale.toNat < bound
  else if scale < -800 - length then true
  else significand < bound * Nat.pow 10 (-scale).toNat

/-- The value of the digits of an exponent, after an optional sign. -/
def exponentValue? : List Char → Option Int
  | '-' :: digits => (digitsValue? 10 digits).map fun n => -(n : Int)
  | '+' :: digits | digits => (digitsValue? 10 digits).map fun n => (n : Int)

end PromptPipeline.Decimal
