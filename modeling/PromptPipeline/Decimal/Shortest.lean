import PromptPipeline.Decimal.Binary64
import PromptPipeline.Decimal.Rounded

/-!
# The shortest decimal

The fewest decimal digits that read back as a given double precision number, and of those the
nearest to it: `shortest`. The number is an exact fraction, and so are the ends of the interval of
fractions that round to it; a grid of `n` digits has at most two candidates, the neighbours of the
number on it.
-/

namespace PromptPipeline.Decimal

/-- The decimal number `coefficient · 10 ^ exponent`. -/
structure Scientific where
  coefficient : Nat
  exponent : Int
  deriving DecidableEq, Repr

/-- The fractions that round to a number, over one denominator: the number is `mid / den`. -/
structure Interval where
  low : Nat
  mid : Nat
  high : Nat
  den : Nat
  closed : Bool
  deriving DecidableEq, Repr

/-- The interval of fractions that round to `significand · 2 ^ exponent`. Below a power of two the
spacing is half as wide; the ends round to the number when its significand is even. -/
def roundingInterval (significand : Nat) (exponent : Int) : Interval :=
  let below := if significand = Nat.pow 2 52 ∧ exponent ≠ Binary64.minExponent then 1 else 2
  let mid := 4 * significand
  let scale := Nat.pow 2 exponent.toNat
  { low := (mid - below) * scale
    mid := mid * scale
    high := (mid + 2) * scale
    den := 4 * Nat.pow 2 (-exponent).toNat
    closed := significand % 2 = 0 }

/-- Whether the fraction `num / den` lies in the interval. -/
def Interval.holds (i : Interval) (num den : Nat) : Bool :=
  if i.closed then i.low * den ≤ num * i.den && num * i.den ≤ i.high * den
  else i.low * den < num * i.den && num * i.den < i.high * den

/-- The least `k` in `[k, k + fuel]` with `num < den · 10 ^ k`. -/
def leadingExponent (num den : Nat) : (fuel k : Nat) → Nat
  | 0, k => k
  | fuel + 1, k => if num < den * Nat.pow 10 k then k else leadingExponent num den fuel (k + 1)

/-- The least `k` in `[k, k + fuel]` with `den ≤ num · 10 ^ k`. -/
def leadingZeros (num den : Nat) : (fuel k : Nat) → Nat
  | 0, k => k
  | fuel + 1, k => if den ≤ num * Nat.pow 10 k then k else leadingZeros num den fuel (k + 1)

/-- The exponent `e` with `10 ^ (e - 1) ≤ num / den < 10 ^ e`. -/
def decimalExponent (num den : Nat) : Int :=
  if den ≤ num then leadingExponent num den 310 1
  else 1 - (leadingZeros num den 330 1 : Int)

/-- The point of the grid `10 ^ exponent` that lies in the interval and nearest to its number, if
one of the two neighbours of the number does. -/
def Interval.gridPoint? (i : Interval) (exponent : Int) : Option Scientific :=
  let up := Nat.pow 10 exponent.toNat
  let down := Nat.pow 10 (-exponent).toNat
  let num := i.mid * down
  let den := i.den * up
  let floor := num / den
  let inside (d : Nat) := i.holds (d * up) down
  match inside floor, inside (floor + 1) with
  | true, true => some ⟨roundHalfEven num den, exponent⟩
  | true, false => some ⟨floor, exponent⟩
  | false, true => some ⟨floor + 1, exponent⟩
  | false, false => none

/-- The first grid with a point in the interval, from one digit on. -/
def Interval.firstGridPoint (i : Interval) (leading : Int) : (fuel digits : Nat) → Scientific
  | 0, digits => ⟨roundHalfEven i.mid i.den, leading - digits⟩
  | fuel + 1, digits =>
    match i.gridPoint? (leading - digits) with
    | some point => point
    | none => i.firstGridPoint leading fuel (digits + 1)

/-- Moves the trailing zeros of the coefficient into the exponent. -/
def Scientific.strip : (fuel : Nat) → Scientific → Scientific
  | 0, x => x
  | fuel + 1, x =>
    if x.coefficient ≠ 0 ∧ x.coefficient % 10 = 0 then
      strip fuel ⟨x.coefficient / 10, x.exponent + 1⟩
    else x

/-- The shortest decimal that reads back as `significand · 2 ^ exponent`. -/
def shortest (significand : Nat) (exponent : Int) : Scientific :=
  if significand = 0 then ⟨0, 0⟩
  else
    let i := roundingInterval significand exponent
    (i.firstGridPoint (decimalExponent i.mid i.den) 17 1).strip 20

/-- The decimal written with a point and without an exponent. -/
def Scientific.positional (x : Scientific) : List Char :=
  let ds := digits x.coefficient
  if 0 ≤ x.exponent then ds ++ List.replicate x.exponent.toNat '0'
  else
    let places := (-x.exponent).toNat
    if places < ds.length then ds.take (ds.length - places) ++ '.' :: ds.drop (ds.length - places)
    else '0' :: '.' :: (List.replicate (places - ds.length) '0' ++ ds)

end PromptPipeline.Decimal

namespace PromptPipeline.Binary64

open Decimal

/-- The sign of a negative number. -/
def signText (negative : Bool) : List Char :=
  if negative then ['-'] else []

/-- The shortest text that reads back, never with an exponent and with a point only if there are
digits after it. -/
def positionalText (x : Binary64) : List Char :=
  match x.value with
  | .finite negative significand exponent =>
    signText negative ++ (shortest significand exponent).positional
  | .infinite negative => signText negative ++ "inf".toList
  | .notANumber => "NaN".toList

/-- The text with a fixed number of digits after the point. -/
def fixedText (x : Binary64) (places : Nat) : List Char :=
  match x.value with
  | .finite negative significand exponent =>
    signText negative ++
      Decimal.fixedText (significand * Nat.pow 2 exponent.toNat) (Nat.pow 2 (-exponent).toNat) places
  | .infinite negative => signText negative ++ "inf".toList
  | .notANumber => "NaN".toList

end PromptPipeline.Binary64
