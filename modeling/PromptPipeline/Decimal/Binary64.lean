/-!
# Double precision numbers

A number in the 64-bit binary format, kept as its bits so that equal values are equal numbers. A
finite number is `± significand · 2 ^ exponent`; all printing goes through that exact value.
-/

namespace PromptPipeline

/-- A number in the double precision format. -/
structure Binary64 where
  bits : UInt64
  deriving DecidableEq, Inhabited

namespace Binary64

/-- What the bits say. -/
inductive Value where
  | finite (negative : Bool) (significand : Nat) (exponent : Int)
  | infinite (negative : Bool)
  | notANumber
  deriving DecidableEq, Repr

/-- The least exponent, which the smallest numbers share. -/
def minExponent : Int := -1074

/-- The value that the bits stand for. -/
def value (x : Binary64) : Value :=
  let n := x.bits.toNat
  let negative := n / Nat.pow 2 63 % 2 == 1
  let biased : Nat := n / Nat.pow 2 52 % Nat.pow 2 11
  let fraction : Nat := n % Nat.pow 2 52
  if biased == 2047 then
    if fraction == 0 then .infinite negative else .notANumber
  else if biased == 0 then .finite negative fraction minExponent
  else .finite negative (Nat.pow 2 52 + fraction) ((biased : Int) - 1 + minExponent)

/-- The number with the bits of a machine number. -/
def ofFloat (x : Float) : Binary64 := ⟨x.toBits⟩

/-- The machine number with these bits. -/
def toFloat (x : Binary64) : Float := Float.ofBits x.bits

/-- The rounded sum. -/
def add (x y : Binary64) : Binary64 := ofFloat (x.toFloat + y.toFloat)

/-- The rounded product. -/
def mul (x y : Binary64) : Binary64 := ofFloat (x.toFloat * y.toFloat)

/-- The rounded quotient. -/
def div (x y : Binary64) : Binary64 := ofFloat (x.toFloat / y.toFloat)

/-- The number with the other sign. -/
def neg (x : Binary64) : Binary64 := ofFloat (-x.toFloat)

/-- The number nearest to a natural number. -/
def ofNat (n : Nat) : Binary64 := ofFloat (Float.ofScientific n false 0)

instance : Zero Binary64 := ⟨⟨0⟩⟩

instance : Add Binary64 := ⟨add⟩

/-- Whether the number is infinite. -/
def isInfinite (x : Binary64) : Bool :=
  match x.value with
  | .infinite _ => true
  | _ => false

/-- Whether the number is neither infinite nor undefined. -/
def isFinite (x : Binary64) : Bool :=
  match x.value with
  | .finite .. => true
  | _ => false

/-- Whether the number is zero, of either sign. -/
def isZero (x : Binary64) : Bool :=
  match x.value with
  | .finite _ 0 _ => true
  | _ => false

end Binary64

end PromptPipeline
