import PromptPipeline.Decimal.Shortest

/-!
# Usage

What calls to text generators cost. A generator may only estimate a number, and a sum is exact only
if all of its parts are. The numbers are of any type with a zero and a sum; runs use double
precision numbers.
-/

namespace PromptPipeline

/-- A number that may be an estimate. -/
structure UncertainNumber (N : Type) where
  value : N
  isExact : Bool
  deriving DecidableEq

namespace UncertainNumber

variable {N : Type}

/-- A known number. -/
def exact (value : N) : UncertainNumber N := ⟨value, true⟩

/-- An estimated number. -/
def estimate (value : N) : UncertainNumber N := ⟨value, false⟩

/-- The number if it is known, else an estimate of zero. -/
def ofOption [Zero N] : Option N → UncertainNumber N
  | some value => exact value
  | none => estimate 0

instance [Zero N] : Zero (UncertainNumber N) := ⟨exact 0⟩

instance [Add N] : Add (UncertainNumber N) :=
  ⟨fun x y => ⟨x.value + y.value, x.isExact && y.isExact⟩⟩

/-- A mark before a number that is an estimate. -/
def mark (x : UncertainNumber N) (text : List Char) : String :=
  .ofList (if x.isExact then text else '~' :: text)

/-- The shortest text of the number. -/
def text (x : UncertainNumber Binary64) : String :=
  x.mark x.value.positionalText

/-- The text of the number with a fixed number of digits after the point. -/
def fixedText (x : UncertainNumber Binary64) (places : Nat) : String :=
  x.mark (x.value.fixedText places)

end UncertainNumber

/-- What calls cost. -/
structure Usage (N : Type) where
  /-- The price in US dollars. -/
  price : UncertainNumber N
  inputTokens : UncertainNumber N
  outputTokens : UncertainNumber N
  deriving DecidableEq

namespace Usage

variable {N : Type}

instance [Zero N] : Zero (Usage N) := ⟨⟨0, 0, 0⟩⟩

instance [Add N] : Add (Usage N) :=
  ⟨fun x y =>
    ⟨x.price + y.price, x.inputTokens + y.inputTokens, x.outputTokens + y.outputTokens⟩⟩

/-- Whether no number is an estimate. -/
def isExact (u : Usage N) : Bool :=
  u.price.isExact && u.inputTokens.isExact && u.outputTokens.isExact

/-- The sum of the parts, added from left to right. -/
def total [Zero N] [Add N] (parts : List (Usage N)) : Usage N :=
  parts.foldl (· + ·) 0

/-- The usage on one line. -/
def summary (u : Usage Binary64) : String :=
  u.inputTokens.fixedText 0 ++ " input tokens, " ++ u.outputTokens.fixedText 0 ++
    " output tokens, $" ++ u.price.fixedText 4

end Usage

end PromptPipeline
