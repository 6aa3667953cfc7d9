import PromptPipeline.Error
import PromptPipeline.Expectation.Count
import PromptPipeline.Json.Reader

/-!
# Meeting expectations

Whether a text meets the expectations of a task, and which expectation is the first that it does
not meet.
-/

namespace PromptPipeline

/-- Whether a count compares with the amount as the sign says. -/
def Sign.allows (sign : Sign) (amount actual : Nat) : Bool :=
  match sign with
  | .exactly => actual == amount
  | .minimum => amount ≤ actual
  | .maximum => actual ≤ amount

/-- Whether the text is JSON, apart from white space around it. -/
def isJsonText (text : String) : Bool :=
  (Json.read? (Text.trim text.toList)).isSome

namespace Expectation

/-- Why the text does not meet the expectation, unless it does. -/
def fault? (e : Expectation) (text : String) : Option ExpectationFault :=
  match e with
  | .amount sign unit n =>
    let actual := unit.count text
    if sign.allows n.toNat actual then none else some (.amount sign n unit actual)
  | .format .json => if isJsonText text then none else some .notJson

/-- Whether the text meets the expectation. -/
def holds (e : Expectation) (text : String) : Bool :=
  (e.fault? text).isNone

/-- Why the text does not meet the first expectation that it does not meet. -/
def firstFault? (expectations : List Expectation) (text : String) : Option ExpectationFault :=
  expectations.findSome? (·.fault? text)

/-- Whether the text meets all expectations. -/
def allHold (expectations : List Expectation) (text : String) : Bool :=
  expectations.all (·.holds text)

/-- No expectation has a fault if and only if all of them hold. -/
theorem firstFault?_eq_none_iff {expectations : List Expectation} {text : String} :
    firstFault? expectations text = none ↔ allHold expectations text = true := by
  simp [firstFault?, allHold, holds, List.findSome?_eq_none_iff]

end Expectation

end PromptPipeline
