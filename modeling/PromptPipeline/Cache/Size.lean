import PromptPipeline.Decimal.Shortest

/-!
# Sizes

The size of stored data in the largest unit that it fills.
-/

namespace PromptPipeline

/-- A size in bytes as text: whole bytes below a kilobyte, two places above. -/
def sizeText (bytes : Nat) : String :=
  let inUnit (unit : Nat) (name : String) : String :=
    .ofList (((Binary64.ofNat bytes).div (.ofNat unit)).fixedText 2) ++ " " ++ name
  if Nat.pow 1024 3 ≤ bytes then inUnit (Nat.pow 1024 3) "GB"
  else if Nat.pow 1024 2 ≤ bytes then inUnit (Nat.pow 1024 2) "MB"
  else if 1024 ≤ bytes then inUnit 1024 "KB"
  else s!"{bytes} bytes"

end PromptPipeline
