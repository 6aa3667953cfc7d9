import PromptPipeline.Digest.Blake3
import PromptPipeline.Execution.Json
import PromptPipeline.Text.Utf8

/-!
# Cache keys

The key of a call is a digest of what the answer may depend on: the operation, the requirements and
the content, each preceded by its length so that no two fields run together.
-/

namespace PromptPipeline.CacheKey

/-- A length in eight bytes, lowest byte first. -/
def lengthBytes (n : Nat) : List UInt8 :=
  (List.range 8).map fun i => (n / Nat.pow 256 i).toUInt8

/-- A text preceded by its length in bytes. -/
def field (text : String) : List UInt8 :=
  let bytes := Text.utf8Bytes text
  lengthBytes bytes.length ++ bytes

/-- What the key of a call is a digest of. -/
def bytes (operation : ModelVariant) (p : Prompt) : List UInt8 :=
  field operation.label ++ field p.requirements.toJson.compact ++ field p.content

/-- The key of a call. -/
def ofCall (operation : ModelVariant) (p : Prompt) : String :=
  Blake3.hexDigest (bytes operation p)

end PromptPipeline.CacheKey
