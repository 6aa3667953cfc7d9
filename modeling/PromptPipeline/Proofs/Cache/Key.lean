import PromptPipeline.Cache.Key
import PromptPipeline.Proofs.Document.Interchange
import PromptPipeline.Proofs.Text.PrefixFree

/-!
# Cache keys tell calls apart

What the key of a call is a digest of can be read off from its front. The length before a field has
eight bytes, whatever it is. Neither name of an operation starts the other one, and the text of the
requirements is that of an object, which ends with its closing brace; so it is plain where the first
two fields end, without even a look at the lengths, and the content is the rest
(`eq_of_bytes_eq`). Two calls with the same key are therefore the same call, or else the digest of
two different lists of bytes is the same (`key_separates_calls`).

What the digest does is no part of the argument: that it has no collisions is not true of any
digest, and so the collision is one of the two cases and not ruled out by a hypothesis.
-/

namespace PromptPipeline

/-- Two lists of bytes that are not the same and have the same digest. -/
def Blake3.Collide (bytes bytes' : List UInt8) : Prop :=
  bytes ≠ bytes' ∧ digest bytes = digest bytes'

namespace CacheKey

variable {operation operation' : ModelVariant} {p q : Prompt} {text text' : String}
  {x y : List UInt8}

/-- Two calls agree on all that an answer may depend on. -/
structure SameCall (operation : ModelVariant) (p : Prompt) (operation' : ModelVariant)
    (q : Prompt) : Prop where
  operation : operation = operation'
  variant : p.requirements.variant = q.requirements.variant
  modelName : p.requirements.modelName = q.requirements.modelName
  maxTokens : p.requirements.maxTokens = q.requirements.maxTokens
  content : p.content = q.content

/-! ## Fields -/

@[simp]
theorem length_lengthBytes (n : Nat) : (lengthBytes n).length = 8 := by
  rw [lengthBytes, List.length_map, List.length_range]

/-- Where two fields start alike, so do the texts in them. -/
theorem utf8Bytes_append_eq (h : field text ++ x = field text' ++ y) :
    Text.utf8Bytes text ++ x = Text.utf8Bytes text' ++ y := by
  rw [field, field, List.append_assoc, List.append_assoc] at h
  have hlength : (lengthBytes (Text.utf8Bytes text).length).length =
      (lengthBytes (Text.utf8Bytes text').length).length := by
    rw [length_lengthBytes, length_lengthBytes]
  exact (List.append_inj h hlength).2

/-- No name of an operation starts another one. -/
theorem operation_eq_of_field
    (h : field operation.label ++ x = field operation'.label ++ y) : operation = operation' := by
  have hlabels : ∀ o o' : ModelVariant, o.label.toList <+: o'.label.toList → o = o' := by
    intro o o'
    cases o <;> cases o' <;> decide
  rcases Text.isPrefix_or_isPrefix_of_utf8Bytes (utf8Bytes_append_eq h) with hstart | hstart
  · exact hlabels _ _ hstart
  · exact (hlabels _ _ hstart).symm

/-- No text of requirements starts the text of others. -/
theorem requirements_eq_of_isPrefix {r r' : ModelRequirements}
    (h : r.toJson.compact.toList <+: r'.toJson.compact.toList) : r = r' := by
  rw [Json.compact, Json.compact, String.toList_ofList, String.toList_ofList] at h
  have hjson : r.toJson = r'.toJson :=
    congrArg Json.object
      (Json.eq_of_compact_isPrefix (r.toJson_readableAt 126) (r'.toJson_readableAt 126) h)
  have hsame : some r = some r' := by
    rw [← r.ofJson?_toJson, ← r'.ofJson?_toJson, hjson]
  exact Option.some.inj hsame

theorem requirements_eq_of_field {r r' : ModelRequirements}
    (h : field r.toJson.compact ++ x = field r'.toJson.compact ++ y) : r = r' := by
  rcases Text.isPrefix_or_isPrefix_of_utf8Bytes (utf8Bytes_append_eq h) with hstart | hstart
  · exact requirements_eq_of_isPrefix hstart
  · exact (requirements_eq_of_isPrefix hstart).symm

theorem field_injective : Function.Injective field := by
  intro text text' h
  have hbytes : Text.utf8Bytes text ++ [] = Text.utf8Bytes text' ++ [] :=
    utf8Bytes_append_eq (congrArg (· ++ []) h)
  rw [List.append_nil, List.append_nil] at hbytes
  exact Text.utf8Bytes_injective hbytes

/-! ## Calls -/

/-- **Whatever an answer may depend on can be read off from the bytes of a call.** -/
theorem eq_of_bytes_eq (h : bytes operation p = bytes operation' q) :
    operation = operation' ∧ p.requirements = q.requirements ∧ p.content = q.content := by
  rw [bytes, bytes, List.append_assoc, List.append_assoc] at h
  have hoperation := operation_eq_of_field h
  rw [hoperation] at h
  have hfields := List.append_cancel_left h
  have hrequirements := requirements_eq_of_field hfields
  rw [hrequirements] at hfields
  exact ⟨hoperation, hrequirements, field_injective (List.append_cancel_left hfields)⟩

theorem bytes_eq_iff :
    bytes operation p = bytes operation' q ↔ SameCall operation p operation' q := by
  constructor
  · intro h
    obtain ⟨hoperation, hrequirements, hcontent⟩ := eq_of_bytes_eq h
    exact ⟨hoperation, congrArg _ hrequirements, congrArg _ hrequirements,
      congrArg _ hrequirements, hcontent⟩
  · intro h
    have hrequirements : p.requirements = q.requirements := by
      cases hp : p.requirements
      cases hq : q.requirements
      have hvariant := h.variant
      have hname := h.modelName
      have htokens := h.maxTokens
      rw [hp, hq] at hvariant hname htokens
      rw [ModelRequirements.mk.injEq]
      exact ⟨hvariant, hname, htokens⟩
    unfold bytes
    rw [h.operation, hrequirements, h.content]

/-- **Cache keys separate calls.** The bytes that a key is a digest of are the same exactly for
calls that agree on the operation, the requirements and the content; and two calls have the same
key exactly if they agree on all of these, unless their bytes are a collision of the digest. -/
theorem key_separates_calls (operation operation' : ModelVariant) (p q : Prompt) :
    (bytes operation p = bytes operation' q ↔ SameCall operation p operation' q) ∧
      (ofCall operation p = ofCall operation' q ↔
        SameCall operation p operation' q ∨
          Blake3.Collide (bytes operation p) (bytes operation' q)) := by
  refine ⟨bytes_eq_iff, ?_⟩
  unfold ofCall
  rw [Blake3.hexDigest_inj, ← bytes_eq_iff, Blake3.Collide]
  by_cases hbytes : bytes operation p = bytes operation' q
  · exact ⟨fun _ => .inl hbytes, fun _ => congrArg _ hbytes⟩
  · exact ⟨fun hdigest => .inr ⟨hbytes, hdigest⟩,
      fun h => h.elim (absurd · hbytes) (·.2)⟩

end CacheKey

end PromptPipeline
