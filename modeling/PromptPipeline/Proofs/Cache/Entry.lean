import Mathlib.Data.Option.Basic
import PromptPipeline.Cache.Store
import PromptPipeline.Proofs.Json.Record

/-!
# Entries survive their files

What the cache writes for an answer can be read back (`CacheEntry.ofText?_pretty`): the answer comes
back with its raw response in normal form, and is otherwise unchanged. The numbers of the answer
have to survive their texts, and the raw response must not be nested too deep, since the entry wraps
it in two more objects.
-/

namespace PromptPipeline

open Json

/-! ## Moments and numbers -/

/-- Time as clocks tell it: less than a second is counted in nanoseconds, and the seconds fit 63
bits. -/
structure Moment.IsProper (t : Moment) : Prop where
  seconds : t.seconds < Nat.pow 2 63
  nanoseconds : t.nanoseconds < nanosecondsPerSecond

theorem Moment.ofJson?_toJson {t : Moment} (h : t.IsProper) : Moment.ofJson? t.toJson = some t := by
  obtain ⟨hseconds, hnanoseconds⟩ := h
  let members : List (String × Json) :=
    [("secs_since_epoch", .ofNat t.seconds), ("nanos_since_epoch", .ofNat t.nanoseconds)]
  have hrecord : record? memberNames t.toJson = some members := record?_of_nodup (by simp)
  have hs : required? members "secs_since_epoch" (natBelow? UInt64.size) = some t.seconds :=
    if_pos (Nat.lt_trans hseconds (by decide))
  have hn : required? members "nanos_since_epoch" (natBelow? UInt32.size) = some t.nanoseconds :=
    if_pos (Nat.lt_trans hnanoseconds (by decide))
  have honly : guard (f := Option) (hasOnly memberNames t.toJson) = some () := rfl
  have htotal : t.seconds + t.nanoseconds / nanosecondsPerSecond = t.seconds := by
    rw [Nat.div_eq_of_lt hnanoseconds, Nat.add_zero]
  have hfits : guard (f := Option) (t.seconds < Nat.pow 2 63) = some () := if_pos hseconds
  unfold ofJson?
  simp only [honly, hrecord, hs, hn, htotal, Nat.mod_eq_of_lt hnanoseconds, hfits,
    Option.bind_eq_bind, Option.bind_some]

theorem Moment.toJson_readableAt {t : Moment} (h : t.IsProper) (depth : Nat) :
    t.toJson.ReadableAt (depth + 1) := by
  have hseconds : t.seconds ≤ maxSignificand := Nat.le_trans (Nat.le_of_lt h.seconds) (by decide)
  have hnanoseconds : t.nanoseconds ≤ maxSignificand :=
    Nat.le_trans (Nat.le_of_lt h.nanoseconds) (by decide)
  exact ⟨ofNat_readableAt hseconds, ofNat_readableAt hnanoseconds, trivial⟩

/-- Both ends of the timing are proper. -/
structure Timing.IsProper (t : Timing) : Prop where
  start : t.start.IsProper
  complete : t.complete.IsProper

theorem Timing.ofJson?_toJson {t : Timing} (h : t.IsProper) : Timing.ofJson? t.toJson = some t := by
  let members : List (String × Json) :=
    [("start", t.start.toJson), ("complete", t.complete.toJson)]
  have hrecord : record? ["start", "complete"] t.toJson = some members := record?_of_nodup (by simp)
  have hstart : required? members "start" Moment.ofJson? = some t.start :=
    Moment.ofJson?_toJson h.start
  have hcomplete : required? members "complete" Moment.ofJson? = some t.complete :=
    Moment.ofJson?_toJson h.complete
  unfold ofJson?
  simp only [hrecord, hstart, hcomplete, Option.bind_eq_bind, Option.bind_some]

theorem Timing.toJson_readableAt {t : Timing} (h : t.IsProper) (depth : Nat) :
    t.toJson.ReadableAt (depth + 2) :=
  ⟨Moment.toJson_readableAt h.start depth, Moment.toJson_readableAt h.complete depth, trivial⟩

/-- The number survives its text. -/
def Binary64.Survives (x : Binary64) : Prop :=
  (Number.real x).Survives

theorem Binary64.zero_survives : (0 : Binary64).Survives := by
  unfold Survives Number.Survives
  decide +kernel

theorem UncertainNumber.ofJson?_toJson (x : UncertainNumber Binary64) :
    UncertainNumber.ofJson? x.toJson = some x := by
  let members : List (String × Json) :=
    [("value", .number (.real x.value)), ("isExact", .bool x.isExact)]
  have hrecord : record? ["value", "isExact"] x.toJson = some members := record?_of_nodup (by simp)
  have hvalue : required? members "value" real? = some x.value := rfl
  have hexact : required? members "isExact" bool? = some x.isExact := rfl
  unfold ofJson?
  simp only [hrecord, hvalue, hexact, Option.bind_eq_bind, Option.bind_some]

theorem UncertainNumber.toJson_readableAt {x : UncertainNumber Binary64} (h : x.value.Survives)
    (depth : Nat) : x.toJson.ReadableAt (depth + 1) :=
  ⟨by cases depth <;> exact h, by cases depth <;> trivial, trivial⟩

/-- The numbers of the usage survive their texts. -/
structure Usage.Survives (u : Usage Binary64) : Prop where
  price : u.price.value.Survives
  inputTokens : u.inputTokens.value.Survives
  outputTokens : u.outputTokens.value.Survives

theorem Usage.zero_survives : (0 : Usage Binary64).Survives :=
  ⟨Binary64.zero_survives, Binary64.zero_survives, Binary64.zero_survives⟩

theorem Usage.ofJson?_toJson (u : Usage Binary64) : Usage.ofJson? u.toJson = some u := by
  let members : List (String × Json) :=
    [("price", u.price.toJson), ("inputTokens", u.inputTokens.toJson),
      ("outputTokens", u.outputTokens.toJson)]
  have hrecord : record? ["price", "inputTokens", "outputTokens"] u.toJson = some members :=
    record?_of_nodup (by simp)
  have hprice : required? members "price" UncertainNumber.ofJson? = some u.price :=
    UncertainNumber.ofJson?_toJson _
  have hinput : required? members "inputTokens" UncertainNumber.ofJson? = some u.inputTokens :=
    UncertainNumber.ofJson?_toJson _
  have houtput : required? members "outputTokens" UncertainNumber.ofJson? = some u.outputTokens :=
    UncertainNumber.ofJson?_toJson _
  unfold ofJson?
  simp only [hrecord, hprice, hinput, houtput, Option.bind_eq_bind, Option.bind_some]

theorem Usage.toJson_readableAt {u : Usage Binary64} (h : u.Survives) (depth : Nat) :
    u.toJson.ReadableAt (depth + 2) :=
  ⟨UncertainNumber.toJson_readableAt h.price depth,
    UncertainNumber.toJson_readableAt h.inputTokens depth,
    UncertainNumber.toJson_readableAt h.outputTokens depth, trivial⟩

/-! ## Replies and entries -/

/-- What the cache asks of a reply that it is to give back. -/
structure Reply.Storable (r : Reply Binary64) : Prop where
  timing : r.timing.IsProper
  usage : r.usage.Survives
  /-- The raw response stands inside the record of the reply, and this one inside the entry. -/
  rawResponse : r.rawResponse.ReadableAt (maxDepth - 2)

/-- The reply as it comes back: of the raw response, members are looked up by name. -/
def Reply.normal (r : Reply Binary64) : Reply Binary64 :=
  { r with rawResponse := r.rawResponse.normal }

theorem Reply.ofJson?_toJson {r : Reply Binary64} (h : r.timing.IsProper) :
    Reply.ofJson? r.toJson = some r.normal := by
  let members : List (String × Json) :=
    [("content", .string r.content), ("modelName", .string r.modelName),
      ("timing", r.timing.toJson), ("usage", r.usage.toJson), ("rawResponse", r.rawResponse)]
  have hrecord : record? ["content", "modelName", "timing", "usage", "rawResponse"] r.toJson =
      some members := record?_of_nodup (by simp)
  have hcontent : required? members "content" string? = some r.content := rfl
  have hmodel : required? members "modelName" string? = some r.modelName := rfl
  have htiming : required? members "timing" Timing.ofJson? = some r.timing :=
    Timing.ofJson?_toJson h
  have husage : required? members "usage" Usage.ofJson? = some r.usage := Usage.ofJson?_toJson _
  have hraw : required? members "rawResponse" (some ·.normal) = some r.rawResponse.normal := rfl
  unfold ofJson?
  simp only [hrecord, hcontent, hmodel, htiming, husage, hraw, Option.bind_eq_bind,
    Option.bind_some]
  rfl

namespace CacheEntry

variable {e : CacheEntry}

theorem ofJson?_toJson (hmoment : e.timestamp.IsProper) (htiming : e.reply.timing.IsProper) :
    ofJson? e.toJson = some { e with reply := e.reply.normal } := by
  let members : List (String × Json) :=
    [("timestamp", e.timestamp.toJson), ("cacheKey", .string e.key),
      ("promptTitle", .string e.promptTitle), ("result", e.reply.toJson)]
  have hrecord : record? ["timestamp", "cacheKey", "promptTitle", "result"] e.toJson =
      some members := record?_of_nodup (by simp)
  have htimestamp : required? members "timestamp" Moment.ofJson? = some e.timestamp :=
    Moment.ofJson?_toJson hmoment
  have hkey : required? members "cacheKey" string? = some e.key := rfl
  have htitle : required? members "promptTitle" string? = some e.promptTitle := rfl
  have hresult : required? members "result" Reply.ofJson? = some e.reply.normal :=
    Reply.ofJson?_toJson htiming
  unfold ofJson?
  simp only [hrecord, htimestamp, hkey, htitle, hresult, Option.bind_eq_bind, Option.bind_some]

theorem toJson_readable (hmoment : e.timestamp.IsProper) (hreply : e.reply.Storable) :
    e.toJson.Readable :=
  ⟨Moment.toJson_readableAt hmoment _, trivial, trivial,
    ⟨trivial, trivial, Timing.toJson_readableAt hreply.timing _,
      Usage.toJson_readableAt hreply.usage _, hreply.rawResponse, trivial⟩, trivial⟩

/-- **What is written for an answer is read back as the answer.** -/
theorem ofText?_pretty (hmoment : e.timestamp.IsProper) (hreply : e.reply.Storable) :
    ofText? e.toJson.pretty = some { e with reply := e.reply.normal } := by
  unfold ofText?
  rw [read?_pretty (toJson_readable hmoment hreply), Option.bind_some,
    ofJson?_toJson hmoment hreply.timing]

end CacheEntry

end PromptPipeline
