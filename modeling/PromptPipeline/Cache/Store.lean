import PromptPipeline.Cache.Size
import PromptPipeline.Execution.Json
import PromptPipeline.Files.Path

/-!
# A cache in a directory

Answers of text generators, one file for each key: the first two bytes of the key name a directory
in the directory of the cache, and the rest names the file.
-/

namespace PromptPipeline

/-- An answer in the cache. -/
structure CacheEntry where
  /-- When the answer came into the cache. -/
  timestamp : Moment
  key : String
  /-- The title of the task that asked. -/
  promptTitle : String
  reply : Reply Binary64

namespace CacheEntry

open Json

/-- The entry as a record. -/
def toJson (e : CacheEntry) : Json :=
  .object [("timestamp", e.timestamp.toJson), ("cacheKey", .string e.key),
    ("promptTitle", .string e.promptTitle), ("result", e.reply.toJson)]

/-- The entry that a record stands for. -/
def ofJson? (j : Json) : Option CacheEntry := do
  let ms ← record? ["timestamp", "cacheKey", "promptTitle", "result"] j
  let timestamp ← required? ms "timestamp" Moment.ofJson?
  let key ← required? ms "cacheKey" string?
  let promptTitle ← required? ms "promptTitle" string?
  let reply ← required? ms "result" Reply.ofJson?
  some { timestamp, key, promptTitle, reply }

/-- The entry that a text stands for. -/
def ofText? (text : String) : Option CacheEntry :=
  (Json.read? text.toList).bind ofJson?

end CacheEntry

/-- Whether a moment comes before another one, or is the same. -/
def Moment.le (t u : Moment) : Bool :=
  t.seconds < u.seconds || (t.seconds == u.seconds && t.nanoseconds ≤ u.nanoseconds)

/-- What there is to know about a cache. -/
structure CacheStats where
  entries : Nat
  sizeInBytes : Nat
  oldest : Option Moment
  newest : Option Moment

/-- A cache in a directory. -/
structure FileCache where
  location : Location

namespace FileCache

/-- An operation of the file system on behalf of the cache. -/
def attempt {α : Type} (action : CacheAction) (r : Except FileFault α) : Result α :=
  r.mapError fun fault => .cache (.file action fault.message)

/-- The first characters of a key that fit into a number of bytes, and the others. -/
def splitKey : (room : Nat) → List Char → List Char × List Char
  | _, [] => ([], [])
  | room, c :: rest =>
    if c.utf8Size ≤ room then
      let (start, rest) := splitKey (room - c.utf8Size) rest
      (c :: start, rest)
    else ([], c :: rest)

/-- Where the entry of a key is. -/
def entryLocation (c : FileCache) (key : String) : Location :=
  let (start, rest) := splitKey 2 key.toList
  FilePath.resolve (FilePath.resolve c.location (.ofList start)) (.ofList rest ++ ".json")

/-- Makes the directory of a cache unless it is there. -/
def create (c : FileCache) (files : FileTree) : Result FileTree :=
  if files.contains c.location then .ok files
  else attempt .createDirectory (files.makeDirectories c.location)

/-- The entry of a key. -/
def get (c : FileCache) (files : FileTree) (key : String) : Result (Option CacheEntry) := do
  let location := c.entryLocation key
  if files.contains location then
    let text ← attempt .readEntry (files.readText location)
    match CacheEntry.ofText? text with
    | some entry => .ok (some entry)
    | none => .error (.cache .malformedEntry)
  else .ok none

/-- Puts an entry under its key, in place of one that may be there. -/
def store (c : FileCache) (files : FileTree) (entry : CacheEntry) : Result FileTree := do
  let location := c.entryLocation entry.key
  let files ← attempt .createDirectory (files.makeDirectories location.dropLast)
  attempt .writeEntry (files.write location (Text.utf8Bytes entry.toJson.pretty))

/-- Removes the entry of a key. -/
def invalidate (c : FileCache) (files : FileTree) (key : String) : Result FileTree :=
  let location := c.entryLocation key
  if files.contains location then attempt .removeEntry (files.removeFile location)
  else .ok files

/-- Removes all that is in the directory of the cache. -/
def clear (c : FileCache) (files : FileTree) : Result FileTree :=
  if files.contains c.location then
    if files.isDirectory c.location then
      attempt .recreateDirectory ((files.removeTree c.location).makeDirectories c.location)
    else attempt .clear (.error .notDirectory)
  else .ok files

/-- Whether a name ends with a dot and the extension, with something before the dot. -/
def hasExtension (extension name : String) : Bool :=
  match Text.dropEnd? ('.' :: extension.toList) name.toList with
  | some (_ :: _) => true
  | _ => false

/-- The entries that can be read. -/
def entries (c : FileCache) (files : FileTree) : Result (List CacheEntry) :=
  match files.at? c.location with
  | none => .ok []
  | some (.file _) => attempt .readDirectory (.error .notDirectory)
  | some .directory => .ok <|
    (files.children c.location).flatMap fun (shard, node) =>
      if node = .directory then
        (files.children (c.location ++ [shard])).filterMap fun (name, node) =>
          match node with
          | .file bytes =>
            if hasExtension "json" name then (Text.ofUtf8? bytes).bind CacheEntry.ofText? else none
          | .directory => none
      else []

/-- The least of some moments. -/
def earliest? : List Moment → Option Moment
  | [] => none
  | t :: rest => some (rest.foldl (fun t u => if t.le u then t else u) t)

/-- The greatest of some moments. -/
def latest? : List Moment → Option Moment
  | [] => none
  | t :: rest => some (rest.foldl (fun t u => if t.le u then u else t) t)

/-- What there is to know about the cache. -/
def stats (c : FileCache) (files : FileTree) : Result CacheStats := do
  let entries ← c.entries files
  let times := entries.map (·.timestamp)
  .ok { entries := entries.length, sizeInBytes := files.sizeBelow c.location,
        oldest := earliest? times, newest := latest? times }

end FileCache

end PromptPipeline
