import PromptPipeline.CommandLine.Console
import PromptPipeline.Settings

/-!
# Upkeep of the cache

The commands that tell what is in the cache and that clear it.
-/

namespace PromptPipeline.CommandLine

/-- The number of nanoseconds in a second. -/
def nanosecondsPerSecond : Nat := Nat.pow 10 9

/-- The nanoseconds from the epoch to a moment. -/
def nanosecondsSinceEpoch (t : Moment) : Nat :=
  t.seconds * nanosecondsPerSecond + t.nanoseconds

/-- The whole seconds from one moment to another one; nothing if that comes before. -/
def secondsBetween? (t u : Moment) : Option Nat :=
  if nanosecondsSinceEpoch t ≤ nanosecondsSinceEpoch u then
    some ((nanosecondsSinceEpoch u - nanosecondsSinceEpoch t) / nanosecondsPerSecond)
  else none

/-- An age in the largest unit that it fills. -/
def ageText (seconds : Nat) : String :=
  if seconds < 60 then s!"{seconds}s"
  else if seconds < 3600 then s!"{seconds / 60}m"
  else if seconds < 86400 then s!"{seconds / 3600}h"
  else s!"{seconds / 86400}d"

/-- The line about the age of an entry, unless it is from the future. -/
def ageLines (label : String) (now : Moment) (entry : Option Moment) : List String :=
  ((entry.bind (secondsBetween? · now)).map fun seconds =>
    s!"  {label}   {ageText seconds} ago").toList

/-- The least length of the line under a title. -/
def underlineLength : Nat := 40

/-- A title with a line under it. -/
def headerLines (title : String) : List String :=
  [title, .ofList (List.replicate (max title.length underlineLength) '═')]

/-- The lines about a cache. -/
def statsLines (settings : Settings) (now : Moment) (stats : CacheStats) : List String :=
  headerLines "Cache Statistics" ++
    [s!"  Location: {settings.cacheDirectory}",
      "  Enabled:  " ++ (if settings.isCacheEnabled then "yes" else "no"),
      s!"  Entries:  {stats.entries}",
      s!"  Size:     {sizeText stats.sizeInBytes}"] ++
    ageLines "Oldest:" now stats.oldest ++ ageLines "Newest:" now stats.newest

/-- Whether an answer is yes. -/
def isYes (answer : String) : Bool :=
  let letters := Text.trim answer.toList
  letters = ['y'] || letters = ['Y']

namespace Job

/-- The cache of the settings, whose directory is made if it is not there. -/
def openCache (settings : Settings) : Job FileCache := do
  let cache : FileCache := ⟨← locate settings.cacheDirectory⟩
  setFiles (← require (cache.create (← get).session.files))
  return cache

/-- Asks a question and reads the answer. -/
def ask (question : String) : Job String := do
  write question
  let answer : String ← modifyGet fun c =>
    let (answer, session) := Session.readLine.run c.session
    (answer, { c with session })
  awaitInput
  return answer

/-- Tells what is in the cache. -/
def cacheStats (settings : Settings) : Job Unit := do
  let cache ← openCache settings
  let session := (← get).session
  let stats ← require (cache.stats session.files)
  (statsLines settings session.now stats).forM writeLine

/-- Clears the cache, once that is confirmed. -/
def cacheClear (settings : Settings) (isConfirmed : Bool) : Job Unit := do
  let cache ← openCache settings
  let stats ← require (cache.stats (← get).session.files)
  if stats.entries = 0 then writeLine "Cache is already empty."
  else
    let size := sizeText stats.sizeInBytes
    let isWanted ← if isConfirmed then pure true
      else isYes <$> ask s!"Clear {stats.entries} cache entries ({size})? [y/N] "
    if isWanted then
      setFiles (← require (cache.clear (← get).session.files))
      writeLine "Cache cleared."
    else writeLine "Cancelled."

end Job

end PromptPipeline.CommandLine
