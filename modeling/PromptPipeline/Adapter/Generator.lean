import PromptPipeline.Adapter.Filler
import PromptPipeline.Adapter.Session
import PromptPipeline.Cache.Key
import PromptPipeline.Document.Model

/-!
# Text generators

The generators that need no service: one that repeats the prompt, one that writes filler text, one
that reads from a sheet of prepared answers, and one that remembers the answers of another one.
-/

namespace PromptPipeline

/-- A reply without its timing. -/
structure PreparedReply where
  content : String
  modelName : String
  usage : Usage Binary64
  rawResponse : Json

/-- The reply to a call. -/
def PreparedReply.at (r : PreparedReply) (timing : Timing) : Reply Binary64 :=
  { content := r.content, modelName := r.modelName, timing, usage := r.usage,
    rawResponse := r.rawResponse }

/-- An answer that is prepared, for every prompt or for those of one task. -/
structure PreparedAnswer where
  /-- The title of the task whose prompts it answers. -/
  title : Option String := none
  answer : Result PreparedReply

/-- A sheet of prepared answers, each of which is used once. -/
structure AnswerSheet where
  title : String
  models : Result (List AvailableModel)
  answers : List PreparedAnswer
  /-- The usage of answers that are not prepared. -/
  usage : Usage Binary64
  /-- Whether prompts for the other operation are refused. -/
  isStrict : Bool
  /-- The number of the call that sets the cancellation signal. -/
  cancelOnCall : Option Nat
  /-- How often the sheet was consulted. -/
  calls : Nat := 0

/-- A text generator. -/
inductive TextGenerator where
  | echo
  | filler (loopLimit : Nat)
  | prepared (sheet : AnswerSheet)
  /-- Answers again what the inner generator answered before. -/
  | cached (inner : TextGenerator) (cache : FileCache)

instance : Inhabited TextGenerator := ⟨.echo⟩

/-- Takes the first item that satisfies `p` out of a list. -/
def takeFirst? {α : Type} (p : α → Bool) : List α → Option (α × List α)
  | [] => none
  | a :: rest => if p a then some (a, rest) else (takeFirst? p rest).map fun (b, l) => (b, a :: l)

/-- A prompt is for the operation that its variant declares. -/
def Prompt.checkOperation (p : Prompt) (operation : ModelVariant) : Result Unit :=
  if p.requirements.variant = operation then .ok ()
  else .error (.execution (.wrongOperation operation p.requirements.variant))

namespace AnswerSheet

/-- The model that serves prompts for which no answer is prepared. -/
def fallbackModel : String := "scripted"

/-- Takes the answer to a prompt from the sheet. A prompt for which none is prepared is answered with
its own content. -/
def take (sheet : AnswerSheet) (p : Prompt) : Result PreparedReply × AnswerSheet :=
  match takeFirst? (fun a : PreparedAnswer => a.title.all (· == p.title)) sheet.answers with
  | some (prepared, answers) => (prepared.answer, { sheet with answers })
  | none =>
    (.ok { content := p.content, modelName := fallbackModel, usage := sheet.usage,
           rawResponse := .null }, sheet)

/-- Consults the sheet for a call. -/
def consult (sheet : AnswerSheet) (operation : ModelVariant) (p : Prompt) :
    Result PreparedReply × AnswerSheet :=
  match if sheet.isStrict then p.checkOperation operation else .ok () with
  | .error e => (.error e, sheet)
  | .ok () => sheet.take p

end AnswerSheet

namespace TextGenerator

/-- The title of the generator. -/
def title : TextGenerator → String
  | echo => "Mocked echo"
  | filler _ => "Mocked fake"
  | prepared sheet => sheet.title
  | cached inner _ => inner.title ++ " (cached)"

/-- The model that serves calls to the generator which repeats the prompt. -/
def echoModel : String := "mocked-echo"

/-- The model that serves calls to the generator of filler text. -/
def fillerModel : String := "mocked-fake"

/-- The models that the generator serves. -/
def models : TextGenerator → Result (List AvailableModel)
  | echo => .ok [⟨"Echo chat", echoModel, .chat⟩, ⟨"Echo completion", echoModel, .completion⟩]
  | filler _ => .ok [⟨"Fake chat", fillerModel, .chat⟩, ⟨"Fake completion", fillerModel, .completion⟩]
  | prepared sheet => sheet.models
  | cached inner _ => inner.models

/-- An answer that costs nothing. -/
def freeReply (content modelName note : String) (timing : Timing) : Reply Binary64 :=
  { content, modelName, timing, usage := 0, rawResponse := .object [("note", .string note)] }

/-- Answers a prompt; the generator may change. -/
def generate (operation : ModelVariant) (p : Prompt) :
    TextGenerator → StateM Session (Result (Reply Binary64) × TextGenerator)
  | echo => do
    let timing := (← get).timing
    let answer := do
      p.checkOperation operation
      .ok (freeReply p.content echoModel "This is mocked echo" timing)
    return (answer, echo)
  | filler loopLimit => do
    let timing := (← get).timing
    let answer := do
      p.checkOperation operation
      .ok (freeReply (← Filler.text loopLimit p) fillerModel "This is mocked fake text" timing)
    return (answer, filler loopLimit)
  | prepared sheet => do
    let sheet := { sheet with calls := sheet.calls + 1 }
    Session.record { generator := sheet.title, operation, prompt := p }
    if sheet.cancelOnCall = some sheet.calls then Session.cancel
    let timing := (← get).timing
    let (answer, sheet) := sheet.consult operation p
    return (answer.map (·.at timing), prepared sheet)
  | cached inner cache => do
    let key := CacheKey.ofCall operation p
    match cache.get (← get).files key with
    | .ok (some entry) => return (.ok entry.reply, cached inner cache)
    | _ =>
      let (answer, inner) ← generate operation p inner
      match answer with
      | .ok reply =>
        modify fun s =>
          match cache.store s.files { timestamp := s.now, key, promptTitle := p.title, reply } with
          | .ok files => { s with files }
          | .error _ => s
      | .error _ => pure ()
      return (answer, cached inner cache)

/-- How often sheets of prepared answers in the generator were consulted. -/
def calls : TextGenerator → Nat
  | echo | filler _ => 0
  | prepared sheet => sheet.calls
  | cached inner _ => inner.calls

end TextGenerator

end PromptPipeline
