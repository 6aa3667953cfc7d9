import PromptPipeline.Document.Json

/-!
# Models on offer
-/

namespace PromptPipeline

open Json

/-- A model that a text generator serves. -/
structure AvailableModel where
  title : String
  name : String
  variant : ModelVariant
  deriving DecidableEq

namespace AvailableModel

/-- The model as a record. -/
def toJson (m : AvailableModel) : Json :=
  .object [("modelTitle", .string m.title), ("modelName", .string m.name),
    ("modelVariant", .string m.variant.label)]

/-- The model that a record stands for. -/
def ofJson? (j : Json) : Option AvailableModel := do
  let ms ← record? ["modelTitle", "modelName", "modelVariant"] j
  let title ← required? ms "modelTitle" string?
  let name ← required? ms "modelName" string?
  let variant ← required? ms "modelVariant" (choice? ModelVariant.names)
  some { title, name, variant }

/-- Whether the model has the name and the variant. -/
def serves (m : AvailableModel) (name : String) (variant : ModelVariant) : Bool :=
  m.name == name && m.variant == variant

end AvailableModel

end PromptPipeline
