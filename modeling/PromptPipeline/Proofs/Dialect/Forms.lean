import PromptPipeline.Proofs.Dialect.Stages
import PromptPipeline.Proofs.Dialect.Unambiguous

/-!
# The form of a command

Each command is read in one form only, the form of its kind (`Form.form_of_read?`). So an item asks
for a command if and only if the form of that command reads it (`Command.ofItem_eq_ok_iff`).
-/

namespace PromptPipeline

open Text

/-- The form in which the command is read. -/
def Command.form : Command → Form
  | .pipelineUrl _ => .pipelineUrl
  | .dialectVersion _ => .dialectVersion
  | .execute _ => .execute
  | .model (.variant _) => .modelVariant
  | .model (.name _) => .modelName
  | .model (.maxTokens _) => .modelMaxTokens
  | .joker _ => .joker
  | .parameter _ => .parameter
  | .postprocess _ => .postprocess
  | .expect (.amount ..) => .expectAmount
  | .expect (.format _) => .expectFormat

variable {command : Command} {s : List Char}

/-! ## Commands that are checked -/

theorem versionCommand_eq_ok_iff {version : List Char} : versionCommand version = .ok command ↔
    isVersion version = true ∧ command = .dialectVersion (.ofList version) := by
  unfold versionCommand
  split
  next h => simp [h, @eq_comm _ command]
  next h => simp [h]

/-- The text in braces gives a name if it is one without the white space around it. -/
theorem parameterName_eq_ok_iff {text : List Char} {name : String} :
    parameterName text = .ok name ↔
      Name.isParameter (trim text) = true ∧ name = .ofList (trim text) := by
  unfold parameterName
  dsimp only
  split
  next h => simp [h, @eq_comm _ name]
  next h => simp [h]

theorem declarationCommand_eq_ok_iff {isInput isOutput : Bool} {text rest : List Char} :
    declarationCommand (isInput, isOutput, text, rest) = .ok command ↔
      ∃ name, parameterName text = .ok name ∧
        command = .parameter ⟨name, descriptionOfText rest, isInput, isOutput⟩ := by
  unfold declarationCommand
  rw [bind_eq_ok_iff]
  simp only [Except.ok.injEq, @eq_comm _ command]

theorem form_of_urlCommand {url : List Char} (h : urlCommand url = .ok command) :
    command.form = .pipelineUrl := by
  unfold urlCommand at h
  split_ifs at h
  cases h
  rfl

theorem form_of_versionCommand {version : List Char} (h : versionCommand version = .ok command) :
    command.form = .dialectVersion := by
  obtain ⟨-, rfl⟩ := versionCommand_eq_ok_iff.mp h
  rfl

theorem form_of_maxTokensCommand {text : List Char} (h : maxTokensCommand text = .ok command) :
    command.form = .modelMaxTokens := by
  obtain ⟨n, -, h⟩ := bind_eq_ok_iff.mp h
  split at h
  next => cases h
  next =>
    cases h
    rfl

theorem form_of_amountCommand {sign text unit : List Char}
    (h : amountCommand sign text unit = .ok command) : command.form = .expectAmount := by
  obtain ⟨n, -, h⟩ := bind_eq_ok_iff.mp h
  obtain ⟨u, -, h⟩ := bind_eq_ok_iff.mp h
  cases h
  rfl

theorem form_of_declarationCommand {parts : Bool × Bool × List Char × List Char}
    (h : declarationCommand parts = .ok command) : command.form = .parameter := by
  obtain ⟨name, -, rfl⟩ := declarationCommand_eq_ok_iff.mp h
  rfl

/-! ## The form of a command that is read -/

/-- **The form that reads a command is that of its kind.** -/
theorem Form.form_of_read? {f : Form} (h : f.read? s = some (.ok command)) : command.form = f := by
  unfold read? at h
  split at h
  all_goals try split_ifs at h
  -- the command is there, or it is checked first, or it is made of the text in braces
  all_goals first
    | cases h <;> rfl
    | exact form_of_urlCommand (Option.some.inj h)
    | exact form_of_versionCommand (Option.some.inj h)
    | exact form_of_maxTokensCommand (Option.some.inj h)
    | exact form_of_amountCommand (Option.some.inj h)
    | obtain ⟨parts, -, h⟩ := Option.map_eq_some_iff.mp h
  case h_7 =>
    obtain ⟨name, -, rfl⟩ := map_eq_ok_iff.mp h
    rfl
  case h_8 => exact form_of_declarationCommand h

namespace Command

variable {item : String}

/-- **An item asks for a command if and only if the form of the command reads it.** -/
theorem ofItem_eq_ok_iff :
    ofItem item = .ok command ↔ command.form.read? (trim item.toList) = some (.ok command) := by
  constructor
  · intro h
    unfold ofItem at h
    dsimp only at h
    cases hread : Form.all.findSome? (·.read? (trim item.toList)) with
    | none =>
      rw [hread] at h
      cases h
    | some r =>
      rw [hread] at h
      obtain rfl : r = .ok command := h
      obtain ⟨f, -, hf⟩ := List.exists_of_findSome?_eq_some hread
      rw [Form.form_of_read? hf]
      exact hf
  · intro h
    unfold ofItem
    dsimp only
    rw [Form.findSome?_read? (trimmed_trim _) h (Form.mem_all _)]
    rfl

end Command

end PromptPipeline
