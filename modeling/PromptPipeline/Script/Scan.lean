import PromptPipeline.Script.JavaScript.Scope
import PromptPipeline.Script.Shell.Scope
import PromptPipeline.Text.Fold

/-!
# Script languages

The languages in which a script may be written, by the names that the info text of a code block
may give them, and the parameters that a script reads.
-/

namespace PromptPipeline

/-- A language whose scripts can be scanned for the parameters that they read. -/
inductive ScriptLanguage where
  | javaScript
  | shell
  deriving DecidableEq, Repr

namespace ScriptLanguage

/-- The language that a name in any ASCII case means. -/
def ofName? (name : String) : Option ScriptLanguage :=
  match Text.smallLetters name.toList with
  | "javascript" | "js" | "typescript" | "ts" => some .javaScript
  | "bash" | "sh" | "zsh" | "shell" => some .shell
  | _ => none

/-- The names that a script reads without defining them. The script is never run. -/
def freeNames (language : ScriptLanguage) (script : String) : NameSet :=
  match language with
  | .javaScript => JavaScript.freeNames (JavaScript.tokens script.toList)
  | .shell => Shell.freeNames script.toList

end ScriptLanguage

end PromptPipeline
