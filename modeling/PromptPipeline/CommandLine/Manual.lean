import PromptPipeline.CommandLine.Grammar

/-!
# The manual

What the program says about its arguments.
-/

namespace PromptPipeline.CommandLine

/-- The name and version of the program. -/
def versionText : String := "promptflow 0.1.0"

/-- The commands of the program and the options of each. -/
def helpText : String :=
  "\n".intercalate [
    "Compile, validate and run markdown-defined text-generation pipelines",
    "",
    "Usage: promptflow [OPTIONS] <COMMAND>",
    "",
    "Commands:",
    "  compile <FILE>   Compile a pipeline source to its interchange form",
    "      -f, --format <json|yaml>    Output format",
    "      -o, --output <FILE>         Output file",
    "  validate <PATH>  Validate a pipeline, or every pipeline under a directory",
    "  run <FILE>       Execute a pipeline",
    "      -i, --input <NAME=VALUE>    Input parameter, repeatable",
    "          --llm <echo|fake>       Text-generation backend",
    "          --report <FILE>         Write the execution report as JSON",
    "          --sequential            Run one task at a time",
    "          --no-cache              Bypass the text-generation cache",
    "  graph <FILE>     Show the task graph of a pipeline",
    "      -f, --format <text|dot|mermaid>  Output format",
    "  cache stats      Show cache statistics",
    "  cache clear      Clear the cache",
    "      -y, --yes                   Skip confirmation",
    "  help             Print this message",
    "",
    "Options:",
    "  -v, --verbose          Enable verbose output",
    "  -C, --directory <DIR>  Change to directory before executing",
    "      --config <FILE>    Settings file",
    "  -h, --help             Print help",
    "  -V, --version          Print version"]

/-- Whether the arguments ask for something that is on hand. -/
def UsageFault.isAnswered : UsageFault → Bool
  | helpAsked | versionAsked => true
  | _ => false

/-- What to say about the arguments. -/
def UsageFault.message : UsageFault → String
  | helpAsked | noArguments => helpText
  | versionAsked => versionText
  | missingCommand => "error: a command is required"
  | unknownCommand name => s!"error: unrecognized command '{name}'"
  | unknownArgument text => s!"error: unexpected argument '{text}'"
  | missingOperand name => s!"error: the argument <{name}> was not provided"
  | missingValue name => s!"error: a value is required for '{name}'"
  | invalidValue name value => s!"error: invalid value '{value}' for '{name}'"
  | superfluousValue name value => s!"error: unexpected value '{value}' for '{name}'"
  | repeatedOption name => s!"error: '{name}' can not be used multiple times"

end PromptPipeline.CommandLine
