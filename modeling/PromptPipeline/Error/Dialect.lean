import PromptPipeline.Document.Kind

/-!
# What can be wrong with a source

Each way in which a pipeline source breaks the rules of the dialect, with its message and, for most
of them, a suggestion.
-/

namespace PromptPipeline

/-- The text in braces, as a source writes a parameter. -/
def braced (name : String) : String :=
  "\x7b" ++ name ++ "\x7d"

/-- A breach of the rules of the dialect. -/
inductive DialectFault where
  | unclosedFence
  | missingTitle
  | emptySource
  | secondTitle
  | unknownCommand (item : String)
  | invalidVersion (version : String)
  | insecureUrl (url : String)
  | urlWithFragment (url : String)
  | zeroMaxTokens
  | invalidParameterName (name : String)
  | invalidAmount (text : String)
  | unknownUnit (text : String)
  | repeatedCommand (keyword : String)
  | taskCommandInHeader (keyword : String)
  | headerCommandInTask (keyword : String)
  | contentInHeader
  | missingVersion
  | noParameters
  | namelessTask (title : String)
  | secondCodeBlock (task : String)
  | secondArrow (task : String)
  | malformedArrow (text : String)
  | earlyArrow
  | missingCodeBlock (task : String)
  | missingArrow (task : String)
  | unsupportedLanguage (language : String)
  | misplacedModel (task : String) (type : ExecutionType)
  | conflictingFacets (parameter : String)
  /-- A fault that an adapter reports in its own words. -/
  | reported (message : String)
  deriving DecidableEq

namespace DialectFault

/-- What is wrong. -/
def message : DialectFault → String
  | unclosedFence => "Code block is not closed"
  | missingTitle => "Pipeline must start with a level-1 heading"
  | emptySource => "Pipeline source is empty"
  | secondTitle => "Pipeline can have only one level-1 heading"
  | unknownCommand item => s!"Unknown command `{item}`"
  | invalidVersion version => s!"Invalid version `{version}`"
  | insecureUrl url => s!"Pipeline URL `{url}` must use https"
  | urlWithFragment url => s!"Pipeline URL `{url}` must not contain a fragment"
  | zeroMaxTokens => "MODEL MAX TOKENS must be positive"
  | invalidParameterName name => s!"Invalid parameter name {braced name}"
  | invalidAmount text => s!"Invalid amount `{text}`"
  | unknownUnit text => s!"Unknown expectation unit `{text}`"
  | repeatedCommand keyword => s!"{keyword} is set more than once"
  | taskCommandInHeader keyword => s!"{keyword} can only be used inside a task section"
  | headerCommandInTask keyword => s!"{keyword} can only be used in the pipeline header"
  | contentInHeader => "Content outside of a task section"
  | missingVersion => "Missing dialect version"
  | noParameters => "Pipeline declares no parameters"
  | namelessTask title => s!"Section title `{title}` does not yield a task name"
  | secondCodeBlock task => s!"Task '{task}' has more than one code block"
  | secondArrow task => s!"Task '{task}' has more than one `->` line"
  | malformedArrow text => s!"Malformed result line `{text}`"
  | earlyArrow => "The `->` line must follow the task's code block"
  | missingCodeBlock task => s!"Task '{task}' has no code block"
  | missingArrow task => s!"Task '{task}' does not name its result"
  | unsupportedLanguage language => s!"Unsupported script language `{language}`"
  | misplacedModel task type =>
    s!"MODEL commands in task '{task}' need EXECUTE PROMPT TEMPLATE, not {type.words}"
  | conflictingFacets parameter =>
    s!"Parameter {braced parameter} is redeclared with different input/output facets"
  | reported message => message

/-- What to do about it. -/
def help : DialectFault → Option String
  | missingTitle => some "Start the document with `# Title`"
  | unknownCommand _ =>
    some ("Commands: PIPELINE URL, PROMPTBOOK VERSION, [INPUT|OUTPUT] PARAMETER, EXECUTE, " ++
      "MODEL, JOKER, POSTPROCESSING, EXPECT")
  | invalidVersion _ => some "Use a semantic version like 1.0.0"
  | insecureUrl _ => some "Use https://... as the pipeline identity"
  | invalidAmount _ => some "Amounts are whole non-negative numbers"
  | taskCommandInHeader _ => some "Move it under a `##` task heading"
  | headerCommandInTask _ => some "Move it above the first `##` heading"
  | contentInHeader => some "Put code blocks and `->` lines under a `##` task heading"
  | missingVersion => some "Add `- PROMPTBOOK VERSION 1.0.0` to the pipeline header"
  | noParameters =>
    some ("Add `- INPUT PARAMETER " ++ braced "name" ++ "` or `- OUTPUT PARAMETER " ++
      braced "name" ++ "` to the header")
  | secondCodeBlock _ => some "Each task section holds exactly one fenced block"
  | malformedArrow _ => some ("Write the result as `-> " ++ braced "parameterName" ++ "`")
  | missingCodeBlock _ => some "Add a fenced block with the template or script"
  | missingArrow _ => some ("End the section with `-> " ++ braced "parameterName" ++ "`")
  | unsupportedLanguage _ => some "Scripts are written in javascript or bash"
  | conflictingFacets _ =>
    some "Declare each parameter once, or repeat it with the same INPUT/OUTPUT keywords"
  | _ => none

end DialectFault

end PromptPipeline
