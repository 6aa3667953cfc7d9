import PromptPipeline.Collection
import PromptPipeline.Main
import PromptPipeline.Proofs.Document.Validation
import PromptPipeline.Proofs.Document.Faults
import PromptPipeline.Proofs.Document.Satisfiable
import PromptPipeline.Proofs.Execution.History
import PromptPipeline.Proofs.Bindings
import PromptPipeline.Proofs.Cache.Map
import PromptPipeline.Proofs.Collection
import PromptPipeline.Proofs.Dialect.Template
import PromptPipeline.Proofs.Dialect.Source
import PromptPipeline.Proofs.Dialect.Location
import PromptPipeline.Proofs.Dialect.Coverage
import PromptPipeline.Proofs.Dialect.Commands
import PromptPipeline.Proofs.Document.Interchange
import PromptPipeline.Proofs.Execution.Work
import PromptPipeline.Proofs.Execution.Settlement
import PromptPipeline.Proofs.Execution.Reached
import PromptPipeline.Proofs.Execution.Coherent
import PromptPipeline.Proofs.Execution.Invariants
import PromptPipeline.Proofs.Execution.Outcome
import PromptPipeline.Proofs.Execution.Containment
import PromptPipeline.Proofs.Execution.InternalErrors
import PromptPipeline.Proofs.Execution.Reference
import PromptPipeline.Proofs.Execution.Determinism
import PromptPipeline.Proofs.Document.ExecutionOrder
import PromptPipeline.Proofs.Execution.Trace
import PromptPipeline.Proofs.Execution.Resolution
import PromptPipeline.Proofs.Execution.Steps
import PromptPipeline.Proofs.Execution.Success
import PromptPipeline.Proofs.Execution.Jokers
import PromptPipeline.Proofs.Execution.Attempts
import PromptPipeline.Proofs.Execution.Retries
import PromptPipeline.Proofs.Execution.Notifications
import PromptPipeline.Proofs.Execution.Cancellation
import PromptPipeline.Proofs.Execution.Caching
import PromptPipeline.Proofs.Execution.Compiled
import PromptPipeline.Proofs.Execution.Ledger
import PromptPipeline.Proofs.Execution.Fatal
import PromptPipeline.Proofs.Cache.Survival
import PromptPipeline.Proofs.Adapter.Cached
import PromptPipeline.Proofs.Adapter.Filler
import PromptPipeline.Proofs.Dialect.Declarations
import PromptPipeline.Proofs.Dialect.Sections
import PromptPipeline.Proofs.Dialect.Concatenation
import PromptPipeline.Proofs.Dialect.Exchange
import PromptPipeline.Proofs.Dialect.Requirements
import PromptPipeline.Proofs.Dialect.ExecutionTypes
import PromptPipeline.Proofs.Dialect.Respelling
import PromptPipeline.Proofs.Dialect.Versions
import PromptPipeline.Proofs.Dialect.Placeholders
import PromptPipeline.Proofs.Dialect.Substitution
import PromptPipeline.Proofs.Script.JavaScript.Arithmetic
import PromptPipeline.Proofs.Script.JavaScript.Parameters
import PromptPipeline.Proofs.Script.JavaScript.Sequence
import PromptPipeline.Proofs.Script.Shell.Quotation
import PromptPipeline.Proofs.Expectation.Count
import PromptPipeline.Proofs.Adapter.Beginning
import PromptPipeline.Proofs.Execution.Choice
import PromptPipeline.Proofs.Execution.Rounds
import PromptPipeline.Proofs.Execution.Direction
import PromptPipeline.Proofs.Usage
import PromptPipeline.Proofs.Execution.Accounting
import PromptPipeline.Proofs.Cache.Key
import PromptPipeline.Proofs.Document.Neighbours
import PromptPipeline.Proofs.Document.Drawing
import PromptPipeline.Proofs.CommandLine.Verdict
import PromptPipeline.Proofs.Adapter.WhiteSpace
import PromptPipeline.Proofs.Name
import PromptPipeline.Proofs.Adapter.Extraction
import PromptPipeline.Proofs.Execution.Scripts
import PromptPipeline.Proofs.CommandLine.Input
