import PromptPipeline.Document.TaskGraph

/-!
# Drawings of the task graph

The task graph as a numbered list in execution order, and in the notations of two drawing programs.
-/

namespace PromptPipeline.Pipeline

/-- The line of a task in the numbered list. -/
def textLine (p : Pipeline) (number : Nat) (i : p.TaskIndex) : String :=
  let task := p.taskAt i
  let dependencies := (p.dependencies? task.name).getD []
  let tail := if dependencies = [] then "" else s!" [depends: " ++ ", ".intercalate dependencies ++ "]"
  s!"{number}. {task.name} ({task.executionType.words}) -> " ++ braced task.result ++ tail ++ "\n"

/-- The tasks in execution order, one line each. -/
def toText (p : Pipeline) : Except LogicFault String :=
  p.executionOrder.map fun order =>
    String.join ((order.zipIdx 1).map fun (i, number) => p.textLine number i)

/-- A name in double quotes. -/
def inQuotes (name : String) : String :=
  "\"" ++ name ++ "\""

/-- The graph in the notation of Graphviz. -/
def toDot (p : Pipeline) : String :=
  let node (i : p.TaskIndex) := inQuotes (p.taskAt i).name
  "digraph pipeline \x7b\n    rankdir=TB;\n    node [shape=box, style=rounded];\n\n" ++
    String.join ((List.finRange p.tasks.length).map fun i => "    " ++ node i ++ ";\n") ++
    String.join (p.graph.arcs.map fun a =>
      "    " ++ node a.source ++ " -> " ++ node a.target ++ " [label=" ++ inQuotes a.label ++
        "];\n") ++
    "\x7d\n"

/-- The graph in the notation of Mermaid. -/
def toMermaid (p : Pipeline) : String :=
  let node (i : p.TaskIndex) := s!"t{i.val}"
  "flowchart TD\n" ++
    String.join ((List.finRange p.tasks.length).map fun i =>
      "    " ++ node i ++ "[" ++ inQuotes (p.taskAt i).name ++ "]\n") ++
    String.join (p.graph.arcs.map fun a =>
      "    " ++ node a.source ++ " -->|" ++ a.label ++ "| " ++ node a.target ++ "\n")

end PromptPipeline.Pipeline
