import PromptPipeline.Document.Pipeline
import PromptPipeline.Error
import PromptPipeline.Graph.Cycle
import PromptPipeline.Graph.Order

/-!
# The task graph of a pipeline

The tasks of a pipeline are the vertices of a graph; an arc leads from the task that produces a
parameter to each task that requires it. The graph is defined for every document; where several
tasks produce one parameter, the last of them counts, and where several tasks have one name, the
first of them answers to it.
-/

namespace PromptPipeline.Pipeline

/-- The positions of tasks in the document. -/
abbrev TaskIndex (p : Pipeline) := Fin p.tasks.length

/-- The task at a position. -/
def taskAt (p : Pipeline) (i : p.TaskIndex) : Task :=
  p.tasks.get i

/-- The last task that produces the parameter. -/
def lastProducer? (p : Pipeline) (parameter : String) : Option p.TaskIndex :=
  (List.finRange p.tasks.length).reverse.find? fun i => (p.taskAt i).result == parameter

/-- The arcs into a task, in the order of the parameters that it requires. -/
def arcsInto (p : Pipeline) (i : p.TaskIndex) : List (Arc p.tasks.length) :=
  (p.taskAt i).required.toList.filterMap fun parameter =>
    (p.lastProducer? parameter).map fun j => ⟨j, i, parameter⟩

/-- The task graph: no two arcs connect the same tasks. -/
def graph (p : Pipeline) : Digraph p.tasks.length :=
  ((List.finRange p.tasks.length).flatMap p.arcsInto).foldl Digraph.connect ⟨[]⟩

/-- The names of the tasks at the positions. -/
def namesAt (p : Pipeline) (is : List p.TaskIndex) : List String :=
  is.map fun i => (p.taskAt i).name

/-- The names of the tasks of the first cycle found, if the graph has a cycle. -/
def cycleNames? (p : Pipeline) : Option (List String) :=
  p.graph.cycle?.map p.namesAt

/-- The positions of the tasks in topological order. -/
def executionOrder (p : Pipeline) : Except LogicFault (List p.TaskIndex) :=
  match p.graph.topologicalOrder? with
  | some order => .ok order
  | none => .error (.circularDependencies (p.cycleNames?.getD []))

/-- The names of the tasks in topological order. -/
def executionOrderNames (p : Pipeline) : Except LogicFault (List String) :=
  p.executionOrder.map p.namesAt

/-- The position of the first task of the name. -/
def indexOf? (p : Pipeline) (name : String) : Option p.TaskIndex :=
  (List.finRange p.tasks.length).find? fun i => (p.taskAt i).name == name

/-- Names in increasing order. -/
def sortedNames (names : List String) : List String :=
  names.mergeSort fun a b => decide (a ≤ b)

/-- The names of the tasks on which the first task of the name depends, in increasing order. -/
def dependencies? (p : Pipeline) (name : String) : Option (List String) :=
  (p.indexOf? name).map fun i => sortedNames (p.namesAt (p.graph.predecessors i))

/-- The names of the tasks that depend on the first task of the name, in increasing order. -/
def dependents? (p : Pipeline) (name : String) : Option (List String) :=
  (p.indexOf? name).map fun i => sortedNames (p.namesAt (p.graph.successors i))

end PromptPipeline.Pipeline
