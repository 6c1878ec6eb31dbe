import JobScheduler.Fault
import JobScheduler.SortedMap
import JobScheduler.Submission.Basic

namespace JobScheduler.CycleSearch

variable {α : Type} [DecidableEq α]

-- Walks the graph depth first along `next`. A node is expanded when it first comes to
-- the top of the stack and is finished when it comes to the top again; the nodes are
-- returned with the last one finished in front.
def finishing (next : α → List α) (unseen stack finished : List α) : List α :=
  match stack with
  | [] => finished
  | node :: rest =>
      if node ∈ unseen then
        let unseen := unseen.erase node
        finishing next unseen (((next node).filter (· ∈ unseen)).reverse ++ node :: rest) finished
      else
        finishing next unseen rest (if node ∈ finished then finished else node :: finished)
termination_by (unseen.length, stack.length)
decreasing_by
  · apply Prod.Lex.left
    rename_i h
    have := List.length_pos_of_mem h
    rw [List.length_erase_of_mem h]
    omega
  · apply Prod.Lex.right
    simp

-- The unseen nodes reached from the stack, in the order of a depth-first walk, and the
-- nodes that stay unseen.
def reached (next : α → List α) (unseen stack : List α) : List α × List α :=
  match stack with
  | [] => ([], unseen)
  | node :: rest =>
      if node ∈ unseen then
        let unseen := unseen.erase node
        let (found, left) :=
          reached next unseen (((next node).filter (· ∈ unseen)).reverse ++ rest)
        (node :: found, left)
      else
        reached next unseen rest
termination_by (unseen.length, stack.length)
decreasing_by
  · apply Prod.Lex.left
    rename_i h
    have := List.length_pos_of_mem h
    rw [List.length_erase_of_mem h]
    omega
  · apply Prod.Lex.right
    simp

-- The second node of the first walk that finds two.
def companion? (previous : α → List α) (unseen : List α) : List α → Option α
  | [] => none
  | start :: starts =>
      match reached previous unseen [start] with
      | (_ :: second :: _, _) => some second
      | (_, unseen) => companion? previous unseen starts

-- A node on a cycle, if there is one. Walking backwards from the nodes in the order of
-- `finishing`, a walk stays within the nodes that lie on cycles with its start.
def onCycle? (next previous : α → List α) (nodes : List α) : Option α :=
  companion? previous nodes (finishing next nodes nodes [])

end JobScheduler.CycleSearch

namespace JobScheduler

structure NameGraph.Links where
  dependencies : List String
  dependents : List String
deriving DecidableEq, Repr

-- The dependencies of a job between the names of its tasks, in both directions. Of two
-- tasks with one name the later one gives the dependencies.
structure NameGraph where
  order : List String
  links : SortedMap String NameGraph.Links

namespace NameGraph

def declare (links : SortedMap String Links) (task : Submission.Task) : SortedMap String Links :=
  links.insert task.name ⟨task.after, []⟩

def addDependent (task : String) (links : SortedMap String Links) (dependency : String) :
    SortedMap String Links :=
  links.modify dependency fun entry => { entry with dependents := entry.dependents ++ [task] }

def link (links : SortedMap String Links) (task : Submission.Task) : SortedMap String Links :=
  task.after.foldl (addDependent task.name) links

def ofSubmission (submission : Submission) : NameGraph :=
  { order := submission.tasks.map (·.name)
    links := submission.tasks.foldl link (submission.tasks.foldl declare SortedMap.empty) }

def dependenciesOf (graph : NameGraph) (name : String) : List String :=
  match graph.links.find? name with
  | some entry => entry.dependencies
  | none => []

def dependentsOf (graph : NameGraph) (name : String) : List String :=
  match graph.links.find? name with
  | some entry => entry.dependents
  | none => []

def roots (graph : NameGraph) : List String :=
  graph.order.filter fun name => (graph.dependenciesOf name).isEmpty

def checkReference (graph : NameGraph) (job name dependency : String) : Except Fault Unit :=
  if dependency = name then .error (.refused (.selfDependency job name))
  else if !graph.links.contains dependency then
    .error (.refused (.unknownDependency job name dependency))
  else .ok ()

def nodes (graph : NameGraph) : List String := graph.order.eraseDups

-- The tasks that wait for `name`, each once, in the order of the nodes.
def waiting (graph : NameGraph) (name : String) : List String :=
  graph.nodes.filter fun other => name ∈ graph.dependenciesOf other

-- The tasks that `name` waits for, each once.
def awaited (graph : NameGraph) (name : String) : List String :=
  (graph.dependenciesOf name).eraseDups

def cycleTask? (graph : NameGraph) : Option String :=
  CycleSearch.onCycle? graph.waiting graph.awaited graph.nodes

-- Every reference is to another declared task, and no task waits for itself.
def check (graph : NameGraph) (job : String) : Except Fault Unit := do
  graph.order.forM fun name =>
    (graph.dependenciesOf name).forM (graph.checkReference job name)
  match graph.cycleTask? with
  | some task => throw (.cycle job task)
  | none => pure ()

end NameGraph

end JobScheduler
