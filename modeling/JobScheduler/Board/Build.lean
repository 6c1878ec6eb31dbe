import JobScheduler.Board.Basic

namespace JobScheduler.Board

def checkDependency (job : JobId) (size : Nat) (dependency : TaskId) : Except Fault Unit :=
  if dependency.job ≠ job ∨ size ≤ dependency.index then .error (.taskNotFound dependency)
  else .ok ()

-- Tasks come in id order, and the dependencies of a task flow are tasks of the job.
def checkPlan (job : JobId) (kind : JobKind) (size : Nat) :
    Nat → List PlannedTask → Except Fault Unit
  | _, [] => .ok ()
  | position, task :: rest => do
      if task.id ≠ ⟨job, position⟩ then
        throw (.refused (.outOfPlace task.name task.id position job))
      if kind = .taskFlow then
        task.dependencies.forM (checkDependency job size)
      checkPlan job kind size (position + 1) rest

def addParent (parent : TaskId) (card : Card) : Card :=
  { card with parents := card.parents ++ [parent], unmet := card.unmet + 1 }

def addChild (child : TaskId) (card : Card) : Card :=
  { card with children := card.children ++ [child], remaining := card.remaining + 1 }

def linkDependency (child : TaskId) (cards : List Card) (parent : TaskId) : List Card :=
  (cards.modify child.index (addParent parent)).modify parent.index (addChild child)

def linkTask (cards : List Card) (task : PlannedTask) : List Card :=
  task.dependencies.foldl (linkDependency task.id) cards

def offer (card : Card) : Card := if card.unmet = 0 then { card with place := .eligible } else card

-- Every dependency of a task flow becomes a link between parent and child, as often as
-- it is declared. Tasks without parents are eligible at once. A task on a cycle is
-- allowed here: it stays blocked.
def build (job : JobId) (priority : Priority) (kind : JobKind) (tasks : List PlannedTask) :
    Except Fault Board := do
  checkPlan job kind tasks.length 0 tasks
  let cards := tasks.map Card.new
  let cards := if kind = .taskFlow then tasks.foldl linkTask cards else cards
  return {
    job, priority, kind
    cards := cards.map offer
    eligible := SortedSet.ofList ((cards.filter (·.unmet == 0)).map (·.id))
    running := SortedMap.empty
    paused := SortedMap.empty
    done := 0
    failed := false }

end JobScheduler.Board
