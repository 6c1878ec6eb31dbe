import JobScheduler.Fault
import JobScheduler.PlannedTask
import JobScheduler.Priority
import JobScheduler.SortedMap

namespace JobScheduler

-- A task of a job with its links to parents and children. `unmet` counts the parents
-- and `remaining` the children that have not terminated, `attempts` the dispatch passes
-- that have looked at the task. Numbers are not cut down to a width: no run of fewer than
-- 2 ^ 32 operations takes `attempts` beyond 32 bits.
structure Card where
  task : PlannedTask
  parents : List TaskId
  children : List TaskId
  unmet : Nat
  remaining : Nat
  place : Place
  attempts : Nat
deriving DecidableEq, Repr

namespace Card

def new (task : PlannedTask) : Card := ⟨task, [], [], 0, 0, .blocked, 0⟩

def id (card : Card) : TaskId := card.task.id

def name (card : Card) : String := card.task.name

def resources (card : Card) : Nat := card.task.resources

-- Cards are told apart by their ids alone.
def same (a b : Card) : Bool := a.id == b.id

end Card

-- The live state of a job: one card per task, in id order, and beside the cards the
-- three partitions of the tasks that can still move, with the number of those that
-- cannot.
structure Board where
  job : JobId
  priority : Priority
  kind : JobKind
  cards : List Card
  eligible : SortedSet TaskId
  running : SortedSet TaskId
  paused : SortedSet TaskId
  done : Nat
  failed : Bool

structure Board.Counts where
  blocked : Nat
  eligible : Nat
  running : Nat
  paused : Nat
  done : Nat
deriving DecidableEq, Repr

def Board.Counts.total (counts : Board.Counts) : Nat :=
  counts.blocked + counts.eligible + counts.running + counts.paused + counts.done

-- What there is to see of the partitions and counters of a board.
structure Board.Snapshot where
  eligible : List TaskId
  running : List TaskId
  paused : List TaskId
  unmet : List Nat
  remaining : List Nat
deriving DecidableEq, Repr

namespace Board

def size (board : Board) : Nat := board.cards.length

def setPriority (board : Board) (priority : Priority) : Board := { board with priority }

def card (board : Board) (id : TaskId) : Except Fault Card :=
  if id.job ≠ board.job then .error (.taskNotFound id)
  else
    match board.cards[id.index]? with
    | some card => .ok card
    | none => .error (.taskNotFound id)

def placeOf (board : Board) (id : TaskId) : Except Fault Place := do
  return (← board.card id).place

def hasEligible (board : Board) : Bool := !board.eligible.isEmpty

def eligibleCards (board : Board) : List Card :=
  board.eligible.toList.filterMap fun id => board.cards[id.index]?

def countAt (board : Board) (place : Place) : Nat := board.cards.countP (·.place == place)

def counts (board : Board) : Counts :=
  { blocked := board.countAt .blocked
    eligible := board.eligible.size
    running := board.running.size
    paused := board.paused.size
    done := board.done }

def isComplete (board : Board) : Bool := board.done == board.size

def snapshot (board : Board) : Snapshot :=
  { eligible := board.eligible.toList
    running := board.running.toList
    paused := board.paused.toList
    unmet := board.cards.map (·.unmet)
    remaining := board.cards.map (·.remaining) }

def hasChildren (board : Board) (id : TaskId) : Except Fault Bool := do
  return !(← board.card id).children.isEmpty

-- Whether nothing downstream waits for the result of the task any more.
def isReleasable (board : Board) (id : TaskId) : Except Fault Bool := do
  return (← board.card id).remaining == 0

def modifyCard (board : Board) (id : TaskId) (change : Card → Card) : Board :=
  { board with cards := board.cards.modify id.index change }

-- The order in which jobs are served: by priority from the highest, then by id.
def servedBefore (a b : Board) : Ordering :=
  (compare b.priority a.priority).then (compare a.job b.job)

end Board

end JobScheduler
