import JobScheduler.Board.Basic

namespace JobScheduler.Board

def leave (board : Board) (id : TaskId) : Place → Board
  | .eligible => { board with eligible := board.eligible.erase id }
  | .running => { board with running := board.running.erase id }
  | .paused => { board with paused := board.paused.erase id }
  | .blocked | .done => board

def enter (board : Board) (id : TaskId) : Place → Board
  | .eligible => { board with eligible := board.eligible.add id }
  | .running => { board with running := board.running.add id }
  | .paused => { board with paused := board.paused.add id }
  | .done => { board with done := board.done + 1 }
  | .blocked => board

def put (place : Place) (card : Card) : Card := { card with place }

-- Moves a task from `source`, where it has to stand, to `target`.
def move (board : Board) (id : TaskId) (source target : Place) : Except Fault Board := do
  let card ← board.card id
  if card.place ≠ source then
    throw (.contract id (.misplaced source card.place))
  return (((board.modifyCard id (put target)).leave id source).enter id target)

def start (board : Board) (id : TaskId) : Except Fault Board := board.move id .eligible .running

-- Running tasks are left to finish.
def pause (board : Board) (id : TaskId) : Except Fault Board := board.move id .eligible .paused

def resume (board : Board) (id : TaskId) : Except Fault Board :=
  if board.failed then .error (.contract id .failedJob)
  else board.move id .paused .eligible

-- For a task that has to run again. Its parents have all terminated before.
def restart (board : Board) (id : TaskId) : Except Fault Board := board.move id .running .eligible

-- For a task that failed for good in a job that holds such tasks for inspection.
def pauseOnError (board : Board) (id : TaskId) : Except Fault Board :=
  board.move id .running .paused

def meetParent (card : Card) : Card := { card with unmet := card.unmet - 1 }

def settleChild (card : Card) : Card := { card with remaining := card.remaining - 1 }

-- Tells a child that a parent has terminated. A blocked child whose last parent this
-- was becomes eligible and is noted as promoted.
def notifyChild (progress : Board × List TaskId) (child : TaskId) : Board × List TaskId :=
  let board := progress.1.modifyCard child meetParent
  match board.cards[child.index]? with
  | some card =>
      if card.unmet = 0 ∧ card.place = .blocked then
        ((board.modifyCard child (put .eligible)).enter child .eligible, progress.2 ++ [child])
      else
        (board, progress.2)
  | none => (board, progress.2)

def notifyParent (board : Board) (parent : TaskId) : Board := board.modifyCard parent settleChild

-- Moves a task to done and tells its direct children and parents. Returns the promoted
-- children in child order.
def finish (board : Board) (id : TaskId) (source : Place) : Except Fault (Board × List TaskId) := do
  let board ← board.move id source .done
  if board.kind ≠ .taskFlow then
    return (board, [])
  let card ← board.card id
  let (board, promoted) := card.children.foldl notifyChild (board, [])
  return (card.parents.foldl notifyParent board, promoted)

def terminate (board : Board) (id : TaskId) : Except Fault (Board × List TaskId) :=
  board.finish id .running

-- Gives up on a task that is held after a failure.
def terminateInError (board : Board) (id : TaskId) : Except Fault (Board × List TaskId) :=
  board.finish id .paused

-- Terminates a task wherever it waits.
def kill (board : Board) (id : TaskId) : Except Fault (Board × List TaskId) := do
  let place ← board.placeOf id
  match place with
  | .eligible | .running | .paused => board.finish id place
  | .blocked | .done => throw (.contract id (.unkillable place))

def recordAttempt (board : Board) (id : TaskId) : Except Fault (Board × Nat) := do
  let card ← board.card id
  return (board.modifyCard id fun card => { card with attempts := card.attempts + 1 },
    card.attempts + 1)

def putAll (board : Board) (place : Place) (ids : List TaskId) : Board :=
  ids.foldl (fun board id => board.modifyCard id (put place)) board

-- Abandons all work that could still start or is under way. Paused tasks are kept.
-- Returns the tasks that were running.
def fail (board : Board) : Board × List TaskId :=
  let eligible := board.eligible.toList
  let running := board.running.toList
  ({ board.putAll .done (eligible ++ running) with
      eligible := SortedMap.empty
      running := SortedMap.empty
      done := board.done + (eligible.length + running.length)
      failed := true }, running)

def abandonBlocked (card : Card) : Card :=
  if card.place = .blocked then put .done card else card

-- Abandons everything, paused and blocked tasks included. Returns the tasks that were
-- running.
def teardown (board : Board) : Board × List TaskId :=
  let (board, running) := board.fail
  let paused := board.paused.toList
  let board := board.putAll .done paused
  let blocked := board.countAt .blocked
  ({ board with
      cards := board.cards.map abandonBlocked
      paused := SortedMap.empty
      done := board.done + paused.length + blocked }, running)

-- The move that a new status asks of a task standing at `place`, if any.
def bulkMove? (board : Board) (id : TaskId) (status : TaskStatus) (place : Place) :
    Option (Except Fault Board) :=
  match status, place with
  | .paused, .eligible => some (board.pause id)
  | .pending, .paused | .submitted, .paused =>
      if board.failed then none else some (board.resume id)
  | _, _ => none

def applyStatus (progress : Board × Nat) (change : TaskId × TaskStatus) : Board × Nat :=
  let (board, moved) := progress
  match board.placeOf change.1 with
  | .error _ => progress
  | .ok place =>
      match board.bulkMove? change.1 change.2 place with
      | some (.ok board) => (board, moved + 1)
      | _ => progress

-- Pauses eligible and resumes paused tasks by their new statuses, in id order. Tasks
-- that are elsewhere and unknown ids are passed over. Returns how many tasks moved.
def applyStatuses (board : Board) (statuses : SortedMap TaskId TaskStatus) : Board × Nat :=
  statuses.entries.foldl applyStatus (board, 0)

end JobScheduler.Board
