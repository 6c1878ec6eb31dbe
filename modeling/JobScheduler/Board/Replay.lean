import JobScheduler.Board.Build
import JobScheduler.Board.Transition
import JobScheduler.Submission.Resolve

namespace JobScheduler.Board

def replaying (step : Except Fault α) : Except Fault α :=
  step.mapError .replay

-- The lowest eligible task that had terminated.
def nextTerminated? (statuses : List TaskStatus) (board : Board) : Option TaskId :=
  board.eligible.toList.find? fun id => (statuses[id.index]?).any (·.isTerminated)

-- Starts and terminates tasks that had terminated until none of them is eligible. Every
-- round takes another task, so there are no more rounds than tasks.
def replayTerminated (statuses : List TaskStatus) : Nat → Board → Except Fault Board
  | 0, board => .ok board
  | rounds + 1, board =>
      match board.nextTerminated? statuses with
      | none => .ok board
      | some id => do
          let board ← replaying (board.start id)
          let (board, _) ← replaying (board.terminate id)
          replayTerminated statuses rounds board

-- Puts a task where its status says, if the replayed graph allows it.
def replayStatus (job : String) (board : Board) (task : Submission.Task) (id : TaskId)
    (status : TaskStatus) : Except Fault Board := do
  let place ← board.placeOf id
  let demand (wanted : Place) : Except Fault Unit :=
    if place = wanted then .ok () else .error (.inconsistent job task.name status place)
  match status with
  | .finished | .faulty | .killed => do
      demand .done
      return board
  | .running => do
      demand .eligible
      replaying (board.start id)
  | .paused =>
      if place = .eligible then replaying (board.pause id) else return board
  | .waitingOnError => do
      demand .eligible
      return board
  | .inError => do
      demand .eligible
      replaying (board.pause id)
  | .submitted | .pending | .aborted => return board

def replayStatuses (job : String) (id : JobId) (board : Board) :
    Nat → List (Submission.Task × TaskStatus) → Except Fault Board
  | _, [] => .ok board
  | index, (task, status) :: rest => do
      let board ← replayStatus job board task ⟨id, index⟩ status
      replayStatuses job id board (index + 1) rest

def checkKnown (submission : Submission) (name : String) : Except Fault Unit :=
  if submission.tasks.any (·.name == name) then .ok ()
  else .error (.unknownTask submission.name name)

-- The last known status of a task. One that nothing is known of was only submitted.
def statusIn (statuses : SortedMap String TaskStatus) (task : Submission.Task) : TaskStatus :=
  (statuses.find? task.name).getD .submitted

-- The board of a job whose tasks had the given statuses. The graph is built anew and the
-- terminations are replayed through the ordinary transitions; what remains must then
-- stand where its status says.
def rebuild (id : JobId) (submission : Submission) (statuses : SortedMap String TaskStatus) :
    Except Fault Board := do
  statuses.keys.forM (checkKnown submission)
  let tasks ← submission.resolve id
  let board ← build id submission.priority submission.kind tasks
  let known := submission.tasks.map (statusIn statuses)
  match (submission.tasks.zip known).find? (·.2 == .aborted) with
  | some (task, _) => throw (.abortedTask submission.name task.name)
  | none => pure ()
  let board ← replayTerminated known board.size board
  replayStatuses submission.name id board 0 (submission.tasks.zip known)

end JobScheduler.Board
