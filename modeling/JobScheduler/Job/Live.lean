import JobScheduler.Board.Build
import JobScheduler.Board.Transition
import JobScheduler.Result
import JobScheduler.Submission.Resolve

namespace JobScheduler

-- The final record of a job.
structure Summary where
  id : JobId
  name : String
  status : JobStatus
  tasks : SortedMap String TaskStatus
  results : JobResult

-- A job that has not ended: its board, and by task position the status shown to clients
-- and the executions used up. These start at what was kept of them and grow by one with an
-- operation at most: 32 bits hold them as long as the two come to fewer than 2 ^ 32.
structure LiveJob where
  submission : Submission
  board : Board
  status : JobStatus
  results : JobResult
  statuses : List TaskStatus
  executions : List Nat

namespace LiveJob

def ofBoard (submission : Submission) (board : Board) : LiveJob :=
  { submission, board
    status := .pending
    results := .new board.job submission.name submission.preciousTasks
    statuses := List.replicate board.size .submitted
    executions := List.replicate board.size 0 }

def new (id : JobId) (submission : Submission) : Except Fault LiveJob := do
  let tasks ← submission.resolve id
  let board ← Board.build id submission.priority submission.kind tasks
  return ofBoard submission board

def id (job : LiveJob) : JobId := job.board.job

def statusOf? (job : LiveJob) (task : TaskId) : Option TaskStatus := job.statuses[task.index]?

def setStatus (status : TaskStatus) (job : LiveJob) (task : TaskId) : LiveJob :=
  { job with statuses := job.statuses.set task.index status }

def setStatuses (status : TaskStatus) (job : LiveJob) (tasks : List TaskId) : LiveJob :=
  tasks.foldl (setStatus status) job

def executionsUsed (job : LiveJob) (task : TaskId) : Nat := (job.executions[task.index]?).getD 0

def setExecutions (job : LiveJob) (task : TaskId) (used : Nat) : LiveJob :=
  { job with executions := job.executions.set task.index used }

def consumeExecution (job : LiveJob) (task : TaskId) : LiveJob :=
  { job with executions := job.executions.modify task.index (· + 1) }

-- The tasks whose status satisfies `wanted`, in id order.
def tasksWith (job : LiveJob) (wanted : TaskStatus → Bool) : List TaskId :=
  (job.statuses.zipIdx.filter fun entry => wanted entry.1).map fun entry => ⟨job.id, entry.2⟩

-- Gives every task with a wanted status the new one, and moves on the board those that
-- can move. Returns how many moved.
def restate (job : LiveJob) (wanted : TaskStatus → Bool) (status : TaskStatus) : LiveJob × Nat :=
  let tasks := job.tasksWith wanted
  let (board, moved) := job.board.applyStatuses (SortedMap.ofList (tasks.map (·, status)))
  ({ job with board }.setStatuses status tasks, moved)

def awaitsStart : TaskStatus → Bool
  | .submitted | .pending | .waitingOnError => true
  | _ => false

-- Pauses every task that has not started. Blocked ones are only marked, so that they
-- stay paused once promoted; running tasks and those in error are left alone.
def pausePending (job : LiveJob) : LiveJob × Nat := job.restate awaitsStart .paused

def resumePaused (job : LiveJob) : LiveJob × Nat := job.restate (· == .paused) .pending

def hasTasksInError (job : LiveJob) : Bool := job.statuses.contains .inError

def abortUnfinished (job : LiveJob) : LiveJob :=
  { job with
    statuses := job.statuses.map fun status => if status.isTerminated then status else .aborted }

def declared (job : LiveJob) : List Declared :=
  job.board.cards.map fun card => ⟨card.name, card.id, card.task.precious⟩

-- Closes the job with a status: every declared task gets a result.
def summary (job : LiveJob) (status : JobStatus) : Summary :=
  let (results, _) := job.results.reconcile job.declared
  { id := job.id
    name := job.submission.name
    status
    tasks := SortedMap.ofList ((job.board.cards.map (·.name)).zip job.statuses)
    results := results.mark status }

end LiveJob

end JobScheduler
