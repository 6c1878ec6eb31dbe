namespace JobScheduler

-- Whether the tasks of a job depend on each other or are independent.
inductive JobKind
  | taskFlow | singleTask
deriving DecidableEq, Repr, Inhabited

namespace JobKind

def all : List JobKind := [.taskFlow, .singleTask]

def name : JobKind → String
  | .taskFlow => "task_flow"
  | .singleTask => "single_task"

-- The name as a heading shows it.
def title : JobKind → String
  | .taskFlow => "TaskFlow"
  | .singleTask => "SingleTask"

def ofName? (text : String) : Option JobKind := all.find? (·.name == text)

end JobKind

inductive JobStatus
  | pending | running | paused | inError | finished | canceled | killed
deriving DecidableEq, Repr, Inhabited

namespace JobStatus

def all : List JobStatus := [.pending, .running, .paused, .inError, .finished, .canceled, .killed]

def name : JobStatus → String
  | .pending => "pending"
  | .running => "running"
  | .paused => "paused"
  | .inError => "in_error"
  | .finished => "finished"
  | .canceled => "canceled"
  | .killed => "killed"

def ofName? (text : String) : Option JobStatus := all.find? (·.name == text)

def isTerminal : JobStatus → Bool
  | .finished | .canceled | .killed => true
  | _ => false

end JobStatus

inductive TaskStatus
  | submitted | pending | paused | running | waitingOnError
  | finished | faulty | inError | killed | aborted
deriving DecidableEq, Repr, Inhabited

namespace TaskStatus

def all : List TaskStatus :=
  [.submitted, .pending, .paused, .running, .waitingOnError, .finished, .faulty, .inError,
    .killed, .aborted]

def name : TaskStatus → String
  | .submitted => "submitted"
  | .pending => "pending"
  | .paused => "paused"
  | .running => "running"
  | .waitingOnError => "waiting_on_error"
  | .finished => "finished"
  | .faulty => "faulty"
  | .inError => "in_error"
  | .killed => "killed"
  | .aborted => "aborted"

def ofName? (text : String) : Option TaskStatus := all.find? (·.name == text)

-- An aborted task never ran to an end of its own, so it does not count.
def isTerminated : TaskStatus → Bool
  | .finished | .faulty | .killed => true
  | _ => false

end TaskStatus

-- Where a task stands in its job. A blocked task waits for a parent, a done one has
-- terminated or was given up, and neither is in one of the three partitions.
inductive Place
  | blocked | eligible | running | paused | done
deriving DecidableEq, Repr, Inhabited

def Place.name : Place → String
  | .blocked => "blocked"
  | .eligible => "eligible"
  | .running => "running"
  | .paused => "paused"
  | .done => "done"

end JobScheduler
