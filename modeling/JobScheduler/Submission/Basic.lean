import JobScheduler.Priority
import JobScheduler.Status

namespace JobScheduler

structure Submission.Task where
  name : String
  cmd : String
  after : List String
  resources : Nat
  precious : Bool
  maxExecutions : Nat
deriving DecidableEq, Repr

-- A job as a client hands it in: its tasks refer to each other by name.
structure Submission where
  name : String
  priority : Priority
  kind : JobKind
  cancelOnError : Bool
  pauseOnError : Bool
  tasks : List Submission.Task
deriving DecidableEq, Repr

def Submission.preciousTasks (submission : Submission) : List String :=
  (submission.tasks.filter (·.precious)).map (·.name)

end JobScheduler
