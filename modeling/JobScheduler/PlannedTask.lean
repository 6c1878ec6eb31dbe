import JobScheduler.Id

namespace JobScheduler

-- A task with its names resolved to ids, ready for a board.
structure PlannedTask where
  id : TaskId
  name : String
  cmd : String
  resources : Nat
  precious : Bool
  maxExecutions : Nat
  dependencies : List TaskId
deriving DecidableEq, Repr

-- A task needs one slot and may run once, whatever smaller numbers are asked for.
def PlannedTask.new (id : TaskId) (name cmd : String) (resources : Nat) (precious : Bool)
    (maxExecutions : Nat) (dependencies : List TaskId) : PlannedTask :=
  { id, name, cmd, precious, dependencies
    resources := max resources 1
    maxExecutions := max maxExecutions 1 }

end JobScheduler
