import JobScheduler.Id
import JobScheduler.SortedMap
import JobScheduler.Status

namespace JobScheduler

-- What one execution of a task reported: a value, an exception, or that it is still
-- on its way.
structure TaskResult where
  task : TaskId
  value : Option String
  exception : Option String
  pending : Bool
deriving DecidableEq, Repr

namespace TaskResult

def success (task : TaskId) (value : String) : TaskResult := ⟨task, some value, none, false⟩

def failure (task : TaskId) (exception : String) : TaskResult := ⟨task, none, some exception, false⟩

def awaited (task : TaskId) : TaskResult := ⟨task, none, none, true⟩

def noneReturned (task : TaskId) : TaskResult := failure task "no result returned"

def killed (task : TaskId) : TaskResult := failure task "task killed"

def hadException (result : TaskResult) : Bool := result.exception.isSome

-- An exception counts against the job once the result is final.
def isSettledException (result : TaskResult) : Bool := !result.pending && result.hadException

end TaskResult

-- A task as a job declares it, for the results that the job has to hold in the end.
structure Declared where
  name : String
  id : TaskId
  precious : Bool
deriving DecidableEq, Repr

-- The results of a job by task name, each map holding the last one added to it.
structure JobResult where
  job : JobId
  name : String
  all : SortedMap String TaskResult
  precious : SortedMap String TaskResult
  exceptions : SortedMap String TaskResult
  released : SortedSet String
  expectedPrecious : SortedSet String
  final : Option JobStatus

namespace JobResult

def new (job : JobId) (name : String) (expectedPrecious : List String) : JobResult :=
  { job, name
    all := SortedMap.empty
    precious := SortedMap.empty
    exceptions := SortedMap.empty
    released := SortedMap.empty
    expectedPrecious := SortedSet.ofList expectedPrecious
    final := none }

def add (results : JobResult) (task : String) (result : TaskResult) (precious : Bool) : JobResult :=
  { results with
    all := results.all.insert task result
    precious := if precious then results.precious.insert task result else results.precious
    exceptions :=
      if result.isSettledException then results.exceptions.insert task result
      else results.exceptions }

def get? (results : JobResult) (task : String) : Option TaskResult := results.all.find? task

def hadException (results : JobResult) : Bool := !results.exceptions.isEmpty

def isReleased (results : JobResult) (task : String) : Bool := results.released.member task

-- Notes that nobody waits for the result of a task any more.
def release (results : JobResult) (task : String) : JobResult :=
  { results with released := results.released.add task }

-- A declared task that has no result yet gets one that says so.
def reconcileOne (progress : JobResult × Nat) (task : Declared) : JobResult × Nat :=
  if progress.1.all.contains task.name then progress
  else (progress.1.add task.name (.noneReturned task.id) task.precious, progress.2 + 1)

-- The results with every declared task accounted for, and how many were missing.
def reconcile (results : JobResult) (declared : List Declared) : JobResult × Nat :=
  declared.foldl reconcileOne (results, 0)

def mark (results : JobResult) (status : JobStatus) : JobResult :=
  { results with final := some status }

def preciousCollected (results : JobResult) : Bool :=
  results.expectedPrecious.toList.all results.all.contains

def isComplete (results : JobResult) : Bool :=
  results.preciousCollected && results.final.any (·.isTerminal)

end JobResult

end JobScheduler
