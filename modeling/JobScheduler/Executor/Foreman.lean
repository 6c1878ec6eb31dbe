import JobScheduler.Scheduler.Basic

namespace JobScheduler

-- What an executor is asked for, one request at a time.
inductive Errand
  | run (work : Assignment)
  | stop (tasks : List TaskId)
deriving DecidableEq, Repr

def Command.errands : Command → List Errand
  | .dispatch assignments => assignments.map .run
  | .cancel tasks => if tasks.isEmpty then [] else [.stop tasks]
  | .ended _ | .exit => []

-- A runner that has reported is over only some time later, and only then does its foreman
-- see it end.
inductive Stage
  | running
  | reported
  | ended
deriving DecidableEq, Repr

-- Runs one task once. One that is stopped need not report any more.
structure Runner where
  work : Assignment
  stage : Stage
  stopped : Bool
deriving DecidableEq, Repr

-- All runners that were started so far, and for the tasks that are taken to be running the
-- number of the runner.
structure Foreman where
  runners : List Runner
  active : SortedMap TaskId Nat

namespace Foreman

def new : Foreman := ⟨[], SortedMap.empty⟩

def hasEnded (foreman : Foreman) (number : Nat) : Bool :=
  match foreman.runners[number]? with
  | some runner => runner.stage = .ended
  | none => true

-- Drops the tasks whose runner is over.
def sweep (foreman : Foreman) : Foreman :=
  { foreman with active := foreman.active.filterValues fun number => !foreman.hasEnded number }

-- A task that is taken to be running is not started again.
def start (foreman : Foreman) (work : Assignment) : Foreman :=
  if foreman.active.contains work.task then foreman
  else
    { runners := foreman.runners ++ [⟨work, .running, false⟩]
      active := foreman.active.insert work.task foreman.runners.length }

def alter (foreman : Foreman) (number : Nat) (change : Runner → Runner) : Foreman :=
  { foreman with runners := foreman.runners.modify number change }

def stop (foreman : Foreman) (task : TaskId) : Foreman :=
  match foreman.active.find? task with
  | none => foreman
  | some number =>
      { foreman with active := foreman.active.erase task }.alter number ({ · with stopped := true })

def receive (foreman : Foreman) : Errand → Foreman
  | .run work => foreman.sweep.start work
  | .stop tasks => tasks.foldl stop foreman.sweep

end Foreman

end JobScheduler
