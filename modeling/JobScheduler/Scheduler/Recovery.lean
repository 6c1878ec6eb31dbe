import JobScheduler.Board.Replay
import JobScheduler.Scheduler.Event

namespace JobScheduler

-- What was kept of a job when its scheduler stopped. Statuses, results and executions
-- used are by task name.
structure PersistedJob where
  id : JobId
  submission : Submission
  status : JobStatus
  statuses : SortedMap String TaskStatus
  results : SortedMap String TaskResult
  executions : SortedMap String Nat

namespace PersistedJob

-- Where a job is paused, tasks that would start are held back.
def waiting (persisted : PersistedJob) : TaskStatus :=
  if persisted.status = .paused then .paused else .pending

-- The worker of a running task is gone, so the task waits to be run again.
def putBack (persisted : PersistedJob) (board : Board) (task : TaskId) : Except Fault Board := do
  let board ← board.restart task
  if persisted.status = .paused then board.pause task else return board

def statusOf (persisted : PersistedJob) (name : String) : TaskStatus :=
  match (persisted.statuses.find? name).getD .submitted with
  | .running => persisted.waiting
  | status => status

def addResult (persisted : PersistedJob) (results : JobResult) (card : Card) : JobResult :=
  match persisted.results.find? card.name with
  | some result => results.add card.name result card.task.precious
  | none => results

-- The live job that goes on where the persisted one stopped.
def revive (persisted : PersistedJob) : Except Fault LiveJob := do
  let board ← Board.rebuild persisted.id persisted.submission persisted.statuses
  let board ← board.running.toList.foldlM persisted.putBack board
  let job := LiveJob.ofBoard persisted.submission board
  let job :=
    { job with
      status := persisted.status
      results := board.cards.foldl persisted.addResult job.results
      statuses := board.cards.map fun card => persisted.statusOf card.name
      executions := board.cards.map fun card => (persisted.executions.find? card.name).getD 0 }
  return if persisted.status = .paused then job.pausePending.1 else job

-- The status with which a recovered job ends if all its tasks have terminated.
def endStatus (job : LiveJob) : JobStatus :=
  if job.submission.cancelOnError && job.statuses.contains .faulty then .canceled else .finished

end PersistedJob

namespace SchedulerM

-- Installs a persisted job. If all its tasks had terminated it ends right away, and its
-- summary waits for the next step.
def recoverJob (persisted : PersistedJob) : SchedulerM Unit := do
  let scheduler ← get
  match persisted.revive with
  | .error fault => throw fault
  | .ok job =>
      match scheduler.registry.insertRecovered job with
      | .error fault => throw fault
      | .ok registry => do
          set { scheduler with registry }
          if job.board.isComplete then
            let commands ← endJob job.id (PersistedJob.endStatus job)
            modify fun scheduler => { scheduler with pending := scheduler.pending ++ commands }
          else
            modify (·.refreshQueue job.id)

end SchedulerM

namespace Scheduler

-- A job that had ended, or that cannot be revived, is passed over.
def recoverOne (progress : Nat × Scheduler) (persisted : PersistedJob) : Nat × Scheduler :=
  if persisted.status.isTerminal then progress
  else
    match SchedulerM.recoverJob persisted progress.2 with
    | .ok () scheduler => (progress.1 + 1, scheduler)
    | .error _ scheduler => (progress.1, scheduler)

-- Reinstalls the jobs of an earlier run and returns how many were accepted.
def recover (scheduler : Scheduler) (jobs : List PersistedJob) : Nat × Scheduler :=
  jobs.foldl recoverOne (0, scheduler)

end Scheduler

end JobScheduler
