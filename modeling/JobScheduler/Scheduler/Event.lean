import JobScheduler.Scheduler.Desk

namespace JobScheduler

inductive Event
  | submitted (submission : Submission)
  | completed (task : TaskId) (result : TaskResult)
  | lost (task : TaskId)
  | pause (job : JobId)
  | resume (job : JobId)
  | kill (job : JobId)
  | killTask (task : TaskId)
  | restart (task : TaskId)
  | finish (task : TaskId)
  | priority (job : JobId) (priority : Priority)
  | shutdown
deriving DecidableEq, Repr

-- The task whose execution an event says is over.
def Event.reported : Event → List TaskId
  | .completed task _ | .lost task => [task]
  | _ => []

-- What becomes of a job after an event about it: nothing has changed, or it goes on, or
-- it ends. `cancelled` are the tasks whose execution has to be stopped at once.
inductive Fate
  | untouched
  | goesOn (cancelled : List TaskId)
  | ends (status : JobStatus) (cancelled : List TaskId)

namespace DeskM

def goOnOrEnd (cancelled : List TaskId) : DeskM Fate := do
  if (← theJob).board.isComplete then
    return .ends .finished cancelled
  else
    return .goesOn cancelled

-- Counts the execution and gives its slots back. A failed task runs again while it has
-- executions left; after that it is held in error if its job holds such tasks, and
-- terminates otherwise.
def taskCompleted (task : TaskId) (result : TaskResult) : DeskM Fate := do
  let card ← theCard task
  if card.place ≠ .running then
    return .untouched
  changeJob (·.consumeExecution task)
  releaseSlots card.resources
  let job ← theJob
  let failed := result.hadException
  if failed ∧ job.executionsUsed task < card.task.maxExecutions then
    moveTask (·.restart task)
    if job.status = .paused then
      holdBack task
    else
      setStatus task .waitingOnError
    return .goesOn []
  if failed ∧ job.submission.pauseOnError then
    moveTask (·.pauseOnError task)
    addResult card result
    setStatus task .inError
    if job.status ≠ .paused then
      setJobStatus .inError
    return .goesOn []
  let promoted ← transition (·.terminate task)
  addResult card result
  setStatus task (if failed then .faulty else .finished)
  settle task promoted
  if failed ∧ job.submission.cancelOnError then
    return .ends .canceled []
  goOnOrEnd []

-- The task runs again, and the execution that was lost does not count.
def taskLost (task : TaskId) : DeskM Fate := do
  let card ← theCard task
  if card.place ≠ .running then
    return .untouched
  moveTask (·.restart task)
  releaseSlots card.resources
  if (← theJob).status = .paused then
    holdBack task
  else
    setStatus task .pending
  return .goesOn []

def pauseJob : DeskM Fate := do
  if (← theJob).status = .paused then
    return .untouched
  changeJob (·.pausePending.1)
  setJobStatus .paused
  return .goesOn []

def statusAfterResume (job : LiveJob) : JobStatus :=
  let counts := job.board.counts
  if job.hasTasksInError then .inError
  else if 0 < counts.running ∨ 0 < counts.done then .running
  else .pending

def resumeJob : DeskM Fate := do
  if (← theJob).status ≠ .paused then
    return .untouched
  changeJob (·.resumePaused.1)
  setJobStatus (statusAfterResume (← theJob))
  return .goesOn []

-- Terminates one task wherever it waits or runs; the rest of the job goes on.
def killTask (task : TaskId) : DeskM Fate := do
  let card ← theCard task
  if card.place = .blocked ∨ card.place = .done then
    return .untouched
  let promoted ← transition (·.kill task)
  if card.place = .running then
    releaseSlots card.resources
  addResult card (.killed task)
  setStatus task .killed
  settle task promoted
  clearError
  goOnOrEnd (if card.place = .running then [task] else [])

-- Runs a task held in error again with all its executions.
def restartInError (task : TaskId) : DeskM Fate := do
  if (← theJob).statusOf? task ≠ some .inError then
    return .untouched
  changeJob (·.setExecutions task 0)
  if (← theJob).status = .paused then
    setStatus task .paused
  else
    moveTask (·.resume task)
    setStatus task .pending
  clearError
  return .goesOn []

-- Gives up on a task held in error and releases its children.
def finishInError (task : TaskId) : DeskM Fate := do
  if (← theJob).statusOf? task ≠ some .inError then
    return .untouched
  let promoted ← transition (·.terminateInError task)
  setStatus task .faulty
  settle task promoted
  clearError
  goOnOrEnd []

def changePriority (priority : Priority) : DeskM Fate := do
  changeJob fun job =>
    { job with
      board := job.board.setPriority priority
      submission := { job.submission with priority } }
  return .goesOn []

end DeskM

namespace SchedulerM

def submit (submission : Submission) : SchedulerM JobId := do
  let scheduler ← get
  match scheduler.registry.submit submission with
  | .error fault => throw fault
  | .ok (registry, job) => do
      set { scheduler with registry, queue := scheduler.queue.refresh job.board }
      return job.id

def endJob (id : JobId) (status : JobStatus) : SchedulerM (List Command) :=
  modifyGet fun scheduler =>
    let (scheduler, commands) := scheduler.endJob id status
    (commands, scheduler)

def conclude (id : JobId) : Fate → SchedulerM (List Command)
  | .untouched => return []
  | .goesOn cancelled => do
      modify (·.refreshQueue id)
      return Command.cancelling cancelled
  | .ends status cancelled => do
      return Command.cancelling cancelled ++ (← endJob id status)

-- A report about a job that is not live comes too late and is ignored.
def report (id : JobId) (work : DeskM Fate) : SchedulerM (List Command) := do
  match (← get).registry.find? id with
  | none => return []
  | some job => do conclude id (← atDesk job work)

-- A request about a job that is not live is an error.
def request (id : JobId) (work : DeskM Fate) : SchedulerM (List Command) := do
  match (← get).registry.find? id with
  | none => throw (.jobNotFound id)
  | some job => do conclude id (← atDesk job work)

def handle : Event → SchedulerM (List Command)
  | .submitted submission => do
      let _ ← submit submission
      return []
  | .completed task result => report task.job (DeskM.taskCompleted task result)
  | .lost task => report task.job (DeskM.taskLost task)
  | .pause id => request id DeskM.pauseJob
  | .resume id => request id DeskM.resumeJob
  | .kill id => request id (return .ends .killed [])
  | .killTask task => request task.job (DeskM.killTask task)
  | .restart task => request task.job (DeskM.restartInError task)
  | .finish task => request task.job (DeskM.finishInError task)
  | .priority id priority => request id (DeskM.changePriority priority)
  | .shutdown => return []

end SchedulerM

end JobScheduler
