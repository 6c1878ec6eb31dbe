import JobScheduler.Scheduler.Basic

namespace JobScheduler

-- What an event about one job works on: that job and the worker slots.
structure Desk where
  job : LiveJob
  slots : Slots

-- A computation at the desk. One that fails leaves what it has changed so far.
abbrev DeskM := EStateM Fault Desk

namespace DeskM

def theJob : DeskM LiveJob := return (← get).job

def changeJob (change : LiveJob → LiveJob) : DeskM Unit :=
  modify fun desk => { desk with job := change desk.job }

def releaseSlots (count : Nat) : DeskM Unit :=
  modify fun desk => { desk with slots := desk.slots.release count }

def takeSlots (count : Nat) : DeskM Unit :=
  modify fun desk => { desk with slots := desk.slots.take count }

def ask (question : Board → Except Fault α) : DeskM α := do
  match question (← theJob).board with
  | .ok answer => return answer
  | .error fault => throw fault

def theCard (task : TaskId) : DeskM Card := ask (·.card task)

-- Applies a transition to the board of the job and hands on what it returns.
def transition (step : Board → Except Fault (Board × α)) : DeskM α := do
  let (board, answer) ← ask step
  changeJob fun job => { job with board }
  return answer

def moveTask (step : Board → Except Fault Board) : DeskM Unit :=
  transition fun board => (step board).map (·, ())

def setStatus (task : TaskId) (status : TaskStatus) : DeskM Unit :=
  changeJob (LiveJob.setStatus status · task)

def setJobStatus (status : JobStatus) : DeskM Unit :=
  changeJob fun job => { job with status }

def addResult (card : Card) (result : TaskResult) : DeskM Unit :=
  changeJob fun job =>
    { job with results := job.results.add card.name result card.task.precious }

def releaseResult (task : TaskId) : DeskM Unit := do
  if ← ask (·.isReleasable task) then
    let card ← theCard task
    changeJob fun job => { job with results := job.results.release card.name }

def holdBack (task : TaskId) : DeskM Unit := do
  moveTask (·.pause task)
  setStatus task .paused

-- After a task has terminated, promoted children stay paused with a paused job, and
-- results that nobody waits for any more are released.
def settle (task : TaskId) (promoted : List TaskId) : DeskM Unit := do
  if (← theJob).status = .paused then
    promoted.forM holdBack
  let card ← theCard task
  (task :: card.parents).forM releaseResult

-- A job whose last task in error is gone goes on running.
def clearError : DeskM Unit := do
  let job ← theJob
  if job.status = .inError ∧ !job.hasTasksInError then
    setJobStatus .running

end DeskM

namespace SchedulerM

def withDesk (scheduler : Scheduler) (desk : Desk) : Scheduler :=
  { scheduler with registry := scheduler.registry.put desk.job, slots := desk.slots }

-- Works on a live job, writing back what becomes of it whether the work fails or not.
def atDesk (job : LiveJob) (work : DeskM α) : SchedulerM α := fun scheduler =>
  match work ⟨job, scheduler.slots⟩ with
  | .ok answer desk => .ok answer (withDesk scheduler desk)
  | .error fault desk => .error fault (withDesk scheduler desk)

end SchedulerM

end JobScheduler
