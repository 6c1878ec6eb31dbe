import JobScheduler.Scheduler.Desk

namespace JobScheduler

-- What a pass makes of the eligible tasks of a job: those it looked at, and among them
-- those to start.
structure Selection where
  considered : List Card
  chosen : List Card

namespace Selection

-- Goes through the tasks as long as slots are left. A task that needs more than are left
-- is passed over, so that a smaller one behind it can start.
def among (accepts : Card → Bool) (budget : Nat) : List Card → Selection
  | [] => ⟨[], []⟩
  | card :: rest =>
      if budget = 0 then ⟨[], []⟩
      else if card.resources ≤ budget ∧ accepts card then
        let later := among accepts (budget - card.resources) rest
        ⟨card :: later.considered, card :: later.chosen⟩
      else
        let later := among accepts budget rest
        ⟨card :: later.considered, later.chosen⟩

end Selection

namespace DeskM

def noteAttempt (card : Card) : DeskM Unit := do
  let _ ← transition (·.recordAttempt card.id)

def startTask (card : Card) : DeskM Assignment := do
  moveTask (·.start card.id)
  takeSlots card.resources
  setStatus card.id .running
  if (← theJob).status = .pending then
    setJobStatus .running
  return .ofCard (← theJob).submission.name (← theCard card.id)

-- Starts what fits of the job's eligible tasks, in id order.
def serve (accepts : Card → Bool) : DeskM (List Assignment) := do
  let desk ← get
  let selection := Selection.among accepts desk.slots.free desk.job.board.eligibleCards
  selection.considered.forM noteAttempt
  selection.chosen.mapM startTask

end DeskM

namespace SchedulerM

def serveJobs (accepts : Card → Bool) : List JobId → SchedulerM (List Assignment)
  | [] => return []
  | id :: rest => do
      let scheduler ← get
      if scheduler.slots.free = 0 then
        return []
      match scheduler.registry.find? id with
      | none => do
          set { scheduler with queue := scheduler.queue.remove id }
          serveJobs accepts rest
      | some job => do
          let started ← atDesk job (DeskM.serve accepts)
          modify (·.refreshQueue id)
          return started ++ (← serveJobs accepts rest)

-- Starts as many eligible tasks as the free slots allow, job by job in the order of the
-- ready queue.
def dispatch (accepts : Card → Bool) : SchedulerM (List Assignment) := do
  serveJobs accepts (← get).queue.toList

end SchedulerM

end JobScheduler
