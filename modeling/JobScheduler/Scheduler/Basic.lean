import JobScheduler.Job.Registry
import JobScheduler.ReadyQueue

namespace JobScheduler

-- Worker slots, of which tasks take as many as they need while they run.
structure Slots where
  total : Nat
  free : Nat
deriving DecidableEq, Repr

namespace Slots

def ofTotal (total : Nat) : Slots := ⟨total, total⟩

def release (slots : Slots) (count : Nat) : Slots :=
  { slots with free := min (slots.free + count) slots.total }

def take (slots : Slots) (count : Nat) : Slots := { slots with free := slots.free - count }

end Slots

-- A task handed out to be run. `attempt` counts the dispatch passes that have looked at
-- the task, this one included, and stays as small as that count does.
structure Assignment where
  task : TaskId
  job : String
  name : String
  cmd : String
  resources : Nat
  attempt : Nat
deriving DecidableEq, Repr

def Assignment.ofCard (job : String) (card : Card) : Assignment :=
  ⟨card.id, job, card.name, card.task.cmd, card.resources, card.attempts⟩

inductive Command
  | dispatch (assignments : List Assignment)
  | cancel (tasks : List TaskId)
  | ended (summary : Summary)
  | exit

def Command.cancelling (tasks : List TaskId) : List Command :=
  if tasks.isEmpty then [] else [.cancel tasks]

-- Which eligible tasks may start, and whether to stop once no job is live.
structure Policy where
  accepts : Card → Bool
  exitWhenIdle : Bool

def Policy.acceptAll (exitWhenIdle : Bool) : Policy := ⟨fun _ => true, exitWhenIdle⟩

-- `pending` holds commands that recovery has produced and no step has handed out yet.
structure Scheduler where
  registry : Registry
  queue : ReadyQueue
  slots : Slots
  pending : List Command

def Scheduler.new (slots : Nat) : Scheduler :=
  ⟨Registry.empty, ReadyQueue.empty, Slots.ofTotal slots, []⟩

-- A computation on the scheduler. One that fails leaves what it has changed so far.
abbrev SchedulerM := EStateM Fault Scheduler

namespace Scheduler

def refreshQueue (scheduler : Scheduler) (id : JobId) : Scheduler :=
  match scheduler.registry.find? id with
  | some job => { scheduler with queue := scheduler.queue.refresh job.board }
  | none => scheduler

-- Takes a job off the books: its work is abandoned, its slots are given back and its
-- summary is kept and handed out.
def endJob (scheduler : Scheduler) (id : JobId) (status : JobStatus) : Scheduler × List Command :=
  match scheduler.registry.find? id with
  | none => (scheduler, [])
  | some job =>
      let (board, running) := job.board.teardown
      let slots := running.foldl (fun slots task =>
        match board.card task with
        | .ok card => slots.release card.resources
        | .error _ => slots) scheduler.slots
      let summary := ({ job with board }.abortUnfinished).summary status
      ({ scheduler with
          registry := (scheduler.registry.drop id).record summary
          queue := scheduler.queue.remove id
          slots },
        Command.cancelling running ++ [.ended summary])

end Scheduler

end JobScheduler
