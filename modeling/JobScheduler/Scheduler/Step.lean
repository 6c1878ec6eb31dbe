import JobScheduler.Scheduler.Dispatch
import JobScheduler.Scheduler.Event

namespace JobScheduler

-- What a step asks the outside world to do, and whether the scheduler wants to go on.
structure Step where
  commands : List Command
  keepRunning : Bool

namespace Scheduler

def run (scheduler : Scheduler) (work : SchedulerM α) : Except Fault α × Scheduler :=
  match work scheduler with
  | .ok answer scheduler => (.ok answer, scheduler)
  | .error fault scheduler => (.error fault, scheduler)

def dispatched : Except Fault (List Assignment) → List Command
  | .ok [] | .error _ => []
  | .ok assignments => [.dispatch assignments]

-- Hands out the commands held back, those of the event and a dispatch pass, in this order.
def finishStep (policy : Policy) (scheduler : Scheduler) (handled : List Command) :
    Step × Scheduler :=
  let commands := scheduler.pending ++ handled
  let (started, scheduler) :=
    { scheduler with pending := [] }.run (SchedulerM.dispatch policy.accepts)
  let commands := commands ++ dispatched started
  if policy.exitWhenIdle ∧ scheduler.registry.live.isEmpty then
    (⟨commands ++ [.exit], false⟩, scheduler)
  else
    (⟨commands, true⟩, scheduler)

-- Starts what can run before the first event.
def kickoff (policy : Policy) (scheduler : Scheduler) : Step × Scheduler :=
  finishStep policy scheduler []

-- Handles one event. One that is refused gives no commands of its own.
def step (policy : Policy) (scheduler : Scheduler) (event : Event) : Step × Scheduler :=
  match event with
  | .shutdown => (⟨scheduler.pending, false⟩, { scheduler with pending := [] })
  | event =>
      match scheduler.run (SchedulerM.handle event) with
      | (.ok commands, scheduler) => finishStep policy scheduler commands
      | (.error _, scheduler) => finishStep policy scheduler []

def jobStatus? (scheduler : Scheduler) (id : JobId) : Option JobStatus :=
  ((scheduler.registry.find? id).map (·.status)).or
    ((scheduler.registry.ended? id).map (·.status))

def jobResult? (scheduler : Scheduler) (id : JobId) : Option JobResult :=
  ((scheduler.registry.find? id).map (·.results)).or
    ((scheduler.registry.ended? id).map (·.results))

def taskStatus? (scheduler : Scheduler) (task : TaskId) : Option TaskStatus :=
  (scheduler.registry.find? task.job).bind (·.statusOf? task)

end Scheduler

end JobScheduler
