import JobScheduler.Executor.Foreman
import JobScheduler.Scheduler.Step

namespace JobScheduler

-- What is sent to a scheduler: what a client asks for, or the report of a runner. All that
-- the scheduler learns of the work is its task.
inductive Message
  | asked (event : Event)
  | reported (work : Assignment) (result : TaskResult)

def Message.event : Message → Event
  | .asked event => event
  | .reported work result => .completed work.task result

-- A scheduler and a foreman that do not wait for each other. The requests of a step are
-- sent one by one through a bounded queue, and so are the messages the other way.
structure Plant where
  scheduler : Scheduler
  isOpen : Bool
  outbox : List Errand
  errands : List Errand
  foreman : Foreman
  messages : List Message
  room : Nat

namespace Plant

-- One move of a client, of the scheduler, which hears a message or sends a request, of the
-- foreman, or of the runner of a number. Which tasks may start is up to each step.
inductive Move
  | ask (event : Event)
  | hear (policy : Policy)
  | send
  | receive
  | report (number : Nat) (result : TaskResult)
  | abandon (number : Nat)
  | finish (number : Nat)

def errandRoom : Nat := 32

def hasRoom (plant : Plant) : Bool := plant.messages.length < plant.room

-- The foreman has received all that it will ever receive.
def isDeserted (plant : Plant) : Bool :=
  !plant.isOpen && plant.outbox.isEmpty && plant.errands.isEmpty

def follow (plant : Plant) (step : Step × Scheduler) : Plant :=
  { plant with
    scheduler := step.2
    isOpen := step.1.keepRunning
    outbox := step.1.commands.flatMap Command.errands }

-- The scheduler starts what can run before it hears of anything.
def opened (policy : Policy) (scheduler : Scheduler) (room : Nat) : Plant :=
  (⟨scheduler, true, [], [], .new, [], room⟩ : Plant).follow (scheduler.kickoff policy)

def advance (plant : Plant) (number : Nat) (stage : Stage) : Plant :=
  { plant with foreman := plant.foreman.alter number ({ · with stage }) }

-- Clients do not report on executions.
def ask? (plant : Plant) (event : Event) : Option Plant :=
  if event.reported.isEmpty ∧ plant.hasRoom then
    some { plant with messages := plant.messages ++ [.asked event] }
  else none

-- The scheduler hears the next message once it has sent all requests of the last step.
def hear? (plant : Plant) (policy : Policy) : Option Plant :=
  match plant.messages with
  | [] => none
  | message :: messages =>
      if plant.isOpen ∧ plant.outbox.isEmpty then
        some ({ plant with messages }.follow (plant.scheduler.step policy message.event))
      else none

def send? (plant : Plant) : Option Plant :=
  match plant.outbox with
  | [] => none
  | errand :: outbox =>
      if plant.errands.length < errandRoom then
        some { plant with outbox, errands := plant.errands ++ [errand] }
      else none

def receive? (plant : Plant) : Option Plant :=
  match plant.errands with
  | [] => none
  | errand :: errands => some { plant with errands, foreman := plant.foreman.receive errand }

-- A report is sent before its runner is over, and goes nowhere once the scheduler is closed.
def report? (plant : Plant) (number : Nat) (result : TaskResult) : Option Plant :=
  match plant.foreman.runners[number]? with
  | none => none
  | some runner =>
      if runner.stage ≠ .running then none
      else if !plant.isOpen then some (plant.advance number .reported)
      else if plant.hasRoom then
        some { plant.advance number .reported with
          messages := plant.messages ++ [.reported runner.work result] }
      else none

-- A runner that is stopped, or that the foreman has left behind, may end without a report.
def abandon? (plant : Plant) (number : Nat) : Option Plant :=
  match plant.foreman.runners[number]? with
  | none => none
  | some runner =>
      if runner.stage = .running ∧ (runner.stopped ∨ plant.isDeserted) then
        some (plant.advance number .ended)
      else none

def finish? (plant : Plant) (number : Nat) : Option Plant :=
  match plant.foreman.runners[number]? with
  | none => none
  | some runner => if runner.stage = .reported then some (plant.advance number .ended) else none

def move? (plant : Plant) : Move → Option Plant
  | .ask event => plant.ask? event
  | .hear policy => plant.hear? policy
  | .send => plant.send?
  | .receive => plant.receive?
  | .report number result => plant.report? number result
  | .abandon number => plant.abandon? number
  | .finish number => plant.finish? number

-- One move after the other, each of which has to be possible when its turn comes.
def moves? (plant : Plant) (moves : List Move) : Option Plant := moves.foldlM move? plant

end Plant

end JobScheduler
