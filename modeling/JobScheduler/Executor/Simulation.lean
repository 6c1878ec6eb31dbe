import JobScheduler.Executor.Script
import JobScheduler.Scheduler.Step

namespace JobScheduler

-- A bounded first-in first-out queue of events.
structure Channel where
  capacity : Nat
  waiting : List Event

def Channel.send? (channel : Channel) (event : Event) : Option Channel :=
  if channel.waiting.length < channel.capacity then
    some { channel with waiting := channel.waiting ++ [event] }
  else
    none

-- A scheduler whose commands go to a scripted executor, which answers through the
-- channel that the scheduler reads its events from.
structure Simulation where
  scheduler : Scheduler
  executor : ScriptedExecutor
  channel : Channel
  ended : List Summary

namespace Simulation

-- How a simulation stops: the scheduler wants no more, or nothing is left to read, or a
-- report finds the channel full and nobody to empty it, or the rounds are used up.
inductive Halt
  | exited
  | idle
  | stuck
  | unfinished
deriving DecidableEq, Repr

def sendReports (simulation : Simulation) : List (TaskId × TaskResult) → Option Simulation
  | [] => some simulation
  | (task, result) :: rest => do
      let channel ← simulation.channel.send? (.completed task result)
      sendReports { simulation with channel } rest

def obey (simulation : Simulation) : Command → Option Simulation
  | .dispatch work =>
      let (reports, executor) := simulation.executor.executeAll work
      sendReports { simulation with executor } reports
  | .cancel tasks => some { simulation with executor := simulation.executor.cancel tasks }
  | .ended summary => some { simulation with ended := simulation.ended ++ [summary] }
  | .exit => some simulation

def obeyAll (simulation : Simulation) (commands : List Command) : Option Simulation :=
  commands.foldlM obey simulation

-- Obeys the commands of a step and tells whether the scheduler goes on.
def follow (simulation : Simulation) (step : Step × Scheduler) : Option (Bool × Simulation) := do
  let simulation ← { simulation with scheduler := step.2 }.obeyAll step.1.commands
  return (step.1.keepRunning, simulation)

def rounds (policy : Policy) : Nat → Simulation → Halt × Simulation
  | 0, simulation => (.unfinished, simulation)
  | left + 1, simulation =>
      match simulation.channel.waiting with
      | [] => (.idle, simulation)
      | event :: waiting =>
          let simulation := { simulation with channel := { simulation.channel with waiting } }
          match simulation.follow (simulation.scheduler.step policy event) with
          | none => (.stuck, simulation)
          | some (false, simulation) => (.exited, simulation)
          | some (true, simulation) => rounds policy left simulation

-- Starts what can run, then handles event after event for so many rounds at most.
def run (policy : Policy) (limit : Nat) (simulation : Simulation) : Halt × Simulation :=
  match simulation.follow (simulation.scheduler.kickoff policy) with
  | none => (.stuck, simulation)
  | some (false, simulation) => (.exited, simulation)
  | some (true, simulation) => rounds policy limit simulation

def total (counts : List Nat) : Nat := counts.foldl (· + ·) 0

def allowance (submission : Submission) : Nat :=
  total (submission.tasks.map (·.maxExecutions + 1))

def awaitedAllowance : Event → Nat
  | .submitted submission => allowance submission
  | _ => 0

-- More rounds than there can be events. A task is handed out at most once for each of its
-- executions and once more, and every event that waits can let each task start afresh.
def limit (simulation : Simulation) : Nat :=
  let events := simulation.channel.waiting
  let live := simulation.scheduler.registry.live.values.map fun job => allowance job.submission
  total (live ++ events.map awaitedAllowance) * (events.length + 1) + 2 * events.length

def runToEnd (policy : Policy) (simulation : Simulation) : Halt × Simulation :=
  run policy simulation.limit simulation

end Simulation

end JobScheduler
