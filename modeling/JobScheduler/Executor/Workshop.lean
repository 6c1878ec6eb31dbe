import JobScheduler.Executor.Report
import JobScheduler.Scheduler.Step

namespace JobScheduler

open Shell

-- Part of the outer layer: the tasks of a whole run, each with a shell of its own. What is
-- proved of an executor is proved of the foreman, who starts and stops them.

-- A task that was handed out: it cannot be started, or it is a command that runs.
inductive Running
  | refused (result : TaskResult)
  | launched (task : TaskId) (launched : Launched)

def Running.task : Running → TaskId
  | .refused result => result.task
  | .launched task _ => task

-- A scheduler whose tasks are run as commands in a world that they share.
structure Workshop where
  scheduler : Scheduler
  world : World
  running : List Running
  ended : List Summary

namespace Workshop

-- The time between the starts of two commands.
def startDelay : Nat := 1000

def start (workshop : Workshop) (place : Nat) (work : Assignment) : Workshop :=
  match Report.unstartable? work with
  | some result => { workshop with running := workshop.running ++ [.refused result] }
  | none =>
      let (launched, world) := workshop.world.launch (place * startDelay) work.cmd
      { workshop with world, running := workshop.running ++ [.launched work.task launched] }

def stop (workshop : Workshop) (task : TaskId) : Workshop :=
  let world := workshop.running.foldl
    (fun world running =>
      match running with
      | .launched other launched => if other = task then world.stop launched else world
      | .refused _ => world)
    workshop.world
  { workshop with world, running := workshop.running.filter fun entry => entry.task ≠ task }

def obey (workshop : Workshop) : Command → Workshop
  | .dispatch assignments =>
      assignments.zipIdx.foldl (fun workshop entry => workshop.start entry.2 entry.1) workshop
  | .cancel tasks => tasks.foldl stop workshop
  | .ended summary => { workshop with ended := workshop.ended ++ [summary] }
  | .exit => workshop

-- Obeys the commands of a step and tells whether the scheduler goes on.
def follow (workshop : Workshop) (step : Step × Scheduler) : Bool × Workshop :=
  (step.1.keepRunning, step.1.commands.foldl obey { workshop with scheduler := step.2 })

def result? (world : World) : Running → Option TaskResult
  | .refused result => some result
  | .launched task launched => (world.ended? launched).map (Report.ofEnded task)

-- The first task that is over, and those that are left.
def takeOver (world : World) : List Running → Option (TaskResult × List Running)
  | [] => none
  | entry :: rest =>
      match result? world entry with
      | some result => some (result, rest)
      | none => (takeOver world rest).map fun found => (found.1, entry :: found.2)

-- Reports tasks that are over and lets the commands go on otherwise, so many times at most.
def rounds (policy : Policy) : Nat → Workshop → Workshop
  | 0, workshop => workshop
  | left + 1, workshop =>
      match takeOver workshop.world workshop.running with
      | some (result, running) =>
          let workshop := { workshop with running }
          let event := Event.completed result.task result
          match workshop.follow (workshop.scheduler.step policy event) with
          | (false, workshop) => workshop
          | (true, workshop) => rounds policy left workshop
      | none =>
          if workshop.running.isEmpty then workshop
          else
            match workshop.world.step? with
            | none => workshop
            | some world => rounds policy left { workshop with world }

-- Runs until the scheduler wants no more or nothing is left that runs.
def run (policy : Policy) (limit : Nat) (workshop : Workshop) : Workshop :=
  match workshop.follow (workshop.scheduler.kickoff policy) with
  | (false, workshop) => workshop
  | (true, workshop) => rounds policy limit workshop

end Workshop

end JobScheduler
