import JobScheduler.CommandLine.Arguments
import JobScheduler.Config.File
import JobScheduler.Document.Json
import JobScheduler.Executor.Workshop
import JobScheduler.Text.Quoted

namespace JobScheduler.CommandLine

open Shell Text

def yesNo (value : Bool) : String := if value then "true" else "false"

-- A line about a task, where it differs from the usual.
def only (shown : Bool) (line : String) : List String := if shown then [line] else []

def taskLines (task : Submission.Task) : List String :=
  [s!"      - {task.name}", s!"          cmd: {task.cmd}"] ++
    only (!task.after.isEmpty) s!"          after: {Quoted.encodeList task.after}" ++
    only (task.resources != 1) s!"          resources: {task.resources}" ++
    only task.precious "          precious: true" ++
    only (task.maxExecutions != 1) s!"          max_executions: {task.maxExecutions}"

def jobLines (job : Submission) : List String :=
  [s!"  - {job.name} (priority: {job.priority.title}, kind: {job.kind.title}, " ++
      s!"cancel_on_error: {yesNo job.cancelOnError}, pause_on_error: {yesNo job.pauseOnError})",
    s!"      roots: {Quoted.encodeList (NameGraph.ofSubmission job).roots}"] ++
    job.tasks.flatMap taskLines

-- What a batch would run, one item a line.
def dryRunLines (batch : Batch) : List String :=
  ["jobflow dry-run",
    s!"  scheduler.resources = {batch.limits.resources}",
    s!"  scheduler.event_queue_length = {batch.limits.eventQueueLength}",
    "",
    s!"jobs ({batch.jobs.length}):"] ++
    batch.jobs.flatMap jobLines

def unlines (lines : List String) : String := String.join (lines.map (· ++ "\n"))

def dryRun (batch : Batch) : String := unlines (dryRunLines batch)

-- Why a run gives no output.
inductive Failure
  | arguments (cause : Objection)
  | loading (path : String) (cause : Fault)
  | submitting (job : String) (cause : Fault)
deriving DecidableEq, Repr

def submitAll (scheduler : Scheduler) : List Submission → Except Failure Scheduler
  | [] => .ok scheduler
  | job :: rest =>
      match scheduler.run (SchedulerM.submit job) with
      | (.ok _, scheduler) => submitAll scheduler rest
      | (.error cause, _) => .error (.submitting job.name cause)

-- Runs all jobs of a batch and tells how they ended, in the order in which they did.
def runJobs (files : FileTree) (batch : Batch) (exitWhenIdle : Bool) :
    Except Failure (List Summary) := do
  let scheduler ← submitAll (Scheduler.new batch.limits.resources) batch.jobs
  let workshop : Workshop := { scheduler, world := .ofTree files, running := [], ended := [] }
  return (workshop.run (.acceptAll exitWhenIdle) ProcessM.patience).ended

def report (summaries : List Summary) : String :=
  unlines (summaries.map fun summary => summary.toDocument.toJson)

def content? (files : FileTree) (path : String) : Option (List UInt8) :=
  (files.bytesAt? FileTree.workplace (narrow path)).map octets

-- The text that a call prints, given the files that it finds.
def execute (files : FileTree) (arguments : Arguments) : Except Failure String := do
  let batch ←
    match Config.load (content? files arguments.config) with
    | .ok batch => pure batch
    | .error cause => throw (.loading arguments.config cause)
  if arguments.dryRun then return dryRun batch
  return report (← runJobs files batch (!arguments.keepRunning))

def run (files : FileTree) (arguments : List String) : Except Failure String := do
  match parse arguments with
  | .ok arguments => execute files arguments
  | .error cause => throw (.arguments cause)

end JobScheduler.CommandLine
