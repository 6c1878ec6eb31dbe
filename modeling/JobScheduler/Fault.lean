import JobScheduler.Id
import JobScheduler.Status

namespace JobScheduler

-- What a transition asked of a task, and what stood in its way.
inductive Breach
  | misplaced (expected found : Place)
  | unkillable (found : Place)
  | failedJob
deriving DecidableEq, Repr

namespace Breach

def expected : Breach → String
  | .misplaced expected _ => expected.name
  | .unkillable _ => "eligible, running or paused"
  | .failedJob => "paused task of a live job"

def found : Breach → String
  | .misplaced _ found => found.name
  | .unkillable found => found.name
  | .failedJob => "failed job"

end Breach

-- Why a submission or a submission file is refused. Jobs and tasks are named.
inductive Refusal
  | noTasks (job : String)
  | conflictingPolicies (job : String)
  | noResources (job task : String)
  | noExecutions (job task : String)
  | dependentSingleTask (job task : String)
  | duplicateTask (job task : String)
  | selfDependency (job task : String)
  | unknownDependency (job task dependency : String)
  | outOfPlace (task : String) (id : TaskId) (position : Nat) (job : JobId)
  | noJobs
  | noSlots
  | noQueue
  | tooLarge (job task : String) (needed available : Nat)
deriving DecidableEq, Repr

def Refusal.message : Refusal → String
  | .noTasks job => s!"job '{job}' must contain at least one task"
  | .conflictingPolicies job => s!"job '{job}' sets both cancel_on_error and pause_on_error"
  | .noResources job task => s!"task '{job}.{task}' must need at least one resource (got 0)"
  | .noExecutions job task => s!"task '{job}.{task}' must allow at least one execution (got 0)"
  | .dependentSingleTask job task =>
      s!"task '{job}.{task}' declares `after` but job '{job}' is single_task"
  | .duplicateTask job task => s!"job '{job}' declares task '{task}' more than once"
  | .selfDependency job task => s!"task '{job}.{task}' cannot depend on itself in `after`"
  | .unknownDependency job task dependency =>
      s!"task '{job}.{task}' has unknown dependency '{dependency}' in `after`"
  | .outOfPlace task id position job =>
      s!"task '{task}' has id {id} but is declared at position {position} of {job}"
  | .noJobs => "config must contain at least one [job.<name>] section"
  | .noSlots => "[scheduler].resources must be >= 1 (got 0)"
  | .noQueue => "[scheduler].event_queue_length must be >= 1 (got 0)"
  | .tooLarge job task needed available =>
      s!"task '{job}.{task}' needs {needed} resources but the scheduler only has {available}"

inductive Fault
  | refused (cause : Refusal)
  | cycle (job task : String)
  | jobNotFound (job : JobId)
  | taskNotFound (task : TaskId)
  | contract (task : TaskId) (breach : Breach)
  | unknownTask (job task : String)
  | abortedTask (job task : String)
  | inconsistent (job task : String) (status : TaskStatus) (place : Place)
  | replay (cause : Fault)
  | idInUse (job : JobId)
  | source (text : String)
  | unreadable
  | malformed
deriving DecidableEq, Repr

namespace Fault

inductive Kind
  | configuration | cycle | jobNotFound | taskNotFound | contract | recovery | input | format
deriving DecidableEq, Repr

def kind : Fault → Kind
  | .refused _ => .configuration
  | .cycle .. => .cycle
  | .jobNotFound _ => .jobNotFound
  | .taskNotFound _ => .taskNotFound
  | .contract .. => .contract
  | .unknownTask .. | .abortedTask .. | .inconsistent .. | .replay _ | .idInUse _ | .source _ =>
      .recovery
  | .unreadable => .input
  | .malformed => .format

def message : Fault → String
  | .refused cause => s!"Configuration error: {cause.message}"
  | .cycle job task =>
      s!"Cycle detected in task graph: cycle detected in job '{job}' involving task '{task}'"
  | .jobNotFound job => s!"Job not found: {job}"
  | .taskNotFound task => s!"Task not found: {task}"
  | .contract task breach =>
      s!"Contract violation on {task}: expected {breach.expected}, found {breach.found}"
  | .unknownTask job task =>
      s!"Recovery error: persisted status for unknown task '{job}.{task}'"
  | .abortedTask job task =>
      s!"Recovery error: task '{job}.{task}' was aborted; terminal jobs are not rebuilt"
  | .inconsistent job task status place =>
      s!"Recovery error: task '{job}.{task}' persisted as {status.name} but the graph leaves it " ++
        place.name
  | .replay cause => s!"Recovery error: replay failed: {cause.message}"
  | .idInUse job => s!"Recovery error: job id {job} is already in use"
  | .source text => s!"Recovery error: {text}"
  | .unreadable => "the input cannot be read as text"
  | .malformed => "the input does not have the form of a submission file"

end Fault

end JobScheduler
