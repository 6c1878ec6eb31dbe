import JobScheduler.PlannedTask
import JobScheduler.Submission.NameGraph

namespace JobScheduler.Submission

def checkTask (submission : Submission) (seen : List String) (task : Task) : Except Fault Unit :=
  let job := submission.name
  if task.resources = 0 then .error (.refused (.noResources job task.name))
  else if task.maxExecutions = 0 then .error (.refused (.noExecutions job task.name))
  else if submission.kind = .singleTask ∧ task.after ≠ [] then
    .error (.refused (.dependentSingleTask job task.name))
  else if task.name ∈ seen then .error (.refused (.duplicateTask job task.name))
  else .ok ()

def checkTasks (submission : Submission) (seen : List String) : List Task → Except Fault Unit
  | [] => .ok ()
  | task :: rest => do
      submission.checkTask seen task
      submission.checkTasks (task.name :: seen) rest

def position? (submission : Submission) (name : String) : Option Nat :=
  submission.tasks.findIdx? (·.name == name)

-- Every name that a checked submission refers to has a position.
def dependencyIds (submission : Submission) (job : JobId) (task : Task) : List TaskId :=
  task.after.filterMap fun name => (submission.position? name).map (⟨job, ·⟩)

def plan (submission : Submission) (job : JobId) : List PlannedTask :=
  submission.tasks.mapIdx fun index task =>
    .new ⟨job, index⟩ task.name task.cmd task.resources task.precious task.maxExecutions
      (submission.dependencyIds job task)

-- The tasks of an acceptable submission with ids for names, in declaration order.
def resolve (submission : Submission) (job : JobId) : Except Fault (List PlannedTask) := do
  if submission.tasks.isEmpty then
    throw (.refused (.noTasks submission.name))
  if submission.cancelOnError && submission.pauseOnError then
    throw (.refused (.conflictingPolicies submission.name))
  submission.checkTasks [] submission.tasks
  (NameGraph.ofSubmission submission).check submission.name
  return submission.plan job

end JobScheduler.Submission
