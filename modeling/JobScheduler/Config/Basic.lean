import JobScheduler.Document.Forms

namespace JobScheduler

structure Limits where
  resources : Nat
  eventQueueLength : Nat
deriving DecidableEq, Repr

namespace Config

def standardLimits : Limits := ⟨4, 64⟩

structure TaskSection where
  cmd : String
  after : List String
  resources : Nat
  precious : Bool
  maxExecutions : Nat
deriving DecidableEq, Repr

structure JobSection where
  priority : Priority
  kind : JobKind
  cancelOnError : Bool
  pauseOnError : Bool
  tasks : SortedMap String TaskSection

end Config

-- A submission file as it is written, before anything in it is checked.
structure Config where
  limits : Limits
  jobs : SortedMap String Config.JobSection

-- A submission file that can be run: the jobs in the order in which they are handed in.
structure Batch where
  limits : Limits
  jobs : List Submission
deriving DecidableEq, Repr

namespace Config

open Document (Strictness)

def sizeBound : Nat := Nat.pow 2 64

def limits? (strictness : Strictness) (document : Document) : Option Limits := do
  let fields ← document.record? strictness ["resources", "event_queue_length"]
  return {
    resources := ← Document.optional fields "resources" standardLimits.resources
      (Document.natBelow? wordBound)
    eventQueueLength := ← Document.optional fields "event_queue_length"
      standardLimits.eventQueueLength (Document.natBelow? sizeBound) }

def taskSection? (strictness : Strictness) (document : Document) : Option TaskSection := do
  let fields ← document.record? strictness ["cmd", "after", "resources", "precious", "max_executions"]
  return {
    cmd := ← Document.required fields "cmd" Document.text?
    after := ← Document.optional fields "after" [] (Document.list? Document.text?)
    resources := ← Document.optional fields "resources" 1 (Document.natBelow? wordBound)
    precious := ← Document.optional fields "precious" false Document.boolean?
    maxExecutions := ← Document.optional fields "max_executions" 1 (Document.natBelow? wordBound) }

def jobSection? (strictness : Strictness) (document : Document) : Option JobSection := do
  let fields ← document.record? strictness ["priority", "kind", "cancel_on_error", "pause_on_error", "task"]
  return {
    priority := ← Document.optional fields "priority" .normal (Document.choice? strictness Priority.ofName?)
    kind := ← Document.optional fields "kind" .taskFlow (Document.choice? strictness JobKind.ofName?)
    cancelOnError := ← Document.optional fields "cancel_on_error" false Document.boolean?
    pauseOnError := ← Document.optional fields "pause_on_error" false Document.boolean?
    tasks := ← Document.optional fields "task" SortedMap.empty (Document.map? (taskSection? strictness)) }

-- Keys that the form does not know are passed over.
def ofDocument? (strictness : Strictness) (document : Document) : Option Config := do
  let fields ← document.record? strictness ["scheduler", "job"]
  return {
    limits := ← Document.optional fields "scheduler" standardLimits (limits? strictness)
    jobs := ← Document.optional fields "job" SortedMap.empty (Document.map? (jobSection? strictness)) }

def TaskSection.toTask (entry : String × TaskSection) : Submission.Task :=
  { name := entry.1
    cmd := entry.2.cmd
    after := entry.2.after
    resources := entry.2.resources
    precious := entry.2.precious
    maxExecutions := entry.2.maxExecutions }

def JobSection.toSubmission (entry : String × JobSection) : Submission :=
  { name := entry.1
    priority := entry.2.priority
    kind := entry.2.kind
    cancelOnError := entry.2.cancelOnError
    pauseOnError := entry.2.pauseOnError
    tasks := entry.2.tasks.entries.map TaskSection.toTask }

-- The jobs and their tasks in the order of their names.
def submissions (config : Config) : List Submission :=
  config.jobs.entries.map JobSection.toSubmission

def checkLimits (limits : Limits) : Except Fault Unit :=
  if limits.resources = 0 then .error (.refused .noSlots)
  else if limits.eventQueueLength = 0 then .error (.refused .noQueue)
  else .ok ()

def checkSize (limits : Limits) (job : String) (task : Submission.Task) : Except Fault Unit :=
  if limits.resources < task.resources then
    .error (.refused (.tooLarge job task.name task.resources limits.resources))
  else .ok ()

-- The id for which the tasks are resolved here does not matter.
def checkJob (limits : Limits) (submission : Submission) : Except Fault Unit := do
  submission.tasks.forM (checkSize limits submission.name)
  let _ ← submission.resolve ⟨0⟩

def validate (config : Config) : Except Fault Batch := do
  if config.jobs.isEmpty then
    throw (.refused .noJobs)
  checkLimits config.limits
  let jobs := config.submissions
  jobs.forM (checkJob config.limits)
  return ⟨config.limits, jobs⟩

end Config

end JobScheduler
