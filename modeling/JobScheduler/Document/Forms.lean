import JobScheduler.Document.Basic
import JobScheduler.Job.Live

namespace JobScheduler

-- The forms in which submissions are handed in, and results and summaries handed out.

def wordBound : Nat := Nat.pow 2 32

def Submission.Task.toDocument (task : Submission.Task) : Document :=
  .table [
    ("name", .text task.name),
    ("cmd", .text task.cmd),
    ("after", .texts task.after),
    ("resources", .ofNat task.resources),
    ("precious", .boolean task.precious),
    ("max_executions", .ofNat task.maxExecutions)]

def Submission.Task.ofDocument? (document : Document) : Option Submission.Task := do
  let fields ← document.record? .strict
    ["name", "cmd", "after", "resources", "precious", "max_executions"]
  return {
    name := ← Document.required fields "name" Document.text?
    cmd := ← Document.required fields "cmd" Document.text?
    after := ← Document.optional fields "after" [] (Document.list? Document.text?)
    resources := ← Document.optional fields "resources" 1 (Document.natBelow? wordBound)
    precious := ← Document.optional fields "precious" false Document.boolean?
    maxExecutions := ← Document.optional fields "max_executions" 1 (Document.natBelow? wordBound) }

def Submission.toDocument (submission : Submission) : Document :=
  .table [
    ("name", .text submission.name),
    ("priority", .text submission.priority.name),
    ("kind", .text submission.kind.name),
    ("cancel_on_error", .boolean submission.cancelOnError),
    ("pause_on_error", .boolean submission.pauseOnError),
    ("tasks", .list (submission.tasks.map (·.toDocument)))]

def Submission.ofDocument? (document : Document) : Option Submission := do
  let fields ← document.record? .strict
    ["name", "priority", "kind", "cancel_on_error", "pause_on_error", "tasks"]
  return {
    name := ← Document.required fields "name" Document.text?
    priority := ← Document.optional fields "priority" .normal (Document.choice? .strict Priority.ofName?)
    kind := ← Document.optional fields "kind" .taskFlow (Document.choice? .strict JobKind.ofName?)
    cancelOnError := ← Document.optional fields "cancel_on_error" false Document.boolean?
    pauseOnError := ← Document.optional fields "pause_on_error" false Document.boolean?
    tasks := ← Document.required fields "tasks" (Document.list? Submission.Task.ofDocument?) }

def JobId.toDocument (job : JobId) : Document := .ofNat job.number.toNat

def TaskId.toDocument (task : TaskId) : Document :=
  .table [("job", task.job.toDocument), ("index", .ofNat task.index)]

def TaskResult.toDocument (result : TaskResult) : Document :=
  .table [
    ("task", result.task.toDocument),
    ("value", .ofOption .text result.value),
    ("exception", .ofOption .text result.exception),
    ("pending", .boolean result.pending)]

def Document.ofMap (write : α → Document) (map : SortedMap String α) : Document :=
  .table (map.entries.map fun entry => (entry.1, write entry.2))

-- The list of released results is left out while it is empty.
def JobResult.toDocument (results : JobResult) : Document :=
  let released := results.released.toList
  .table ([
    ("job_id", results.job.toDocument),
    ("job_name", .text results.name),
    ("all_results", .ofMap (·.toDocument) results.all),
    ("precious_results", .ofMap (·.toDocument) results.precious),
    ("exception_results", .ofMap (·.toDocument) results.exceptions)] ++
    (if released.isEmpty then [] else [("released", .texts released)]) ++
    [("final_status", .ofOption (.text ·.name) results.final)])

def Summary.toDocument (summary : Summary) : Document :=
  .table [
    ("id", summary.id.toDocument),
    ("name", .text summary.name),
    ("status", .text summary.status.name),
    ("tasks", .ofMap (.text ·.name) summary.tasks),
    ("result", summary.results.toDocument)]

end JobScheduler
