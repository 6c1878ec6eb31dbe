import JobScheduler.Job.Live

namespace JobScheduler

-- The live jobs and the summaries of those that ended, by id. `nextId` starts again from
-- zero once the last number has been given.
structure Registry where
  live : SortedMap JobId LiveJob
  ended : SortedMap JobId Summary
  nextId : UInt64

namespace Registry

def empty : Registry := ⟨SortedMap.empty, SortedMap.empty, 0⟩

def find? (registry : Registry) (id : JobId) : Option LiveJob := registry.live.find? id

def ended? (registry : Registry) (id : JobId) : Option Summary := registry.ended.find? id

def put (registry : Registry) (job : LiveJob) : Registry :=
  { registry with live := registry.live.insert job.id job }

def drop (registry : Registry) (id : JobId) : Registry :=
  { registry with live := registry.live.erase id }

def record (registry : Registry) (summary : Summary) : Registry :=
  { registry with ended := registry.ended.insert summary.id summary }

-- A refused submission uses up no id. An accepted one gets the next id even if a job has
-- it already, which is then lost.
def submit (registry : Registry) (submission : Submission) : Except Fault (Registry × LiveJob) := do
  let job ← LiveJob.new ⟨registry.nextId⟩ submission
  return ({ registry.put job with nextId := registry.nextId + 1 }, job)

-- Takes a recovered job in under the id that it had.
def insertRecovered (registry : Registry) (job : LiveJob) : Except Fault Registry :=
  if registry.live.contains job.id || registry.ended.contains job.id then
    .error (.idInUse job.id)
  else
    .ok { registry.put job with nextId := max registry.nextId (job.id.number + 1) }

end Registry

end JobScheduler
