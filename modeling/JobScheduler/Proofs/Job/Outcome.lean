import JobScheduler.Proofs.Job.Move

namespace JobScheduler.LiveJob

-- A running task that has to run again waits for a worker, or in a held job for the
-- client.
def requeued (job : LiveJob) (task : TaskId) (status : TaskStatus) : LiveJob :=
  if job.status = .paused then (job.shift task .running .eligible).holdingBack task
  else setStatus status (job.shift task .running .eligible) task

def addingResult (job : LiveJob) (card : Card) (result : TaskResult) : LiveJob :=
  { job with results := job.results.add card.name result card.task.precious }

-- A running task that failed for good waits for the client to look at it.
def heldInError (job : LiveJob) (task : TaskId) (card : Card) (result : TaskResult) : LiveJob :=
  let job := setStatus .inError ((job.shift task .running .paused).addingResult card result) task
  if job.status = .paused then job else { job with status := .inError }

def releasing (job : LiveJob) (task : TaskId) : LiveJob :=
  match job.board.card task with
  | .ok card =>
      if card.remaining = 0 then { job with results := job.results.release card.name } else job
  | .error _ => job

-- What follows a termination.
def settled (job : LiveJob) (task : TaskId) (parents promoted : List TaskId) : LiveJob :=
  (task :: parents).foldl releasing (if job.status = .paused then job.allHeldBack promoted else job)

def errorCleared (job : LiveJob) : LiveJob :=
  if job.status = .inError ∧ !job.hasTasksInError then { job with status := .running } else job

section Releasing

variable (job : LiveJob)

theorem releasing_eq (task : TaskId) : ∃ results, job.releasing task = { job with results } := by
  unfold releasing
  split
  · split
    · exact ⟨_, rfl⟩
    · exact ⟨job.results, rfl⟩
  · exact ⟨job.results, rfl⟩

-- A release is a matter of results alone.
theorem foldl_releasing_eq (tasks : List TaskId) :
    ∃ results, tasks.foldl releasing job = { job with results } := by
  induction tasks generalizing job with
  | nil => exact ⟨job.results, rfl⟩
  | cons first rest ih =>
      obtain ⟨results, hfirst⟩ := job.releasing_eq first
      obtain ⟨results', hrest⟩ := ih (job.releasing first)
      exact ⟨results', by rw [List.foldl_cons, hrest, hfirst]⟩

end Releasing

@[simp] theorem requeued_status (job : LiveJob) (task : TaskId) (status : TaskStatus) :
    (job.requeued task status).status = job.status := by
  unfold requeued
  split <;> rfl

theorem heldInError_status (job : LiveJob) (task : TaskId) (card : Card) (result : TaskResult) :
    (job.heldInError task card result).status = if job.status = .paused then .paused else .inError := by
  unfold heldInError
  dsimp only
  split
  · rename_i hpaused
    exact hpaused.trans (if_pos hpaused).symm
  · rename_i hpaused
    exact (if_neg hpaused).symm

-- What was promoted is held back in a held job.
theorem settled_of_held {job : LiveJob} (h : job.status = .paused) (task : TaskId)
    (parents promoted : List TaskId) :
    ∃ results, job.settled task parents promoted = { job.allHeldBack promoted with results } := by
  rw [settled, if_pos h]
  exact foldl_releasing_eq _ _

theorem settled_of_not_held {job : LiveJob} (h : job.status ≠ .paused) (task : TaskId)
    (parents promoted : List TaskId) :
    ∃ results, job.settled task parents promoted = { job with results } := by
  rw [settled, if_neg h]
  exact foldl_releasing_eq _ _

@[simp] theorem settled_status (job : LiveJob) (task : TaskId) (parents promoted : List TaskId) :
    (job.settled task parents promoted).status = job.status := by
  by_cases hpaused : job.status = .paused
  · obtain ⟨results, heq⟩ := settled_of_held hpaused task parents promoted
    rw [heq]
    exact allHeldBack_status job promoted
  · obtain ⟨results, heq⟩ := settled_of_not_held hpaused task parents promoted
    rw [heq]

theorem errorCleared_eq (job : LiveJob) : ∃ status, job.errorCleared = { job with status } ∧
    (status = .paused ↔ job.status = .paused) ∧ (status = .pending ↔ job.status = .pending) ∧
    (job.status.isTerminal = false → status.isTerminal = false) ∧
    (status = .inError ↔ job.status = .inError ∧ job.hasTasksInError) := by
  unfold errorCleared
  split
  · rename_i h
    exact ⟨.running, rfl, by simp [h.1], by simp [h.1], fun _ => rfl, by simpa using fun _ => h.2⟩
  · rename_i h
    refine ⟨job.status, rfl, Iff.rfl, Iff.rfl, fun h => h, ?_⟩
    simp at h ⊢
    exact h

end JobScheduler.LiveJob
