import JobScheduler.Job.Live
import JobScheduler.Proofs.Board.Bulk

namespace JobScheduler

namespace LiveJob

section SetStatus

variable (status : TaskStatus) (job : LiveJob) (task : TaskId)

@[simp] theorem setStatus_board : (setStatus status job task).board = job.board := rfl

@[simp] theorem setStatus_submission : (setStatus status job task).submission = job.submission := rfl

@[simp] theorem setStatus_length : (setStatus status job task).statuses.length = job.statuses.length := by
  simp [setStatus]

theorem statusOf?_setStatus (other : TaskId) :
    (setStatus status job task).statusOf? other =
      (job.statusOf? other).map fun old => if other.index = task.index then status else old := by
  simp only [statusOf?, setStatus, List.getElem?_set']
  by_cases h : task.index = other.index
  · simp only [h, if_true]
    cases job.statuses[other.index]? <;> rfl
  · simp [h, Ne.symm h]

variable (tasks : List TaskId)

theorem setStatuses_cons :
    setStatuses status job (task :: tasks) = setStatuses status (setStatus status job task) tasks := rfl

@[simp] theorem setStatuses_board : (setStatuses status job tasks).board = job.board := by
  induction tasks generalizing job with
  | nil => rfl
  | cons task rest ih => rw [setStatuses_cons, ih, setStatus_board]

@[simp] theorem setStatuses_submission :
    (setStatuses status job tasks).submission = job.submission := by
  induction tasks generalizing job with
  | nil => rfl
  | cons task rest ih => rw [setStatuses_cons, ih, setStatus_submission]

@[simp] theorem setStatuses_status : (setStatuses status job tasks).status = job.status := by
  induction tasks generalizing job with
  | nil => rfl
  | cons task rest ih => exact ih (setStatus status job task)

@[simp] theorem setStatuses_results : (setStatuses status job tasks).results = job.results := by
  induction tasks generalizing job with
  | nil => rfl
  | cons task rest ih => exact ih (setStatus status job task)

@[simp] theorem setStatuses_length :
    (setStatuses status job tasks).statuses.length = job.statuses.length := by
  induction tasks generalizing job with
  | nil => rfl
  | cons task rest ih => rw [setStatuses_cons, ih, setStatus_length]

theorem statusOf?_setStatuses (other : TaskId) :
    (setStatuses status job tasks).statusOf? other =
      (job.statusOf? other).map fun old =>
        if other.index ∈ tasks.map (·.index) then status else old := by
  induction tasks generalizing job with
  | nil => simp [setStatuses]
  | cons task rest ih =>
      rw [setStatuses_cons, ih, statusOf?_setStatus, Option.map_map]
      congr 1
      funext old
      by_cases hmem : other.index ∈ rest.map (·.index) <;>
        by_cases hindex : other.index = task.index <;> simp_all

end SetStatus

theorem mem_tasksWith_iff (job : LiveJob) (wanted : TaskStatus → Bool) (id : TaskId) :
    id ∈ job.tasksWith wanted ↔
      id.job = job.id ∧ ∃ status, job.statusOf? id = some status ∧ wanted status := by
  simp only [tasksWith, List.mem_map, List.mem_filter, Prod.exists, List.mem_zipIdx_iff_getElem?,
    statusOf?]
  constructor
  · rintro ⟨status, index, ⟨hstatus, hwanted⟩, rfl⟩
    exact ⟨rfl, status, hstatus, hwanted⟩
  · rintro ⟨hjob, status, hstatus, hwanted⟩
    exact ⟨status, id.index, ⟨hstatus, hwanted⟩, TaskId.eq_of_index_eq hjob.symm rfl⟩

theorem index_mem_tasksWith_iff (job : LiveJob) (wanted : TaskStatus → Bool) (index : Nat) :
    index ∈ (job.tasksWith wanted).map (·.index) ↔
      ∃ status, job.statuses[index]? = some status ∧ wanted status := by
  constructor
  · intro h
    obtain ⟨id, hid, rfl⟩ := List.mem_map.mp h
    exact ((mem_tasksWith_iff job wanted id).mp hid).2
  · intro h
    exact List.mem_map.mpr ⟨⟨job.id, index⟩, (mem_tasksWith_iff job wanted _).mpr ⟨rfl, h⟩, rfl⟩

section Restate

variable (job : LiveJob) (wanted : TaskStatus → Bool) (status : TaskStatus)

@[simp] theorem restate_submission :
    (job.restate wanted status).1.submission = job.submission := by
  simp [restate]

@[simp] theorem restate_status : (job.restate wanted status).1.status = job.status := by
  simp [restate]

@[simp] theorem restate_results : (job.restate wanted status).1.results = job.results := by
  simp [restate]

@[simp] theorem restate_length :
    (job.restate wanted status).1.statuses.length = job.statuses.length := by
  simp [restate]

theorem restate_board : (job.restate wanted status).1.board =
    (job.board.applyStatuses
      (SortedMap.ofList ((job.tasksWith wanted).map (·, status)))).1 := by
  simp [restate]

-- The tasks with a wanted status get the new one, and the others keep theirs.
theorem statusOf?_restate (id : TaskId) :
    (job.restate wanted status).1.statusOf? id =
      (job.statusOf? id).map fun old => if wanted old then status else old := by
  have hset := statusOf?_setStatuses status
    { job with board := (job.restate wanted status).1.board } (job.tasksWith wanted) id
  refine Eq.trans ?_ (hset.trans ?_)
  · rw [restate_board]
    rfl
  · cases hold : job.statusOf? id with
    | none => simp [statusOf?] at hold ⊢; exact hold
    | some old =>
        have hindex := index_mem_tasksWith_iff job wanted id.index
        simp only [statusOf?] at hold ⊢
        rw [hold] at hindex ⊢
        simp_all

-- A task with a wanted status goes where the new status takes it, and nothing else moves.
theorem placeOf_restate (id : TaskId) :
    (job.restate wanted status).1.board.placeOf id =
      (job.board.placeOf id).map fun place =>
        if (job.statusOf? id).any wanted then Place.follow job.board.failed status place
        else place := by
  rw [restate_board, Board.placeOf_applyStatuses]
  unfold Place.redirect
  rw [SortedMap.find?_ofList_const]
  cases hplace : job.board.placeOf id with
  | error fault => rfl
  | ok place =>
      have hmem := mem_tasksWith_iff job wanted id
      have hjob : id.job = job.id := Board.job_eq_of_placeOf hplace
      cases hold : job.statusOf? id with
      | none => simp_all [Except.map]
      | some old => by_cases hwanted : wanted old <;> simp_all [Except.map]

-- Tasks that a client cannot hold back stay where they are.
theorem placeOf_restate_of_fixed {job : LiveJob} (wanted : TaskStatus → Bool) (status : TaskStatus)
    {place : Place} (hplace : place ≠ .eligible ∧ place ≠ .paused) (task : TaskId) :
    (job.restate wanted status).1.board.placeOf task = .ok place ↔
      job.board.placeOf task = .ok place := by
  rw [placeOf_restate]
  cases job.board.placeOf task with
  | error fault => simp [Except.map]
  | ok source =>
      have hfollow : Place.follow job.board.failed status source = place ↔ source = place := by
        cases job.board.failed <;> cases source <;> cases status <;> cases place <;>
          simp_all [Place.follow]
      simp only [Except.map, Except.ok.injEq]
      split
      · exact hfollow
      · exact Iff.rfl

-- Where no task has a wanted status nothing happens.
theorem restate_of_none {job : LiveJob} {wanted : TaskStatus → Bool}
    (h : ∀ old ∈ job.statuses, wanted old = false) (status : TaskStatus) :
    (job.restate wanted status).1 = job := by
  have hnone : job.tasksWith wanted = [] := by
    rw [tasksWith, List.map_eq_nil_iff, List.filter_eq_nil_iff]
    intro entry hentry
    rw [h entry.1 (List.fst_mem_of_mem_zipIdx hentry)]
    simp
  rw [restate, hnone]
  rfl

end Restate

end LiveJob

end JobScheduler
