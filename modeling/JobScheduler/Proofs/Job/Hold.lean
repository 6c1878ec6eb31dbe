import JobScheduler.Proofs.Job.Turn
import JobScheduler.Scheduler.Event

namespace JobScheduler.LiveJob

section Restate

variable {job : LiveJob} (hs : job.Sound) (wanted : TaskStatus → Bool) (status : TaskStatus)
include hs

omit hs in
theorem sameJob_restate : job.SameJob (job.restate wanted status).1 := by
  refine ⟨?_, ?_, by simp, by simp⟩
  · rw [restate_board]
    exact Board.sameTasks_applyStatuses _ _
  · rw [restate_board]
    exact Board.failed_applyStatuses _ _

theorem board_restate : (job.restate wanted status).1.board.Sound := by
  rw [restate_board]
  exact hs.board.applyStatuses _

omit hs in
theorem load_restate : (job.restate wanted status).1.board.load = job.board.load := by
  rw [restate_board]
  exact Board.load_applyStatuses _ _

theorem agrees_restate {relation relation' : Place → TaskStatus → Prop}
    (hagrees : job.Agrees relation)
    (hall : ∀ place old, relation place old →
      relation' (if wanted old then Place.follow false status place else place)
        (if wanted old then status else old)) :
    (job.restate wanted status).1.Agrees relation' := by
  intro id place hplace
  rw [placeOf_restate, hs.goesOn] at hplace
  cases hold : job.board.placeOf id with
  | error fault =>
      rw [hold] at hplace
      cases hplace
  | ok source =>
      obtain ⟨old, hstatus, hrelation⟩ := hagrees id source hold
      rw [hold, hstatus] at hplace
      cases hplace
      refine ⟨_, ?_, hall source old hrelation⟩
      rw [statusOf?_restate, hstatus]
      rfl

omit hs in
-- Tasks that have terminated are not among those that get a new status.
theorem terminated_restate (hwanted : ∀ old, wanted old → old.isTerminated = false) (id : TaskId)
    (old : TaskStatus) (hold : job.statusOf? id = some old) (hterminated : old.isTerminated) :
    (job.restate wanted status).1.statusOf? id = some old := by
  have hnot : wanted old = false := Bool.eq_false_iff.mpr fun hw => by
    rw [hwanted old hw] at hterminated
    cases hterminated
  rw [statusOf?_restate, hold]
  simp [hnot]

omit hs in
-- The statuses that the job has then are the new one and old ones.
theorem mem_statuses_of_restate {other : TaskStatus} (hne : status ≠ other)
    (hmem : other ∈ (job.restate wanted status).1.statuses) : other ∈ job.statuses := by
  obtain ⟨id, hjob, hid⟩ := mem_statuses_iff.mp hmem
  rw [statusOf?_restate] at hid
  obtain ⟨old, hold, hnew⟩ := Option.map_eq_some_iff.mp hid
  refine mem_statuses_iff.mpr ⟨id, hjob.trans (sameJob_restate wanted status).id, ?_⟩
  split at hnew
  · exact absurd hnew hne
  · rw [hold, hnew]

end Restate

-- The job once a client has paused it.
def held (job : LiveJob) : LiveJob := { job.pausePending.1 with status := .paused }

-- The job once a client lets it go on.
def resumed (job : LiveJob) : LiveJob :=
  { job.resumePaused.1 with status := DeskM.statusAfterResume job.resumePaused.1 }

section Views

variable (job : LiveJob)

@[simp] theorem held_board : job.held.board = job.pausePending.1.board := rfl

@[simp] theorem held_results : job.held.results = job.pausePending.1.results := rfl

@[simp] theorem statusOf?_held (id : TaskId) : job.held.statusOf? id = job.pausePending.1.statusOf? id := rfl

@[simp] theorem resumed_board : job.resumed.board = job.resumePaused.1.board := rfl

@[simp] theorem resumed_results : job.resumed.results = job.resumePaused.1.results := rfl

@[simp] theorem statusOf?_resumed (id : TaskId) :
    job.resumed.statusOf? id = job.resumePaused.1.statusOf? id := rfl

theorem sameTasks_held : job.board.SameTasks job.held.board :=
  (sameJob_restate awaitsStart .paused).board

theorem sameTasks_resumed : job.board.SameTasks job.resumed.board :=
  (sameJob_restate (· == .paused) .pending).board

end Views

theorem awaitsStart_not_terminated (old : TaskStatus) (h : awaitsStart old) :
    old.isTerminated = false := by
  cases old <;> simp_all [awaitsStart, TaskStatus.isTerminated]

theorem sound_pausePending {job : LiveJob} (hs : job.Sound) : job.pausePending.1.Sound := by
  refine hs.of_sameJob (sameJob_restate awaitsStart .paused) (board_restate hs awaitsStart .paused)
    (agrees_restate hs awaitsStart .paused hs.agrees fun place old hold => ?_)
  cases place <;> cases old <;>
    simp_all [Place.admits, Place.follow, awaitsStart, TaskStatus.isTerminated]

theorem turn_held {job : LiveJob} (hs : job.Sound) {resumed : Bool} : Turn resumed job job.held 0 := by
  have hsame : job.SameJob job.pausePending.1 := sameJob_restate awaitsStart .paused
  have hsame' : job.SameJob job.held := ⟨hsame.1, hsame.2, hsame.3, hsame.4⟩
  refine ⟨⟨?_, hsame.id, hsame.tasks, ?_, fun hc => ?_⟩, load_restate awaitsStart .paused, fun _ _ => rfl⟩
  · exact hs.of_sameJob hsame' (board_restate hs awaitsStart .paused) (sound_pausePending hs).agrees
  · intro id old _ hold hterminated
    exact terminated_restate awaitsStart .paused awaitsStart_not_terminated id old hold hterminated
  · have hfits : job.pausePending.1.Agrees fun place old => place.fits true old :=
      agrees_restate hs awaitsStart .paused hc.fits fun place old hold => by
        cases hheld : job.isHeld <;> rw [hheld] at hold <;> cases place <;> cases old <;>
          simp_all [Place.fits, Place.follow, awaitsStart, TaskStatus.isTerminated]
    exact ⟨hfits, rfl, by simp [held], by simp [held]⟩

theorem isHeld_resumed (job : LiveJob) : job.resumed.isHeld = false := by
  rw [isHeld, resumed, DeskM.statusAfterResume]
  split
  · rfl
  · split <;> rfl

theorem isTerminal_resumed (job : LiveJob) : job.resumed.status.isTerminal = false := by
  rw [resumed, DeskM.statusAfterResume]
  split
  · rfl
  · split <;> rfl

theorem status_resumed_eq_inError_iff (job : LiveJob) :
    job.resumed.status = .inError ↔ job.resumed.hasTasksInError := by
  have herror : job.resumed.hasTasksInError = job.resumePaused.1.hasTasksInError := rfl
  rw [herror, resumed, DeskM.statusAfterResume]
  by_cases hin : job.resumePaused.1.hasTasksInError
  · simp [hin]
  · by_cases hstarted : 0 < job.resumePaused.1.board.counts.running ∨
      0 < job.resumePaused.1.board.counts.done <;> simp [hin, hstarted]

theorem running_eq_zero_of_pending {job : LiveJob} (h : job.resumed.status = .pending) :
    job.resumed.board.counts.running = 0 := by
  rw [resumed, DeskM.statusAfterResume] at h
  rw [resumed_board]
  split at h
  · cases h
  · split at h
    · cases h
    · omega

theorem fits_resumed {job : LiveJob} (hs : job.Sound) (hheld : job.isHeld) (hc : job.Coherent) :
    job.resumePaused.1.Agrees fun place old => place.fits false old :=
  agrees_restate hs (· == .paused) .pending hc.fits fun place old hold => by
    rw [hheld] at hold
    cases place <;> cases old <;>
      simp_all [Place.fits, Place.follow, TaskStatus.isTerminated]

theorem turn_resumed {job : LiveJob} (hs : job.Sound) (hheld : job.isHeld) :
    Turn true job job.resumed 0 := by
  have hsame : job.SameJob job.resumePaused.1 := sameJob_restate (· == .paused) .pending
  have hsame' : job.SameJob job.resumed := ⟨hsame.1, hsame.2, hsame.3, hsame.4⟩
  have hadmits : job.resumePaused.1.Agrees Place.admits :=
    agrees_restate hs (· == .paused) .pending hs.agrees fun place old hold => by
      cases place <;> cases old <;>
        simp_all [Place.admits, Place.follow, TaskStatus.isTerminated]
  have hboard : job.resumed.board.Sound := board_restate hs (· == .paused) .pending
  refine ⟨⟨?_, hsame.id, hsame.tasks, ?_, fun hc => ?_⟩, load_restate (· == .paused) .pending, by simp⟩
  · exact hs.of_sameJob hsame' hboard hadmits
  · intro id old _ hold hterminated
    refine terminated_restate (· == .paused) .pending ?_ id old hold hterminated
    intro other hother
    rw [beq_iff_eq.mp hother]
    rfl
  · have hnot := job.isHeld_resumed
    refine ⟨?_, job.isTerminal_resumed, ?_, fun hpending => ?_⟩
    · rw [hnot]
      exact fits_resumed hs hheld hc
    · have hpaused : job.resumed.status ≠ .paused := by
        intro h
        rw [isHeld_iff.mpr h] at hnot
        cases hnot
      simp [status_resumed_eq_inError_iff, hpaused]
    · exact hboard.not_running (running_eq_zero_of_pending hpending)

section Restart

variable {job : LiveJob} (hs : job.Sound) {task : TaskId} {resumed : Bool}

-- A task in error gets all its executions back.
def restarted (job : LiveJob) (task : TaskId) : LiveJob :=
  if job.status = .paused then setStatus .paused (job.setExecutions task 0) task
  else setStatus .pending ((job.setExecutions task 0).shift task .paused .eligible) task

@[simp] theorem restarted_status (job : LiveJob) (task : TaskId) :
    (job.restarted task).status = job.status := by
  unfold restarted
  split <;> rfl

include hs in
-- In a held job the task stays where it is and is one of the paused ones from then on.
theorem moved_restarted (hjob : task.job = job.id) (h : job.statusOf? task = some .inError) :
    Moved job (job.restarted task) job.isHeld task (if job.isHeld then .paused else .eligible)
      (if job.isHeld then .paused else .pending) [] := by
  have hplace := hs.placeOf_of_inError hjob h
  unfold restarted
  by_cases hpaused : job.status = .paused
  · have hheld : job.isHeld = true := isHeld_iff.mpr hpaused
    rw [if_pos hpaused, hheld]
    refine ⟨⟨.refl job.board, rfl, rfl, by simp [setExecutions]⟩, hs.board, by simp,
      fun id => ?_, fun id hid => ?_⟩
    · by_cases htask : id = task
      · simp [htask, setExecutions, hplace]
      · simp [htask, setExecutions]
    · rw [statusOf?_setStatus]
      simp only [TaskId.index_eq_iff (hid.trans hjob.symm)]
      simp [statusOf?, setExecutions]
  · have hheld : job.isHeld = false := by simpa [isHeld] using hpaused
    rw [if_neg hpaused, hheld]
    exact (moved_shift hs.board hplace rfl rfl false .pending).congr ⟨rfl, rfl, rfl⟩ ⟨rfl, rfl, rfl⟩

include hs in
theorem turn_restarted (hjob : task.job = job.id) (h : job.statusOf? task = some .inError) :
    Turn resumed job (job.restarted task).errorCleared 0 := by
  have hplace := hs.placeOf_of_inError hjob h
  have hsame := job.restarted_status task
  refine ⟨?_, ?_, fun _ h => isHeld_errorCleared (isHeld_of_status_eq hsame h)⟩
  · refine (moved_restarted hs hjob h).advances_errorCleared hs hplace (by simp) ?_ ?_ ?_ hsame
    · cases job.isHeld <;> rfl
    · cases job.isHeld <;> simp
    · cases job.isHeld <;> simp
  · obtain ⟨cleared, heq, -⟩ := (job.restarted task).errorCleared_eq
    rw [heq]
    change (job.restarted task).board.load = job.board.load
    unfold restarted
    split
    · rfl
    · obtain ⟨card, hcard, hpaused⟩ := Board.placeOf_eq_ok_iff.mp hplace
      exact load_of_moved hcard hpaused (show Place.eligible ≠ .running by simp)

end Restart

def reprioritized (job : LiveJob) (priority : Priority) : LiveJob :=
  { job with
    board := job.board.setPriority priority
    submission := { job.submission with priority } }

theorem turn_reprioritized {job : LiveJob} (hs : job.Sound) {resumed : Bool} (priority : Priority) :
    Turn resumed job (job.reprioritized priority) 0 := by
  have hsame : job.SameJob (job.reprioritized priority) :=
    ⟨.of_cards_eq rfl rfl rfl, rfl, rfl, rfl⟩
  exact ⟨.of_view hs hsame (hs.board.setPriority priority) (Board.placeOf_congr rfl rfl) rfl rfl, rfl,
    fun _ hheld => hheld⟩

end JobScheduler.LiveJob
