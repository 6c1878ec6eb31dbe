import JobScheduler.Proofs.Desk.Run
import JobScheduler.Proofs.Job.Hold

namespace JobScheduler

namespace LiveJob

-- Results and executions are kept beside what a job shows.
theorem advances_books {job : LiveJob} (hs : job.Sound) (results : JobResult)
    (executions : List Nat) : job.Advances { job with results, executions } :=
  .of_view hs ⟨.refl job.board, rfl, rfl, rfl⟩ hs.board rfl rfl rfl

theorem Turn.of_books {job job' : LiveJob} (hs : job.Sound) {results : JobResult}
    {executions : List Nat} {given : Nat} {resumed : Bool}
    (h : Turn resumed { job with results, executions } job' given) : Turn resumed job job' given :=
  ⟨(advances_books hs results executions).trans h.advances, h.load, h.held⟩

theorem turn_refl {job : LiveJob} (hs : job.Sound) {resumed : Bool} : Turn resumed job job 0 :=
  ⟨advances_books hs job.results job.executions, rfl, fun _ hheld => hheld⟩

@[simp] theorem consumeExecution_submission (job : LiveJob) (task : TaskId) :
    (job.consumeExecution task).submission = job.submission := rfl

-- Whether a failed task has executions left, this one counted.
abbrev mayRetry (job : LiveJob) (task : TaskId) (card : Card) : Prop :=
  (job.consumeExecution task).executionsUsed task < card.task.maxExecutions

-- The job after a task has reported for the last time.
def concluded (job : LiveJob) (task : TaskId) (card : Card) (result : TaskResult)
    (ended : Board × List TaskId) : LiveJob :=
  ((job.consumeExecution task).addingResult card result).terminated task card.parents
    (if result.hadException then .faulty else .finished) ended

-- The job after a client has killed one of its tasks.
def killed (job : LiveJob) (task : TaskId) (card : Card) (ended : Board × List TaskId) : LiveJob :=
  ((job.addingResult card (.killed task)).terminated task card.parents .killed ended).errorCleared

end LiveJob

-- How a job goes on that has not been ended for another reason.
def Fate.next (job : LiveJob) (cancelled : List TaskId) : Fate :=
  if job.board.isComplete then .ends .finished cancelled else .goesOn cancelled

namespace DeskM

variable {job : LiveJob} {task : TaskId} {card : Card} (slots : Slots)

theorem run_goOnOrEnd (cancelled : List TaskId) :
    goOnOrEnd cancelled ⟨job, slots⟩ = .ok (.next job cancelled) ⟨job, slots⟩ := by
  simp only [goOnOrEnd, run_bind, run_theJob, Fate.next]
  split <;> rfl

-- A task that terminates does so without fail, and its children are promoted.
theorem run_terminated (hs : job.Sound) (hcard : job.board.card task = .ok card)
    (hpartition : card.place.isPartition) {ended : Board × List TaskId}
    (hended : job.board.finish task card.place = .ok ended) (status : TaskStatus) :
    settle task ended.2 ⟨LiveJob.setStatus status { job with board := ended.1 } task, slots⟩ =
      .ok () ⟨job.terminated task card.parents status ended, slots⟩ := by
  obtain ⟨hnodup, -, heligible, -⟩ := LiveJob.promoted_of_finish hs hcard hended
  have hmoved := LiveJob.moved_finish hs.board hpartition hended status
  obtain ⟨card', hcard', hfixed⟩ := hmoved.same.board.card hcard
  have hparents : card'.parents = card.parents := congrArg (·.2.1) hfixed
  rw [LiveJob.terminated, ← hparents]
  exact run_settle slots hmoved.board hcard' hnodup heligible

section Completed

variable (result : TaskResult)

theorem taskCompleted_of_unknown {fault : Fault} (h : job.board.card task = .error fault) :
    taskCompleted task result ⟨job, slots⟩ = .error fault ⟨job, slots⟩ := by
  simp only [taskCompleted, run_bind, run_theCard_error slots h]

variable (hcard : job.board.card task = .ok card)
include hcard

theorem taskCompleted_of_late (h : card.place ≠ .running) :
    taskCompleted task result ⟨job, slots⟩ = .ok .untouched ⟨job, slots⟩ := by
  simp only [taskCompleted, run_bind, run_theCard slots hcard]
  rw [if_pos h, run_pure]

variable (hrunning : card.place = .running)
include hrunning

theorem taskCompleted_of_retry (hexception : result.hadException) (hretry : job.mayRetry task card) :
    taskCompleted task result ⟨job, slots⟩ = .ok (.goesOn [])
      ⟨(job.consumeExecution task).requeued task .waitingOnError, slots.release card.resources⟩ := by
  have hplace := Board.placeOf_of_card hcard
  rw [hrunning] at hplace
  have hrestart : moveTask (·.restart task) ⟨job.consumeExecution task, slots.release card.resources⟩ =
      .ok () ⟨(job.consumeExecution task).shift task .running .eligible,
        slots.release card.resources⟩ :=
    run_moveTask _ (Board.move_of_placeOf .eligible hplace)
  have heligible : ((job.consumeExecution task).shift task .running .eligible).board.placeOf task =
      .ok .eligible := (Board.placeOf_relocate .eligible hplace task).trans (if_pos rfl)
  simp only [taskCompleted, run_bind, run_theCard slots hcard]
  rw [if_neg (not_not_intro hrunning)]
  simp only [run_bind, run_changeJob, run_releaseSlots, run_theJob]
  rw [if_pos ⟨hexception, hretry⟩]
  simp only [run_bind, hrestart, LiveJob.requeued]
  by_cases hpaused : (job.consumeExecution task).status = .paused
  · simp only [hpaused, if_true, run_bind, run_holdBack _ heligible, run_pure]
  · simp only [hpaused, if_false, run_bind, run_setStatus, run_pure]

theorem taskCompleted_of_held (hexception : result.hadException) (hretry : ¬job.mayRetry task card)
    (hheld : job.submission.pauseOnError) :
    taskCompleted task result ⟨job, slots⟩ = .ok (.goesOn [])
      ⟨(job.consumeExecution task).heldInError task card result, slots.release card.resources⟩ := by
  have hplace := Board.placeOf_of_card hcard
  rw [hrunning] at hplace
  have hpause : moveTask (·.pauseOnError task)
      ⟨job.consumeExecution task, slots.release card.resources⟩ =
      .ok () ⟨(job.consumeExecution task).shift task .running .paused,
        slots.release card.resources⟩ :=
    run_moveTask _ (Board.move_of_placeOf .paused hplace)
  simp only [taskCompleted, run_bind, run_theCard slots hcard]
  rw [if_neg (not_not_intro hrunning)]
  simp only [run_bind, run_changeJob, run_releaseSlots, run_theJob]
  rw [if_neg fun h => hretry h.2, if_pos ⟨hexception, hheld⟩]
  simp only [run_bind, hpause, run_addResult, run_setStatus, LiveJob.heldInError]
  by_cases hpaused : (job.consumeExecution task).status = .paused
  · rw [if_neg (not_not_intro hpaused), run_pure]
    exact congrArg _ (congrArg (Desk.mk · _) (if_pos hpaused).symm)
  · rw [if_pos hpaused]
    simp only [run_bind, run_setJobStatus, run_pure]
    exact congrArg _ (congrArg (Desk.mk · _) (if_neg hpaused).symm)

theorem taskCompleted_of_end (hs : job.Sound)
    (hretry : ¬(result.hadException ∧ job.mayRetry task card))
    (hheld : ¬(result.hadException ∧ job.submission.pauseOnError)) {ended : Board × List TaskId}
    (hended : job.board.finish task .running = .ok ended) :
    taskCompleted task result ⟨job, slots⟩ =
      .ok (if result.hadException ∧ job.submission.cancelOnError then .ends .canceled []
          else .next (job.concluded task card result ended) [])
        ⟨job.concluded task card result ended, slots.release card.resources⟩ := by
  have hs' : ((job.consumeExecution task).addingResult card result).Sound :=
    (LiveJob.advances_books hs _ _).sound
  have hterminate : transition (·.terminate task)
      ⟨job.consumeExecution task, slots.release card.resources⟩ =
      .ok ended.2 ⟨{ job.consumeExecution task with board := ended.1 },
        slots.release card.resources⟩ :=
    run_transition _ hended
  have hsettle : settle task ended.2
      ⟨LiveJob.setStatus (if result.hadException then .faulty else .finished)
        (LiveJob.addingResult { job.consumeExecution task with board := ended.1 } card result) task,
        slots.release card.resources⟩ =
      .ok () ⟨job.concluded task card result ended, slots.release card.resources⟩ :=
    run_terminated (slots.release card.resources) hs' hcard (by rw [hrunning]; rfl)
      (by rw [hrunning]; exact hended) (if result.hadException then .faulty else .finished)
  simp only [taskCompleted, run_bind, run_theCard slots hcard]
  rw [if_neg (not_not_intro hrunning)]
  simp only [run_bind, run_changeJob, run_releaseSlots, run_theJob]
  rw [if_neg hretry, LiveJob.consumeExecution_submission, if_neg hheld]
  simp only [run_bind, hterminate, run_addResult, run_setStatus, hsettle]
  by_cases hcancel : result.hadException ∧ job.submission.cancelOnError
  · rw [if_pos hcancel, if_pos hcancel, run_pure]
  · rw [if_neg hcancel, if_neg hcancel, run_goOnOrEnd]

end Completed

theorem taskLost_of_unknown {fault : Fault} (h : job.board.card task = .error fault) :
    taskLost task ⟨job, slots⟩ = .error fault ⟨job, slots⟩ := by
  simp only [taskLost, run_bind, run_theCard_error slots h]

theorem taskLost_of_late (hcard : job.board.card task = .ok card) (h : card.place ≠ .running) :
    taskLost task ⟨job, slots⟩ = .ok .untouched ⟨job, slots⟩ := by
  simp only [taskLost, run_bind, run_theCard slots hcard]
  rw [if_pos h, run_pure]

theorem taskLost_of_running (hcard : job.board.card task = .ok card)
    (hrunning : card.place = .running) :
    taskLost task ⟨job, slots⟩ =
      .ok (.goesOn []) ⟨job.requeued task .pending, slots.release card.resources⟩ := by
  have hplace := Board.placeOf_of_card hcard
  rw [hrunning] at hplace
  have hrestart : moveTask (·.restart task) ⟨job, slots⟩ =
      .ok () ⟨job.shift task .running .eligible, slots⟩ :=
    run_moveTask _ (Board.move_of_placeOf .eligible hplace)
  have heligible : (job.shift task .running .eligible).board.placeOf task = .ok .eligible :=
    (Board.placeOf_relocate .eligible hplace task).trans (if_pos rfl)
  simp only [taskLost, run_bind, run_theCard slots hcard]
  rw [if_neg (not_not_intro hrunning)]
  simp only [run_bind, hrestart, run_releaseSlots, run_theJob, LiveJob.requeued]
  by_cases hpaused : job.status = .paused
  · have hpaused' : (job.shift task .running .eligible).status = .paused := hpaused
    simp only [hpaused, hpaused', if_true, run_bind, run_holdBack _ heligible, run_pure]
  · have hpaused' : (job.shift task .running .eligible).status ≠ .paused := hpaused
    simp only [hpaused, hpaused', if_false, run_bind, run_setStatus, run_pure]

theorem pauseJob_of_held (h : job.status = .paused) :
    pauseJob ⟨job, slots⟩ = .ok .untouched ⟨job, slots⟩ := by
  simp only [pauseJob, run_bind, run_theJob]
  rw [if_pos h, run_pure]

theorem pauseJob_of_not_held (h : job.status ≠ .paused) :
    pauseJob ⟨job, slots⟩ = .ok (.goesOn []) ⟨job.held, slots⟩ := by
  simp only [pauseJob, run_bind, run_theJob]
  rw [if_neg h]
  rfl

theorem resumeJob_of_not_held (h : job.status ≠ .paused) :
    resumeJob ⟨job, slots⟩ = .ok .untouched ⟨job, slots⟩ := by
  simp only [resumeJob, run_bind, run_theJob]
  rw [if_pos h, run_pure]

theorem resumeJob_of_held (h : job.status = .paused) :
    resumeJob ⟨job, slots⟩ = .ok (.goesOn []) ⟨job.resumed, slots⟩ := by
  simp only [resumeJob, run_bind, run_theJob]
  rw [if_neg (not_not_intro h)]
  rfl

theorem changePriority_run (priority : Priority) :
    changePriority priority ⟨job, slots⟩ = .ok (.goesOn []) ⟨job.reprioritized priority, slots⟩ := rfl

section Kill

theorem killTask_of_unknown {fault : Fault} (h : job.board.card task = .error fault) :
    killTask task ⟨job, slots⟩ = .error fault ⟨job, slots⟩ := by
  simp only [killTask, run_bind, run_theCard_error slots h]

theorem killTask_of_blocked_or_done (hcard : job.board.card task = .ok card)
    (h : card.place = .blocked ∨ card.place = .done) :
    killTask task ⟨job, slots⟩ = .ok .untouched ⟨job, slots⟩ := by
  simp only [killTask, run_bind, run_theCard slots hcard]
  rw [if_pos h, run_pure]

theorem killTask_of_partition (hs : job.Sound) (hcard : job.board.card task = .ok card)
    (hpartition : card.place.isPartition) {ended : Board × List TaskId}
    (hended : job.board.finish task card.place = .ok ended) :
    killTask task ⟨job, slots⟩ =
      .ok (.next (job.killed task card ended) (if card.place = .running then [task] else []))
        ⟨job.killed task card ended,
          if card.place = .running then slots.release card.resources else slots⟩ := by
  have hkill : transition (·.kill task) ⟨job, slots⟩ =
      .ok ended.2 ⟨{ job with board := ended.1 }, slots⟩ :=
    run_transition _ (Board.kill_eq_ok_iff.mpr
      ⟨card.place, Board.placeOf_of_card hcard, hpartition, hended⟩)
  have hs' : (job.addingResult card (.killed task)).Sound := (LiveJob.advances_books hs _ _).sound
  have hopen : ¬(card.place = .blocked ∨ card.place = .done) := by
    rintro (h | h) <;> rw [h] at hpartition <;> cases hpartition
  have hsettle (slots : Slots) : settle task ended.2
      ⟨LiveJob.setStatus .killed
        (LiveJob.addingResult { job with board := ended.1 } card (.killed task)) task, slots⟩ =
      .ok () ⟨(job.addingResult card (.killed task)).terminated task card.parents .killed ended,
        slots⟩ :=
    run_terminated slots hs' hcard hpartition hended .killed
  simp only [killTask, run_bind, run_theCard slots hcard]
  rw [if_neg hopen]
  simp only [run_bind, hkill]
  by_cases hrunning : card.place = .running
  · simp only [hrunning, if_true, run_bind, run_releaseSlots, run_addResult, run_setStatus, hsettle,
      run_clearError, run_goOnOrEnd, LiveJob.killed]
  · simp only [hrunning, if_false, run_bind, run_addResult, run_setStatus, hsettle,
      run_clearError, run_goOnOrEnd, LiveJob.killed]

end Kill

section InError

theorem restartInError_of_other (h : job.statusOf? task ≠ some .inError) :
    restartInError task ⟨job, slots⟩ = .ok .untouched ⟨job, slots⟩ := by
  simp only [restartInError, run_bind, run_theJob]
  rw [if_pos h, run_pure]

theorem restartInError_of_inError (hs : job.Sound) (hjob : task.job = job.id)
    (h : job.statusOf? task = some .inError) :
    restartInError task ⟨job, slots⟩ =
      .ok (.goesOn []) ⟨(job.restarted task).errorCleared, slots⟩ := by
  have hplace := hs.placeOf_of_inError hjob h
  have hresume : moveTask (·.resume task) ⟨job.setExecutions task 0, slots⟩ =
      .ok () ⟨(job.setExecutions task 0).shift task .paused .eligible, slots⟩ :=
    run_moveTask _ ((Board.resume_eq_move hs.goesOn task).trans
      (Board.move_of_placeOf .eligible hplace))
  simp only [restartInError, run_bind, run_theJob]
  rw [if_neg (not_not_intro h)]
  simp only [run_bind, run_changeJob, run_theJob, LiveJob.restarted]
  by_cases hpaused : job.status = .paused
  · have hpaused' : (job.setExecutions task 0).status = .paused := hpaused
    simp only [hpaused, hpaused', if_true, run_bind, run_setStatus, run_clearError, run_pure]
  · have hpaused' : (job.setExecutions task 0).status ≠ .paused := hpaused
    simp only [hpaused, hpaused', if_false, run_bind, hresume, run_setStatus, run_clearError, run_pure]

theorem finishInError_of_other (h : job.statusOf? task ≠ some .inError) :
    finishInError task ⟨job, slots⟩ = .ok .untouched ⟨job, slots⟩ := by
  simp only [finishInError, run_bind, run_theJob]
  rw [if_pos h, run_pure]

theorem finishInError_of_inError (hs : job.Sound) (hcard : job.board.card task = .ok card)
    (hpaused : card.place = .paused) (h : job.statusOf? task = some .inError)
    {ended : Board × List TaskId} (hended : job.board.finish task .paused = .ok ended) :
    finishInError task ⟨job, slots⟩ =
      .ok (.next (job.terminated task card.parents .faulty ended).errorCleared [])
        ⟨(job.terminated task card.parents .faulty ended).errorCleared, slots⟩ := by
  have hterminate : transition (·.terminateInError task) ⟨job, slots⟩ =
      .ok ended.2 ⟨{ job with board := ended.1 }, slots⟩ := run_transition _ hended
  have hsettle := run_terminated slots hs hcard (by rw [hpaused]; rfl)
    (by rw [hpaused]; exact hended) .faulty
  simp only [finishInError, run_bind, run_theJob]
  rw [if_neg (not_not_intro h)]
  simp only [run_bind, hterminate, run_setStatus, hsettle, run_clearError, run_goOnOrEnd]

end InError

end DeskM

end JobScheduler
