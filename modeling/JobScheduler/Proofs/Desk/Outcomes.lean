import JobScheduler.Proofs.Desk.Turns
import JobScheduler.Proofs.Job.Progress

namespace JobScheduler

-- What an event does at the desk of the job that it is about.
def Event.work? : Event → Option (JobId × DeskM Fate)
  | .completed task result => some (task.job, DeskM.taskCompleted task result)
  | .lost task => some (task.job, DeskM.taskLost task)
  | .pause id => some (id, DeskM.pauseJob)
  | .resume id => some (id, DeskM.resumeJob)
  | .kill id => some (id, return .ends .killed [])
  | .killTask task => some (task.job, DeskM.killTask task)
  | .restart task => some (task.job, DeskM.restartInError task)
  | .finish task => some (task.job, DeskM.finishInError task)
  | .priority id wanted => some (id, DeskM.changePriority wanted)
  | .submitted _ | .shutdown => none

-- Work at the desk of a job may resume it, so nothing is said of holding.
theorem Event.turns_of_work? {event : Event} {id : JobId} {work : DeskM Fate}
    (h : event.work? = some (id, work)) {job : LiveJob} (hs : job.Sound) (hid : job.id = id) :
    DeskM.Turns true work job := by
  cases event with
  | submitted submission => cases h
  | completed task result => cases h; exact DeskM.taskCompleted_turns hs task result
  | lost task => cases h; exact DeskM.taskLost_turns hs task
  | pause id => cases h; exact DeskM.pauseJob_turns hs
  | resume id => cases h; exact DeskM.resumeJob_turns hs
  | kill id => cases h; exact DeskM.ends_turns hs .killed
  | killTask task => cases h; exact DeskM.killTask_turns hs task
  | restart task => cases h; exact DeskM.restartInError_turns hs task hid.symm
  | finish task => cases h; exact DeskM.finishInError_turns hs task hid.symm
  | priority id wanted => cases h; exact DeskM.changePriority_turns hs wanted
  | shutdown => cases h

namespace LiveJob

-- All that an event may make of its job, and what becomes of the job then.
inductive Outcome (job : LiveJob) : Event → Fate → LiveJob → Prop
  | untouched {event} : (∀ task ∈ event.reported, job.board.placeOf task ≠ .ok .running) →
      Outcome job event .untouched job
  | retried {task result card} : job.board.card task = .ok card → card.place = .running →
      result.hadException → job.mayRetry task card →
      Outcome job (.completed task result) (.goesOn [])
        ((job.consumeExecution task).requeued task .waitingOnError)
  | heldInError {task result card} : job.board.card task = .ok card → card.place = .running →
      job.submission.pauseOnError → result.hadException → ¬job.mayRetry task card →
      Outcome job (.completed task result) (.goesOn [])
        ((job.consumeExecution task).heldInError task card result)
  | canceled {task result card ended} : job.board.card task = .ok card → card.place = .running →
      job.board.finish task card.place = .ok ended →
      result.hadException → job.submission.cancelOnError → ¬job.mayRetry task card →
      Outcome job (.completed task result) (.ends .canceled []) (job.concluded task card result ended)
  | concluded {task result card ended} : job.board.card task = .ok card → card.place = .running →
      job.board.finish task card.place = .ok ended →
      ¬(result.hadException ∧ job.submission.cancelOnError) →
      ¬(result.hadException ∧ job.mayRetry task card) →
      Outcome job (.completed task result) (.next (job.concluded task card result ended) [])
        (job.concluded task card result ended)
  | lost {task card} : job.board.card task = .ok card → card.place = .running →
      Outcome job (.lost task) (.goesOn []) (job.requeued task .pending)
  | held {id} : Outcome job (.pause id) (.goesOn []) job.held
  | resumed {id} : Outcome job (.resume id) (.goesOn []) job.resumed
  | dropped {id} : Outcome job (.kill id) (.ends .killed []) job
  | killed {task card ended} : job.board.card task = .ok card → card.place.isPartition →
      job.board.finish task card.place = .ok ended →
      Outcome job (.killTask task)
        (.next (job.killed task card ended) (if card.place = .running then [task] else []))
        (job.killed task card ended)
  | restarted {task} : task.job = job.id → job.statusOf? task = some .inError →
      Outcome job (.restart task) (.goesOn []) (job.restarted task).errorCleared
  | finished {task card ended} : job.board.card task = .ok card → card.place = .paused →
      job.board.finish task card.place = .ok ended → job.statusOf? task = some .inError →
      Outcome job (.finish task) (.next (job.terminated task card.parents .faulty ended).errorCleared [])
        (job.terminated task card.parents .faulty ended).errorCleared
  | reprioritized {id wanted} : Outcome job (.priority id wanted) (.goesOn []) (job.reprioritized wanted)

variable {job : LiveJob} (hs : job.Sound) {slots : Slots} {fate : Fate} {desk : Desk}
include hs

theorem outcome_of_taskCompleted {task : TaskId} {result : TaskResult}
    (h : DeskM.taskCompleted task result ⟨job, slots⟩ = .ok fate desk) :
    job.Outcome (.completed task result) fate desk.job := by
  cases hcard : job.board.card task with
  | error fault =>
      rw [DeskM.taskCompleted_of_unknown slots result hcard] at h
      cases h
  | ok card =>
      by_cases hrunning : card.place = .running
      · obtain ⟨ended, hended⟩ := DeskM.finish_of_card hs task hcard
        have hended' := hended
        rw [hrunning] at hended'
        by_cases hretry : result.hadException ∧ job.mayRetry task card
        · rw [DeskM.taskCompleted_of_retry slots result hcard hrunning hretry.1 hretry.2] at h
          cases h
          exact .retried hcard hrunning hretry.1 hretry.2
        · by_cases hheld : result.hadException ∧ job.submission.pauseOnError
          · rw [DeskM.taskCompleted_of_held slots result hcard hrunning hheld.1
              (fun hmay => hretry ⟨hheld.1, hmay⟩) hheld.2] at h
            cases h
            exact .heldInError hcard hrunning hheld.2 hheld.1 fun hmay => hretry ⟨hheld.1, hmay⟩
          · rw [DeskM.taskCompleted_of_end slots result hcard hrunning hs hretry hheld hended'] at h
            cases h
            split
            · rename_i hcancel
              exact .canceled hcard hrunning hended hcancel.1 hcancel.2 fun hmay => hretry ⟨hcancel.1, hmay⟩
            · rename_i hcancel
              exact .concluded hcard hrunning hended hcancel hretry
      · rw [DeskM.taskCompleted_of_late slots result hcard hrunning] at h
        cases h
        refine .untouched fun other hother => ?_
        rw [List.mem_singleton.mp hother, Board.placeOf_of_card hcard]
        simpa using hrunning

omit hs in
theorem outcome_of_taskLost {task : TaskId} (h : DeskM.taskLost task ⟨job, slots⟩ = .ok fate desk) :
    job.Outcome (.lost task) fate desk.job := by
  cases hcard : job.board.card task with
  | error fault =>
      rw [DeskM.taskLost_of_unknown slots hcard] at h
      cases h
  | ok card =>
      by_cases hrunning : card.place = .running
      · rw [DeskM.taskLost_of_running slots hcard hrunning] at h
        cases h
        exact .lost hcard hrunning
      · rw [DeskM.taskLost_of_late slots hcard hrunning] at h
        cases h
        refine .untouched fun other hother => ?_
        rw [List.mem_singleton.mp hother, Board.placeOf_of_card hcard]
        simpa using hrunning

theorem outcome_of_killTask {task : TaskId} (h : DeskM.killTask task ⟨job, slots⟩ = .ok fate desk) :
    job.Outcome (.killTask task) fate desk.job := by
  cases hcard : job.board.card task with
  | error fault =>
      rw [DeskM.killTask_of_unknown slots hcard] at h
      cases h
  | ok card =>
      by_cases hopen : card.place = .blocked ∨ card.place = .done
      · rw [DeskM.killTask_of_blocked_or_done slots hcard hopen] at h
        cases h
        exact .untouched (by simp [Event.reported])
      · have hpartition : card.place.isPartition := by
          cases hplace : card.place <;> simp_all [Place.isPartition]
        obtain ⟨ended, hended⟩ := DeskM.finish_of_card hs task hcard
        rw [DeskM.killTask_of_partition slots hs hcard hpartition hended] at h
        cases h
        exact .killed hcard hpartition hended

theorem outcome_of_restartInError {task : TaskId} (hjob : task.job = job.id)
    (h : DeskM.restartInError task ⟨job, slots⟩ = .ok fate desk) :
    job.Outcome (.restart task) fate desk.job := by
  by_cases herror : job.statusOf? task = some .inError
  · rw [DeskM.restartInError_of_inError slots hs hjob herror] at h
    cases h
    exact .restarted hjob herror
  · rw [DeskM.restartInError_of_other slots herror] at h
    cases h
    exact .untouched (by simp [Event.reported])

theorem outcome_of_finishInError {task : TaskId} (hjob : task.job = job.id)
    (h : DeskM.finishInError task ⟨job, slots⟩ = .ok fate desk) :
    job.Outcome (.finish task) fate desk.job := by
  by_cases herror : job.statusOf? task = some .inError
  · obtain ⟨card, hcard, hpaused⟩ := Board.placeOf_eq_ok_iff.mp (hs.placeOf_of_inError hjob herror)
    obtain ⟨ended, hended⟩ := DeskM.finish_of_card hs task hcard
    have hended' := hended
    rw [hpaused] at hended'
    rw [DeskM.finishInError_of_inError slots hs hcard hpaused herror hended'] at h
    cases h
    exact .finished hcard hpaused hended herror
  · rw [DeskM.finishInError_of_other slots herror] at h
    cases h
    exact .untouched (by simp [Event.reported])

-- There are no other outcomes than these.
theorem outcome_of_work? {event : Event} {id : JobId} {work : DeskM Fate}
    (hwork : event.work? = some (id, work)) (hid : job.id = id)
    (h : work ⟨job, slots⟩ = .ok fate desk) :
    job.Outcome event fate desk.job := by
  cases event with
  | submitted submission => cases hwork
  | completed task result => cases hwork; exact outcome_of_taskCompleted hs h
  | lost task => cases hwork; exact outcome_of_taskLost h
  | pause id =>
      cases hwork
      by_cases hheld : job.status = .paused
      · rw [DeskM.pauseJob_of_held slots hheld] at h
        cases h
        exact .untouched (by simp [Event.reported])
      · rw [DeskM.pauseJob_of_not_held slots hheld] at h
        cases h
        exact .held
  | resume id =>
      cases hwork
      by_cases hheld : job.status = .paused
      · rw [DeskM.resumeJob_of_held slots hheld] at h
        cases h
        exact .resumed
      · rw [DeskM.resumeJob_of_not_held slots hheld] at h
        cases h
        exact .untouched (by simp [Event.reported])
  | kill id =>
      cases hwork
      cases h
      exact .dropped
  | killTask task => cases hwork; exact outcome_of_killTask hs h
  | restart task =>
      cases hwork
      exact outcome_of_restartInError hs hid.symm h
  | finish task =>
      cases hwork
      exact outcome_of_finishInError hs hid.symm h
  | priority id wanted =>
      cases hwork
      rw [DeskM.changePriority_run slots wanted] at h
      cases h
      exact .reprioritized
  | shutdown => cases hwork

omit hs

@[simp] theorem errorCleared_board (job : LiveJob) : job.errorCleared.board = job.board := by
  obtain ⟨status, heq, -⟩ := job.errorCleared_eq
  rw [heq]

theorem Moved.not_isComplete {job' : LiveJob} {held : Bool} {task : TaskId} {target : Place}
    {status : TaskStatus} {promoted : List TaskId}
    (h : Moved job job' held task target status promoted) (htarget : target ≠ .done) :
    ¬job'.board.isComplete :=
  h.board.not_isComplete_iff.mpr ⟨task, target, h.placeOf_task, htarget⟩

theorem not_isComplete_restate (hs : job.Sound) (hopen : ¬job.board.isComplete)
    (wanted : TaskStatus → Bool) (status : TaskStatus) :
    ¬(job.restate wanted status).1.board.isComplete := by
  obtain ⟨task, place, hplace, hne⟩ := hs.board.not_isComplete_iff.mp hopen
  have hfollow : Place.follow job.board.failed status place ≠ .done := by
    cases job.board.failed <;> cases place <;> cases status <;> simp_all [Place.follow]
  have hrestated := placeOf_restate job wanted status task
  rw [hplace, Except.map] at hrestated
  refine (board_restate hs wanted status).not_isComplete_iff.mpr ⟨task, _, hrestated, ?_⟩
  split
  · exact hfollow
  · exact hne

-- A job that goes on has something left to do.
theorem Outcome.not_isComplete {job' : LiveJob} {event : Event} {cancelled : List TaskId}
    (hs : job.Sound) (h : job.Outcome event (.goesOn cancelled) job')
    (hopen : ¬job.board.isComplete) : ¬job'.board.isComplete := by
  generalize hfate : Fate.goesOn cancelled = fate at h
  have hconsumed (task : TaskId) : (job.consumeExecution task).Sound :=
    (advances_books hs job.results (job.consumeExecution task).executions).sound
  have hnext {job' : LiveJob} {cancelled' : List TaskId}
      (hfate : Fate.goesOn cancelled = .next job' cancelled') : ¬job'.board.isComplete := by
    intro hcomplete
    rw [Fate.next, if_pos hcomplete] at hfate
    cases hfate
  cases h with
  | untouched | canceled | dropped => cases hfate
  | retried hcard hplace =>
      exact (moved_requeued (hconsumed _) hcard hplace _).not_isComplete (by split <;> simp)
  | heldInError hcard hplace =>
      exact (moved_heldInError (hconsumed _) hcard hplace _).not_isComplete (by simp)
  | concluded | killed | finished => exact hnext hfate
  | lost hcard hplace =>
      exact (moved_requeued hs hcard hplace .pending).not_isComplete (by split <;> simp)
  | held => exact not_isComplete_restate hs hopen awaitsStart .paused
  | resumed => exact not_isComplete_restate hs hopen (· == .paused) .pending
  | restarted hjob herror =>
      rw [errorCleared_board]
      exact (moved_restarted hs hjob herror).not_isComplete (by split <;> simp)
  | reprioritized => exact hopen

end LiveJob

end JobScheduler
