import JobScheduler.Proofs.Desk.Handlers

namespace JobScheduler

namespace Slots

-- Slots given back by tasks that had taken them.
def regain (slots : Slots) (count : Nat) : Slots := { slots with free := slots.free + count }

theorem release_eq_regain {slots : Slots} {count : Nat} (h : slots.free + count ≤ slots.total) :
    slots.release count = slots.regain count := by
  simp [release, regain, Nat.min_eq_left h]

end Slots

namespace DeskM

-- Work about a task that is not there changes nothing. Otherwise the job takes a turn, and
-- as long as the slots it gives back were in use, all of them become free.
def Turns (resumed : Bool) (work : DeskM Fate) (job : LiveJob) : Prop :=
  (∃ task, ∀ slots, work ⟨job, slots⟩ = .error (.taskNotFound task) ⟨job, slots⟩) ∨
  ∃ fate job' given, LiveJob.Turn resumed job job' given ∧
    (fate = .untouched → job' = job ∧ given = 0) ∧
    ∀ slots, slots.free + given ≤ slots.total →
      work ⟨job, slots⟩ = .ok fate ⟨job', slots.regain given⟩

variable {resumed : Bool}

theorem turns_of_unknown {work : DeskM Fate} {job : LiveJob} {task : TaskId} {fault : Fault}
    (h : job.board.card task = .error fault)
    (hwork : ∀ slots, work ⟨job, slots⟩ = .error fault ⟨job, slots⟩) : Turns resumed work job := by
  rw [Board.card_eq_error h] at hwork
  exact .inl ⟨task, hwork⟩

theorem turns_of_untouched {work : DeskM Fate} {job : LiveJob} (hs : job.Sound)
    (h : ∀ slots, work ⟨job, slots⟩ = .ok .untouched ⟨job, slots⟩) : Turns resumed work job :=
  .inr ⟨.untouched, job, 0, LiveJob.turn_refl hs, fun _ => ⟨rfl, rfl⟩, fun slots _ => h slots⟩

theorem turns_of_release {work : DeskM Fate} {job job' : LiveJob} {fate : Fate} {given : Nat}
    (hturn : LiveJob.Turn resumed job job' given) (hfate : fate ≠ .untouched)
    (h : ∀ slots, work ⟨job, slots⟩ = .ok fate ⟨job', slots.release given⟩) : Turns resumed work job :=
  .inr ⟨fate, job', given, hturn, fun huntouched => absurd huntouched hfate, fun slots hslots => by
    rw [h, Slots.release_eq_regain hslots]⟩

theorem turns_of_keep {work : DeskM Fate} {job job' : LiveJob} {fate : Fate}
    (hturn : LiveJob.Turn resumed job job' 0) (hfate : fate ≠ .untouched)
    (h : ∀ slots, work ⟨job, slots⟩ = .ok fate ⟨job', slots⟩) : Turns resumed work job :=
  .inr ⟨fate, job', 0, hturn, fun huntouched => absurd huntouched hfate, fun slots _ => h slots⟩

theorem next_ne_untouched (job : LiveJob) (cancelled : List TaskId) :
    Fate.next job cancelled ≠ .untouched := by
  unfold Fate.next
  split <;> simp

variable {job : LiveJob} (hs : job.Sound) (task : TaskId)
include hs

theorem finish_of_card {card : Card} (hcard : job.board.card task = .ok card) :
    ∃ ended, job.board.finish task card.place = .ok ended := by
  obtain ⟨board', promoted, hended, -⟩ :=
    Board.finish_promotes hs.board.wired (Board.placeOf_of_card hcard)
  exact ⟨_, hended⟩

theorem taskCompleted_turns (result : TaskResult) : Turns resumed (taskCompleted task result) job := by
  cases hcard : job.board.card task with
  | error fault => exact turns_of_unknown hcard fun slots => taskCompleted_of_unknown slots result hcard
  | ok card =>
      by_cases hrunning : card.place = .running
      · have hbooks := LiveJob.advances_books hs job.results (job.consumeExecution task).executions
        have hturn {job' : LiveJob} {given : Nat}
            (h : LiveJob.Turn resumed (job.consumeExecution task) job' given) : LiveJob.Turn resumed job job' given :=
          .of_books hs h
        by_cases hretry : result.hadException ∧ job.mayRetry task card
        · exact turns_of_release (hturn (LiveJob.turn_requeued hbooks.sound hcard hrunning rfl))
            (by simp) fun slots => taskCompleted_of_retry slots result hcard hrunning hretry.1 hretry.2
        · by_cases hheld : result.hadException ∧ job.submission.pauseOnError
          · exact turns_of_release (hturn (LiveJob.turn_heldInError hbooks.sound hcard hrunning result))
              (by simp) fun slots => taskCompleted_of_held slots result hcard hrunning hheld.1
                (fun hmay => hretry ⟨hheld.1, hmay⟩) hheld.2
          · obtain ⟨ended, hended⟩ := finish_of_card hs task hcard
            have hpartition : card.place.isPartition := by rw [hrunning]; rfl
            have hadded := (LiveJob.advances_books hs
              (job.results.add card.name result card.task.precious)
              (job.consumeExecution task).executions).sound
            have hstatus : TaskStatus.isTerminated
                (if result.hadException then .faulty else .finished) := by split <;> rfl
            have hended' := hended
            rw [hrunning] at hended'
            refine turns_of_release (.of_books hs
              (LiveJob.turn_terminated hadded hcard hpartition hended hrunning card.parents hstatus)) ?_
              fun slots => taskCompleted_of_end slots result hcard hrunning hs hretry hheld hended'
            split
            · simp
            · exact next_ne_untouched _ _
      · exact turns_of_untouched hs fun slots => taskCompleted_of_late slots result hcard hrunning

theorem taskLost_turns : Turns resumed (taskLost task) job := by
  cases hcard : job.board.card task with
  | error fault => exact turns_of_unknown hcard fun slots => taskLost_of_unknown slots hcard
  | ok card =>
      by_cases hrunning : card.place = .running
      · exact turns_of_release (LiveJob.turn_requeued hs hcard hrunning rfl) (by simp)
          fun slots => taskLost_of_running slots hcard hrunning
      · exact turns_of_untouched hs fun slots => taskLost_of_late slots hcard hrunning

theorem killTask_turns : Turns resumed (killTask task) job := by
  cases hcard : job.board.card task with
  | error fault => exact turns_of_unknown hcard fun slots => killTask_of_unknown slots hcard
  | ok card =>
      by_cases hopen : card.place = .blocked ∨ card.place = .done
      · exact turns_of_untouched hs fun slots => killTask_of_blocked_or_done slots hcard hopen
      · have hpartition : card.place.isPartition := by
          cases hplace : card.place <;> simp_all [Place.isPartition]
        obtain ⟨ended, hended⟩ := finish_of_card hs task hcard
        have hadded := (LiveJob.advances_books hs
          (job.results.add card.name (.killed task) card.task.precious) job.executions).sound
        have hturn : LiveJob.Turn resumed job (job.killed task card ended)
            (if card.place = .running then card.resources else 0) :=
          .of_books hs (LiveJob.turn_terminated_errorCleared hadded hcard hpartition hended
            card.parents rfl)
        have hkill (slots : Slots) := killTask_of_partition slots hs hcard hpartition hended
        by_cases hrunning : card.place = .running
        · rw [if_pos hrunning] at hturn
          simp only [if_pos hrunning] at hkill
          exact turns_of_release hturn (next_ne_untouched _ _) hkill
        · rw [if_neg hrunning] at hturn
          simp only [if_neg hrunning] at hkill
          exact turns_of_keep hturn (next_ne_untouched _ _) hkill

theorem restartInError_turns (hjob : task.job = job.id) : Turns resumed (restartInError task) job := by
  by_cases h : job.statusOf? task = some .inError
  · exact turns_of_keep (LiveJob.turn_restarted hs hjob h) (by simp)
      fun slots => restartInError_of_inError slots hs hjob h
  · exact turns_of_untouched hs fun slots => restartInError_of_other slots h

theorem finishInError_turns (hjob : task.job = job.id) : Turns resumed (finishInError task) job := by
  by_cases h : job.statusOf? task = some .inError
  · obtain ⟨card, hcard, hpaused⟩ := Board.placeOf_eq_ok_iff.mp (hs.placeOf_of_inError hjob h)
    obtain ⟨ended, hended⟩ := finish_of_card hs task hcard
    have hpartition : card.place.isPartition := by rw [hpaused]; rfl
    have hturn : LiveJob.Turn resumed job
        (job.terminated task card.parents .faulty ended).errorCleared
        (if card.place = .running then card.resources else 0) :=
      LiveJob.turn_terminated_errorCleared hs hcard hpartition hended card.parents rfl
    rw [hpaused] at hturn hended
    exact turns_of_keep hturn (next_ne_untouched _ _)
      fun slots => finishInError_of_inError slots hs hcard hpaused h hended
  · exact turns_of_untouched hs fun slots => finishInError_of_other slots h

omit task

theorem pauseJob_turns : Turns resumed pauseJob job := by
  by_cases h : job.status = .paused
  · exact turns_of_untouched hs fun slots => pauseJob_of_held slots h
  · exact turns_of_keep (LiveJob.turn_held hs) (by simp) fun slots => pauseJob_of_not_held slots h

theorem resumeJob_turns : Turns true resumeJob job := by
  by_cases h : job.status = .paused
  · exact turns_of_keep (LiveJob.turn_resumed hs (LiveJob.isHeld_iff.mpr h)) (by simp)
      fun slots => resumeJob_of_held slots h
  · exact turns_of_untouched hs fun slots => resumeJob_of_not_held slots h

theorem changePriority_turns (priority : Priority) : Turns resumed (changePriority priority) job :=
  turns_of_keep (LiveJob.turn_reprioritized hs priority) (by simp)
    fun slots => changePriority_run slots priority

-- A client's request to kill the job leaves the tasks to the end of the job.
theorem ends_turns (status : JobStatus) : Turns resumed (return .ends status []) job :=
  turns_of_keep (LiveJob.turn_refl hs) (by simp) fun _ => rfl

end DeskM

end JobScheduler
