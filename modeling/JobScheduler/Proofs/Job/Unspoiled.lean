import JobScheduler.Proofs.Job.Agreement
import JobScheduler.Proofs.Job.Books
import JobScheduler.Proofs.Job.Record

namespace JobScheduler

-- A job does not both end with its first failure and wait for a client to look at it.
theorem Submission.pauseOnError_of_resolve {submission : Submission} {job : JobId}
    {tasks : List PlannedTask} (h : submission.resolve job = .ok tasks)
    (hcancel : submission.cancelOnError) : submission.pauseOnError = false := by
  cases hpause : submission.pauseOnError with
  | false => rfl
  | true =>
      by_cases hnil : submission.tasks.isEmpty <;>
        simp [resolve, hnil, hcancel, hpause, bind, Except.bind, throw, throwThe, MonadExceptOf.throw] at h

namespace LiveJob

-- No task has failed for good, and none is left in error, where a client could give it up.
structure Unspoiled (job : LiveJob) : Prop where
  faulty : .faulty ∉ job.statuses
  inError : .inError ∉ job.statuses

section Unspoiled

variable {job job' : LiveJob} (h : job.Unspoiled)
include h

theorem Unspoiled.of_statuses (hsame : job'.statuses = job.statuses) : job'.Unspoiled := by
  refine ⟨?_, ?_⟩ <;> rw [hsame]
  · exact h.faulty
  · exact h.inError

theorem Unspoiled.moved {held : Bool} {task : TaskId} {target : Place} {status : TaskStatus}
    {promoted : List TaskId} (hmoved : Moved job job' held task target status promoted)
    (hfaulty : status ≠ .faulty) (hinError : status ≠ .inError) : job'.Unspoiled where
  faulty hmem := h.faulty (hmoved.mem_statuses_of (by simp) hfaulty hmem)
  inError hmem := h.inError (hmoved.mem_statuses_of (by simp) hinError hmem)

theorem Unspoiled.restated (wanted : TaskStatus → Bool) {status : TaskStatus}
    (hfaulty : status ≠ .faulty) (hinError : status ≠ .inError) :
    (job.restate wanted status).1.Unspoiled where
  faulty hmem := h.faulty (mem_statuses_of_restate wanted status hfaulty hmem)
  inError hmem := h.inError (mem_statuses_of_restate wanted status hinError hmem)

theorem Unspoiled.errorCleared : job.errorCleared.Unspoiled := by
  obtain ⟨status, heq, -⟩ := job.errorCleared_eq
  exact h.of_statuses (by rw [heq])

theorem Unspoiled.served (hs : job.Sound) (accepts : Card → Bool) (budget : Nat) :
    (job.served (Selection.among accepts budget job.board.eligibleCards)).Unspoiled := by
  have hid := (advances_served hs accepts budget).id
  have hold {status : TaskStatus} (hne : status ≠ .running)
      (hmem : status ∈ (job.served (Selection.among accepts budget job.board.eligibleCards)).statuses) :
      status ∈ job.statuses := by
    obtain ⟨task, htask, hstatus⟩ := mem_statuses_iff.mp hmem
    have hjob := htask.trans hid
    rw [statusOf?_served hs accepts budget hjob] at hstatus
    split at hstatus
    · exact absurd (Option.some.inj hstatus).symm hne
    · exact mem_statuses_iff.mpr ⟨task, hjob, hstatus⟩
  exact ⟨fun hmem => h.faulty (hold (by simp) hmem), fun hmem => h.inError (hold (by simp) hmem)⟩

-- The first failure of a job that is to end with it makes it end, canceled.
theorem Unspoiled.outcome (hs : job.Sound) (hcancel : job.submission.cancelOnError) {event : Event}
    {fate : Fate} (houtcome : job.Outcome event fate job') :
    job'.Unspoiled ∨ ∃ cancelled, fate = .ends .canceled cancelled := by
  have hnone := Submission.pauseOnError_of_resolve hs.resolved hcancel
  have hbooks (results : JobResult) (executions : List Nat) :
      ({ job with results, executions } : LiveJob).Sound ∧
        ({ job with results, executions } : LiveJob).Unspoiled :=
    ⟨(advances_books hs results executions).sound, h.of_statuses rfl⟩
  cases houtcome with
  | untouched | dropped => exact .inl h
  | @retried task result card hcard hplace =>
      obtain ⟨hsound, hclean⟩ := hbooks job.results (job.consumeExecution task).executions
      exact .inl (hclean.moved (moved_requeued hsound hcard hplace .waitingOnError)
        (by split <;> simp) (by split <;> simp))
  | heldInError _ _ hpause =>
      rw [hnone] at hpause
      cases hpause
  | canceled => exact .inr ⟨[], rfl⟩
  | @concluded task result card ended hcard hplace hended hgood =>
      have hsucceeded : ¬result.hadException := fun hfailed => hgood ⟨hfailed, hcancel⟩
      have hmoved := moved_concluded hs hcard hplace hended result
      rw [if_neg hsucceeded] at hmoved
      exact .inl (h.moved hmoved (by simp) (by simp))
  | lost hcard hplace =>
      exact .inl (h.moved (moved_requeued hs hcard hplace .pending)
        (by split <;> simp) (by split <;> simp))
  | held => exact .inl ((h.restated awaitsStart (by simp) (by simp)).of_statuses rfl)
  | resumed => exact .inl ((h.restated (· == .paused) (by simp) (by simp)).of_statuses rfl)
  | @killed task card ended hcard hpartition hended =>
      obtain ⟨hsound, hclean⟩ :=
        hbooks (job.results.add card.name (.killed task) card.task.precious) job.executions
      have hmoved := (moved_terminated hsound hcard hpartition hended card.parents .killed).1
      exact .inl (hclean.moved hmoved (by simp) (by simp)).errorCleared
  | restarted hjob herror =>
      exact .inl (h.moved (moved_restarted hs hjob herror)
        (by split <;> simp) (by split <;> simp)).errorCleared
  | finished _ _ _ herror => exact absurd (List.mem_of_getElem? herror) h.inError
  | reprioritized => exact .inl (h.of_statuses rfl)

end Unspoiled

theorem unspoiled_of_new {id : JobId} {submission : Submission} {job : LiveJob}
    (h : LiveJob.new id submission = .ok job) : job.Unspoiled := by
  obtain ⟨tasks, board, -, -, rfl⟩ := new_eq_ok h
  exact ⟨by simp [ofBoard], by simp [ofBoard]⟩

end LiveJob

namespace PersistedJob

-- A job that is to end with its first failure was recorded before the first one, or after
-- it had nothing left to do.
def Unspoiled (persisted : PersistedJob) : Prop :=
  persisted.submission.cancelOnError →
    (∀ task ∈ persisted.submission.tasks, (Board.statusIn persisted.statuses task).isTerminated) ∨
    ¬persisted.Records .faulty ∧ ¬persisted.Records .inError

variable {persisted : PersistedJob} {job : LiveJob} (h : persisted.revive = .ok job)
include h

theorem isComplete_of_revive
    (hall : ∀ task ∈ persisted.submission.tasks, (Board.statusIn persisted.statuses task).isTerminated) :
    job.board.isComplete := by
  obtain ⟨hs, -⟩ := sound_of_revive h
  obtain ⟨rebuilt, board, hrebuild, hback, rfl⟩ := revive_eq_ok_iff.mp h
  have hterminated (status : TaskStatus) (hmem : status ∈ (persisted.restored board).statuses) :
      status.isTerminated := by
    rw [statuses_restored_eq hrebuild hback] at hmem
    obtain ⟨task, htask, rfl⟩ := List.mem_map.mp hmem
    have hkept := hall task htask
    unfold backStatus
    split
    · rename_i hrunning
      rw [hrunning] at hkept
      cases hkept
    · exact hkept
  have hsame : (if persisted.status = .paused then (persisted.restored board).pausePending.1
      else persisted.restored board) = persisted.restored board := by
    split
    · refine LiveJob.restate_of_none (fun old hold => ?_) .paused
      refine Bool.eq_false_iff.mpr fun hawaits => ?_
      have hkept := hterminated old hold
      rw [LiveJob.awaitsStart_not_terminated old hawaits] at hkept
      cases hkept
    · rfl
  rw [hsame] at hs ⊢
  by_contra hopen
  obtain ⟨task, place, hplace, hne⟩ := hs.board.not_isComplete_iff.mp hopen
  obtain ⟨status, hstatus, hadmits⟩ := hs.agrees task place hplace
  exact hne (hadmits.1.mp (hterminated status (List.mem_of_getElem? hstatus)))

theorem unspoiled_of_revive (hfaulty : ¬persisted.Records .faulty)
    (hinError : ¬persisted.Records .inError) : job.Unspoiled := by
  obtain ⟨rebuilt, board, hrebuild, hback, rfl⟩ := revive_eq_ok_iff.mp h
  have hrestored : (persisted.restored board).Unspoiled := by
    refine ⟨fun hmem => hfaulty ?_, fun hmem => hinError ?_⟩
    · refine (mem_statuses_restored_iff hrebuild hback (fun old => ?_) (by simp)).mp hmem
      unfold backStatus waiting
      cases old <;> by_cases hpaused : persisted.status = .paused <;> simp [hpaused]
    · exact (hasTasksInError_restored_iff hrebuild hback).mp (List.contains_iff_mem.mpr hmem)
  split
  · exact hrestored.restated LiveJob.awaitsStart (by simp) (by simp)
  · exact hrestored

end PersistedJob

end JobScheduler
