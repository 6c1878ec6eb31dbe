import JobScheduler.Proofs.Job.Outcome

namespace JobScheduler.LiveJob

-- What an event makes of a job that goes on, and the slots that the job no longer needs.
-- Unless it may be resumed, a job stays held.
structure Turn (resumed : Bool) (job job' : LiveJob) (given : Nat) : Prop where
  advances : job.Advances job'
  load : job'.board.load + given = job.board.load
  held : resumed = false → job.isHeld → job'.isHeld

theorem isHeld_of_status_eq {job job' : LiveJob} (h : job'.status = job.status) (hheld : job.isHeld) :
    job'.isHeld := by
  rw [isHeld_iff] at *
  exact h.trans hheld

theorem isHeld_errorCleared {job : LiveJob} (h : job.isHeld) : job.errorCleared.isHeld := by
  obtain ⟨status, heq, hpaused, -⟩ := job.errorCleared_eq
  rw [heq]
  exact isHeld_iff.mpr (hpaused.mpr (isHeld_iff.mp h))

variable {resumed : Bool}

section Moved

variable {job job' : LiveJob} {task : TaskId} {source target : Place} {status : TaskStatus}
  {promoted : List TaskId} (hs : job.Sound)
  (h : Moved job job' job.isHeld task target status promoted)
  (hsource : job.board.placeOf task = .ok source) (hopen : source ≠ .done)
  (hfits : target.fits job.isHeld status)
include hs h hsource hopen hfits

-- A task that was not in error moves and is not in error then, so the status of the job
-- stays right.
theorem Moved.advances_steady (hpaused : source ≠ .paused) (hstatus : status ≠ .inError)
    (htarget : target ≠ .running) (hsame : job'.status = job.status) : job.Advances job' := by
  refine h.advances hs hsource hopen (Place.admits_of_fits hfits) fun hc => ?_
  have hheld : job'.isHeld = job.isHeld := by rw [isHeld, isHeld, hsame]
  have herror : job'.hasTasksInError ↔ job.hasTasksInError :=
    ⟨h.hasTasksInError_of hstatus, h.hasTasksInError_keep hs hsource hpaused⟩
  refine ⟨h.fits rfl hheld hsource hfits hc.fits, ?_, ?_, ?_⟩
  · rw [hsame]
    exact hc.live
  · rw [hsame, herror]
    exact hc.inError
  · intro hpending
    exact h.not_running htarget (hc.pending (hsame ▸ hpending))

-- A task moves that may have been the last one in error.
theorem Moved.advances_errorCleared (hstatus : status ≠ .inError) (htarget : target ≠ .running)
    (hsame : job'.status = job.status) : job.Advances job'.errorCleared := by
  obtain ⟨cleared, heq, hpaused, hpending, hlive, herror⟩ := job'.errorCleared_eq
  rw [hsame] at hpaused hpending hlive herror
  have hmoved : Moved job job'.errorCleared job.isHeld task target status promoted :=
    h.congr ⟨rfl, rfl, rfl⟩ (by simp [heq])
  refine hmoved.advances hs hsource hopen (Place.admits_of_fits hfits) fun hc => ?_
  have hheld : job'.errorCleared.isHeld = job.isHeld := by
    rw [heq]
    exact Bool.eq_iff_iff.mpr (by simpa [isHeld] using hpaused)
  refine ⟨hmoved.fits rfl hheld hsource hfits hc.fits, ?_, ?_, ?_⟩
  · rw [heq]
    exact hlive hc.live
  · rw [heq]
    refine herror.trans ⟨fun herr => ⟨fun hp => ?_, herr.2⟩, fun herr => ⟨?_, herr.2⟩⟩
    · have hp' := hpaused.mp hp
      rw [herr.1] at hp'
      cases hp'
    · exact hc.inError.mpr ⟨fun hp => herr.1 (hpaused.mpr hp), h.hasTasksInError_of hstatus herr.2⟩
  · intro hp
    rw [heq] at hp
    exact hmoved.not_running htarget (hc.pending (hpending.mp hp))

end Moved

section Outcomes

variable {job : LiveJob} (hs : job.Sound) {task : TaskId} {card : Card}
  (hcard : job.board.card task = .ok card)
include hs hcard

omit hs in
theorem load_of_moved {source target : Place} (hplace : card.place = source)
    (htarget : target ≠ .running) :
    (job.board.relocate task source target).load +
      (if source = .running then card.resources else 0) = job.board.load := by
  have hload := Board.load_relocate hcard target
  rwa [if_neg htarget, hplace, Nat.add_zero] at hload

theorem moved_requeued (hplace : card.place = .running) (status : TaskStatus) :
    Moved job (job.requeued task status) job.isHeld task
      (if job.isHeld then .paused else .eligible) (if job.isHeld then .paused else status) [] := by
  have hsource := Board.placeOf_of_card hcard
  rw [hplace] at hsource
  unfold requeued
  by_cases hpaused : job.status = .paused
  · have hheld : job.isHeld = true := isHeld_iff.mpr hpaused
    have hfirst := moved_shift hs.board hsource rfl (show Place.eligible.isPartition from rfl) true .pending
    have hagain := hfirst.again rfl (show Place.paused.isPartition from rfl) .paused
    rw [if_pos hpaused, hheld]
    refine hagain.congr ⟨rfl, rfl, rfl⟩ ⟨rfl, rfl, ?_⟩
    simp [holdingBack, setStatus, shift]
  · have hheld : job.isHeld = false := by simpa [isHeld] using hpaused
    rw [if_neg hpaused, hheld]
    exact moved_shift hs.board hsource rfl rfl false status

-- A running task goes back to wait for its next execution.
theorem turn_requeued (hplace : card.place = .running) {status : TaskStatus}
    (hfits : Place.eligible.fits false status) : Turn resumed job (job.requeued task status) card.resources := by
  have hsource := Board.placeOf_of_card hcard
  rw [hplace] at hsource
  have hmoved := moved_requeued hs hcard hplace status
  have hsame := job.requeued_status task status
  refine ⟨?_, ?_, fun _ => isHeld_of_status_eq hsame⟩
  · refine hmoved.advances_steady hs hsource (by simp) ?_ (by simp) ?_ ?_ hsame
    · cases job.isHeld with
      | true => rfl
      | false => exact hfits
    · cases job.isHeld with
      | true => simp
      | false => rintro rfl; cases hfits
    · cases job.isHeld <;> simp
  · have hload := load_of_moved hcard hplace (show Place.eligible ≠ .running by simp)
    simp only [if_true] at hload
    unfold requeued
    split
    · have heligible : (job.shift task .running .eligible).board.placeOf task = .ok .eligible := by
        rw [shift, Board.placeOf_relocate .eligible hsource, if_pos rfl]
      have hb : (job.shift task .running .eligible).board.Sound :=
        hs.board.relocate hsource rfl (show Place.eligible.isPartition from rfl)
      rw [(heldBack_one hb heligible).load]
      exact hload
    · exact hload

theorem moved_heldInError (hplace : card.place = .running) (result : TaskResult) :
    Moved job (job.heldInError task card result) job.isHeld task .paused .inError [] := by
  have hsource := Board.placeOf_of_card hcard
  rw [hplace] at hsource
  refine (moved_shift hs.board hsource rfl rfl job.isHeld .inError).congr ⟨rfl, rfl, rfl⟩ ?_
  unfold heldInError
  dsimp only
  split <;> exact ⟨rfl, rfl, rfl⟩

theorem turn_heldInError (hplace : card.place = .running) (result : TaskResult) :
    Turn resumed job (job.heldInError task card result) card.resources := by
  have hsource := Board.placeOf_of_card hcard
  rw [hplace] at hsource
  have hmoved := moved_heldInError hs hcard hplace result
  have hstatus := job.heldInError_status task card result
  have hheld : (job.heldInError task card result).isHeld = job.isHeld := by
    rw [Bool.eq_iff_iff, isHeld_iff, isHeld_iff, hstatus]
    by_cases hpaused : job.status = .paused <;> simp [hpaused]
  have hfits : Place.paused.fits job.isHeld .inError = true := by cases job.isHeld <;> rfl
  refine ⟨?_, ?_, fun _ h => hheld.trans h⟩
  · refine hmoved.advances hs hsource (by simp) (Place.admits_of_fits hfits) fun hc => ?_
    have herror : (job.heldInError task card result).hasTasksInError := by
      obtain ⟨old, hold, -⟩ := hs.agrees task _ hsource
      have hjob := Board.job_eq_of_placeOf hsource
      refine hasTasksInError_iff.mpr ⟨task, hjob.trans hmoved.same.id.symm, ?_⟩
      rw [hmoved.statusOf task hjob, hold]
      simp
    refine ⟨hmoved.fits rfl hheld hsource hfits hc.fits, ?_, ?_, ?_⟩ <;> rw [hstatus] <;>
      by_cases hpaused : job.status = .paused <;> simp [hpaused, herror, JobStatus.isTerminal]
  · have hload := load_of_moved hcard hplace (show Place.paused ≠ .running by simp)
    simp only [if_true] at hload
    unfold heldInError
    dsimp only
    split <;> exact hload

end Outcomes

-- The job after a task has terminated and the board has promoted its children.
def terminated (job : LiveJob) (task : TaskId) (parents : List TaskId) (status : TaskStatus)
    (ended : Board × List TaskId) : LiveJob :=
  (setStatus status { job with board := ended.1 } task).settled task parents ended.2

@[simp] theorem terminated_status (job : LiveJob) (task : TaskId) (parents : List TaskId)
    (status : TaskStatus) (ended : Board × List TaskId) :
    (job.terminated task parents status ended).status = job.status :=
  settled_status _ task parents ended.2

section Terminated

variable {job : LiveJob} (hs : job.Sound) {task : TaskId} {card : Card}
  (hcard : job.board.card task = .ok card) (hpartition : card.place.isPartition)
  {ended : Board × List TaskId} (hended : job.board.finish task card.place = .ok ended)
include hs hcard hpartition hended

omit hpartition in
theorem promoted_of_finish :
    ended.2.Nodup ∧ task ∉ ended.2 ∧
      (∀ id ∈ ended.2, ended.1.placeOf id = .ok .eligible) ∧
      ended.1.load + (if card.place = .running then card.resources else 0) = job.board.load := by
  have hsource := Board.placeOf_of_card hcard
  obtain ⟨board', promoted, hfinal, hpromotes⟩ := Board.finish_promotes hs.board.wired hsource
  rw [hended] at hfinal
  cases hfinal
  refine ⟨hpromotes.nodup, fun hmem => ?_, fun id hid => ?_, ?_⟩
  · have hblocked := hpromotes.blocked task hmem
    rw [Board.placeOf_relocate .done hsource, if_pos rfl] at hblocked
    cases hblocked
  · rw [hpromotes.place, if_pos hid]
  · rw [hpromotes.load]
    exact load_of_moved hcard rfl (by simp)

theorem moved_terminated (parents : List TaskId) (status : TaskStatus) :
    Moved job (job.terminated task parents status ended) job.isHeld task .done status ended.2 ∧
      (job.terminated task parents status ended).board.load = ended.1.load := by
  obtain ⟨hnodup, hnew, heligible, -⟩ := promoted_of_finish hs hcard hended
  have hmoved := moved_finish hs.board hpartition hended status
  unfold terminated
  by_cases hpaused : job.status = .paused
  · have hback := heldBack_all hmoved.board hnodup heligible
    have hheld : job.isHeld = true := isHeld_iff.mpr hpaused
    obtain ⟨results, heq⟩ := settled_of_held
      (show (setStatus status { job with board := ended.1 } task).status = .paused from hpaused) task
      parents ended.2
    rw [heq, hheld]
    exact ⟨(hmoved.hold hback hnew).congr ⟨rfl, rfl, rfl⟩ ⟨rfl, rfl, rfl⟩, hback.load⟩
  · have hheld : job.isHeld = false := by simpa [isHeld] using hpaused
    obtain ⟨results, heq⟩ := settled_of_not_held
      (show (setStatus status { job with board := ended.1 } task).status ≠ .paused from hpaused) task
      parents ended.2
    rw [heq, hheld]
    exact ⟨hmoved.congr ⟨rfl, rfl, rfl⟩ ⟨rfl, rfl, rfl⟩, rfl⟩

theorem turn_terminated (hrunning : card.place = .running) (parents : List TaskId)
    {status : TaskStatus} (hstatus : status.isTerminated) :
    Turn resumed job (job.terminated task parents status ended) card.resources := by
  obtain ⟨-, -, -, hload⟩ := promoted_of_finish hs hcard hended
  obtain ⟨hmoved, hload'⟩ := moved_terminated hs hcard hpartition hended parents status
  have hsame := job.terminated_status task parents status ended
  have hsource := Board.placeOf_of_card hcard
  rw [hrunning] at hsource
  refine ⟨?_, ?_, fun _ => isHeld_of_status_eq hsame⟩
  · refine hmoved.advances_steady hs hsource (by simp) ?_ (by simp) ?_ (by simp) hsame
    · exact hstatus
    · rintro rfl
      cases hstatus
  · rw [hload', ← hload, if_pos hrunning]

theorem turn_terminated_errorCleared (parents : List TaskId) {status : TaskStatus}
    (hstatus : status.isTerminated) :
    Turn resumed job (job.terminated task parents status ended).errorCleared
      (if card.place = .running then card.resources else 0) := by
  obtain ⟨-, -, -, hload⟩ := promoted_of_finish hs hcard hended
  obtain ⟨hmoved, hload'⟩ := moved_terminated hs hcard hpartition hended parents status
  have hsame := job.terminated_status task parents status ended
  have hsource := Board.placeOf_of_card hcard
  refine ⟨?_, ?_, fun _ h => isHeld_errorCleared (isHeld_of_status_eq hsame h)⟩
  · refine hmoved.advances_errorCleared hs hsource (Place.ne_done_of_isPartition hpartition) ?_ ?_
      (by simp) hsame
    · exact hstatus
    · rintro rfl
      cases hstatus
  · obtain ⟨cleared, heq, -⟩ := (job.terminated task parents status ended).errorCleared_eq
    rw [heq]
    exact (congrArg (· + _) hload').trans hload

end Terminated

end JobScheduler.LiveJob
