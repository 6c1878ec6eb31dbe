import JobScheduler.Proofs.Board.Attempts
import JobScheduler.Proofs.Desk.Outcomes

namespace JobScheduler

-- The tasks whose execution has to be stopped.
def Fate.cancelled : Fate → List TaskId
  | .untouched => []
  | .goesOn cancelled | .ends _ cancelled => cancelled

@[simp] theorem Fate.cancelled_next (job : LiveJob) (cancelled : List TaskId) :
    (Fate.next job cancelled).cancelled = cancelled := by
  unfold Fate.next
  split <;> rfl

-- Some running tasks have stopped. None has been started, and what had terminated has
-- stayed so.
structure Board.Stops (board board' : Board) (stopped : List TaskId) : Prop where
  same : board.SameTasks board'
  attempts : board'.attempts = board.attempts
  running : ∀ task, board'.placeOf task = .ok .running ↔
    board.placeOf task = .ok .running ∧ task ∉ stopped
  done : ∀ task, board.placeOf task = .ok .done → board'.placeOf task = .ok .done

theorem Board.Stops.refl (board : Board) : board.Stops board [] :=
  ⟨.refl board, rfl, by simp, fun _ h => h⟩

namespace LiveJob

section Attempts

variable (job : LiveJob)

theorem attempts_allHeldBack (tasks : List TaskId) :
    (job.allHeldBack tasks).board.attempts = job.board.attempts := by
  induction tasks generalizing job with
  | nil => rfl
  | cons first rest ih => exact (ih (job.holdingBack first)).trans (Board.attempts_relocate _ _ _ _)

theorem attempts_terminated {task : TaskId} {source : Place} {ended : Board × List TaskId}
    (h : job.board.finish task source = .ok ended) (parents : List TaskId) (status : TaskStatus) :
    (job.terminated task parents status ended).board.attempts = job.board.attempts := by
  have hfinish : ended.1.attempts = job.board.attempts := Board.attempts_finish h
  rw [terminated]
  by_cases hheld : (setStatus status { job with board := ended.1 } task).status = .paused
  · obtain ⟨results, heq⟩ := settled_of_held hheld task parents ended.2
    rw [heq]
    exact (attempts_allHeldBack _ ended.2).trans hfinish
  · obtain ⟨results, heq⟩ := settled_of_not_held hheld task parents ended.2
    rw [heq]
    exact hfinish

theorem attempts_requeued (task : TaskId) (status : TaskStatus) :
    (job.requeued task status).board.attempts = job.board.attempts := by
  unfold requeued
  split
  · exact (Board.attempts_relocate _ _ _ _).trans (Board.attempts_relocate _ _ _ _)
  · exact Board.attempts_relocate _ _ _ _

theorem attempts_heldInError (task : TaskId) (card : Card) (result : TaskResult) :
    (job.heldInError task card result).board.attempts = job.board.attempts := by
  unfold heldInError
  dsimp only
  split <;> exact Board.attempts_relocate _ _ _ _

theorem attempts_restarted (task : TaskId) :
    (job.restarted task).board.attempts = job.board.attempts := by
  unfold restarted
  split
  · rfl
  · exact Board.attempts_relocate _ _ _ _

theorem attempts_restate (wanted : TaskStatus → Bool) (status : TaskStatus) :
    (job.restate wanted status).1.board.attempts = job.board.attempts := by
  rw [restate_board, Board.attempts_applyStatuses]

end Attempts

theorem Moved.stops {job job' : LiveJob} {held : Bool} {task : TaskId} {source target : Place}
    {status : TaskStatus} {promoted : List TaskId}
    (h : Moved job job' held task target status promoted)
    (hsource : job.board.placeOf task = .ok source) (hopen : source ≠ .done)
    (htarget : target ≠ .running) (hattempts : job'.board.attempts = job.board.attempts) :
    job.board.Stops job'.board (if source = .running then [task] else []) where
  same := h.same.board
  attempts := hattempts
  running id := by
    rw [h.place]
    by_cases htask : id = task
    · rw [htask, if_pos rfl, hsource]
      simp [htarget]
    · rw [if_neg htask]
      have hkept : id ∉ if source = .running then [task] else [] := by
        split <;> simp [htask]
      by_cases hid : id ∈ promoted
      · rw [if_pos hid, h.blocked id hid]
        cases held <;> simp
      · rw [if_neg hid]
        exact (and_iff_left hkept).symm
  done id hdone := by
    have htask : id ≠ task := by
      rintro rfl
      rw [hsource] at hdone
      exact hopen (Except.ok.inj hdone)
    have hid : id ∉ promoted := fun hmem => by
      rw [h.blocked id hmem] at hdone
      cases hdone
    rw [h.place, if_neg htask, if_neg hid, hdone]

theorem stops_restate {job : LiveJob} (wanted : TaskStatus → Bool) (status : TaskStatus) :
    job.board.Stops (job.restate wanted status).1.board [] where
  same := (sameJob_restate wanted status).board
  attempts := job.attempts_restate wanted status
  running task := by
    rw [placeOf_restate_of_fixed wanted status (by simp)]
    simp
  done task := (placeOf_restate_of_fixed wanted status (by simp) task).mpr

section Stopped

variable {job : LiveJob} (hs : job.Sound) {task : TaskId} {card : Card}
  (hcard : job.board.card task = .ok card)
include hs hcard

theorem stops_requeued (hplace : card.place = .running) (status : TaskStatus) :
    job.board.Stops (job.requeued task status).board [task] := by
  have hstops := (moved_requeued hs hcard hplace status).stops (Board.placeOf_of_card hcard)
    (by simp [hplace]) (by split <;> simp) (job.attempts_requeued task status)
  rwa [if_pos hplace] at hstops

theorem stops_heldInError (hplace : card.place = .running) (result : TaskResult) :
    job.board.Stops (job.heldInError task card result).board [task] := by
  have hstops := (moved_heldInError hs hcard hplace result).stops (Board.placeOf_of_card hcard)
    (by simp [hplace]) (by simp) (job.attempts_heldInError task card result)
  rwa [if_pos hplace] at hstops

theorem stops_terminated (hpartition : card.place.isPartition) {ended : Board × List TaskId}
    (hended : job.board.finish task card.place = .ok ended) (parents : List TaskId)
    (status : TaskStatus) :
    job.board.Stops (job.terminated task parents status ended).board
      (if card.place = .running then [task] else []) :=
  (moved_terminated hs hcard hpartition hended parents status).1.stops
    (Board.placeOf_of_card hcard) (Place.ne_done_of_isPartition hpartition) (by simp)
    (job.attempts_terminated hended parents status)

theorem stops_concluded (hplace : card.place = .running) {ended : Board × List TaskId}
    (hended : job.board.finish task card.place = .ok ended) (result : TaskResult) :
    job.board.Stops (job.concluded task card result ended).board [task] := by
  have hbooks : ((job.consumeExecution task).addingResult card result).Sound :=
    (advances_books hs _ _).sound
  have hstops := stops_terminated hbooks hcard (by rw [hplace]; rfl) hended card.parents
    (if result.hadException then .faulty else .finished)
  rwa [if_pos hplace] at hstops

theorem stops_killed (hpartition : card.place.isPartition) {ended : Board × List TaskId}
    (hended : job.board.finish task card.place = .ok ended) :
    job.board.Stops (job.killed task card ended).board (if card.place = .running then [task] else []) := by
  have hbooks : (job.addingResult card (.killed task)).Sound := (advances_books hs _ _).sound
  rw [killed, errorCleared_board]
  exact stops_terminated hbooks hcard hpartition hended card.parents .killed

end Stopped

-- What an event stops is the task that it reports on or one that it cancels.
theorem Outcome.stops {job job' : LiveJob} (hs : job.Sound) {event : Event} {fate : Fate}
    (h : job.Outcome event fate job') :
    job.board.Stops job'.board (event.reported ++ fate.cancelled) := by
  have hconsumed (task : TaskId) : (job.consumeExecution task).Sound :=
    (advances_books hs job.results (job.consumeExecution task).executions).sound
  cases h with
  | untouched hnot =>
      refine ⟨.refl job.board, rfl, fun task => ?_, fun _ hdone => hdone⟩
      simp only [Fate.cancelled, List.append_nil]
      exact ⟨fun hrunning => ⟨hrunning, fun hmem => hnot task hmem hrunning⟩, And.left⟩
  | @retried task result card hcard hplace =>
      exact stops_requeued (hconsumed task) hcard hplace .waitingOnError
  | @heldInError task result card hcard hplace =>
      exact stops_heldInError (hconsumed task) hcard hplace result
  | @canceled task result card ended hcard hplace hended =>
      exact stops_concluded hs hcard hplace hended result
  | @concluded task result card ended hcard hplace hended =>
      rw [Fate.cancelled_next]
      exact stops_concluded hs hcard hplace hended result
  | lost hcard hplace => exact stops_requeued hs hcard hplace .pending
  | held => exact stops_restate awaitsStart .paused
  | resumed => exact stops_restate (· == .paused) .pending
  | dropped => exact .refl job.board
  | killed hcard hpartition hended =>
      rw [Fate.cancelled_next]
      exact stops_killed hs hcard hpartition hended
  | @restarted task hjob herror =>
      have hstops := (moved_restarted hs hjob herror).stops (hs.placeOf_of_inError hjob herror)
        (by simp) (by split <;> simp) (job.attempts_restarted task)
      rw [errorCleared_board]
      exact hstops
  | @finished task card ended hcard hplace hended =>
      have hstops := stops_terminated hs hcard (by rw [hplace]; rfl) hended card.parents .faulty
      rw [if_neg (by simp [hplace])] at hstops
      rw [Fate.cancelled_next, errorCleared_board]
      exact hstops
  | @reprioritized id wanted =>
      have hplace : (job.reprioritized wanted).board.placeOf = job.board.placeOf :=
        Board.placeOf_congr rfl rfl
      refine ⟨.of_cards_eq rfl rfl rfl, rfl, fun task => ?_, fun task hdone => ?_⟩
      · rw [hplace]
        simp [Event.reported, Fate.cancelled]
      · rwa [hplace]

-- A task is cancelled when a client terminates it while it runs.
theorem Outcome.of_cancelled {job job' : LiveJob} (hs : job.Sound) {event : Event} {fate : Fate}
    (h : job.Outcome event fate job') {task : TaskId} (hmem : task ∈ fate.cancelled) :
    fate.cancelled = [task] ∧ event.reported = [] ∧ job.board.placeOf task = .ok .running ∧
      job'.board.placeOf task = .ok .done := by
  cases h with
  | concluded => simp at hmem
  | @killed id card ended hcard hpartition hended =>
      rw [Fate.cancelled_next] at hmem ⊢
      split at hmem
      · rename_i hplace
        obtain rfl := List.mem_singleton.mp hmem
        have hbooks : (job.addingResult card (.killed task)).Sound := (advances_books hs _ _).sound
        have hmoved := (moved_terminated hbooks hcard hpartition hended card.parents .killed).1
        refine ⟨if_pos hplace, rfl, (Board.placeOf_of_card hcard).trans (congrArg _ hplace), ?_⟩
        rw [LiveJob.killed, errorCleared_board]
        exact hmoved.placeOf_task
      · cases hmem
  | finished => simp at hmem
  | untouched | retried | heldInError | canceled | lost | held | resumed | dropped | restarted
    | reprioritized => cases hmem

theorem Outcome.nodup_cancelled {job job' : LiveJob} (hs : job.Sound) {event : Event} {fate : Fate}
    (h : job.Outcome event fate job') : fate.cancelled.Nodup := by
  cases hcancelled : fate.cancelled with
  | nil => exact List.nodup_nil
  | cons first rest =>
      have hfirst : first ∈ fate.cancelled := hcancelled ▸ List.mem_cons_self
      rw [← hcancelled, (h.of_cancelled hs hfirst).1]
      simp

end LiveJob

end JobScheduler
