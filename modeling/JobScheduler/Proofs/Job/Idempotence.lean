import JobScheduler.Proofs.Desk.Stops
import JobScheduler.Proofs.Job.Agreement
import JobScheduler.Proofs.Job.Persist

namespace JobScheduler.PersistedJob

-- A task that is put back is shown as it stands, if need be as one of a job that is held.
theorem exists_fits_of_restores {persisted : PersistedJob} {status : TaskStatus} {place : Place}
    (h : Place.restores status place) :
    ∃ held, (persisted.backFrom place).fits held (persisted.backStatus status) := by
  by_cases hpaused : persisted.status = .paused
  · exact fits_of_restores_paused hpaused h
  · by_cases hkept : status = .paused
    · subst hkept
      refine ⟨true, ?_⟩
      cases place <;> simp_all [Place.restores, backFrom, backStatus, Place.fits]
    · exact ⟨false, fits_of_restores hpaused hkept h⟩

section Revived

variable {persisted : PersistedJob} {job : LiveJob} (h : persisted.revive = .ok job)
include h

-- Whatever is kept of a job, its revival can be read.
theorem legible_of_revive : job.Legible := by
  obtain ⟨rebuilt, board, hrebuild, hback, rfl⟩ := revive_eq_ok_iff.mp h
  by_cases hpaused : persisted.status = .paused
  · have hc := coherent_pausePending hrebuild hback hpaused
    rw [if_pos hpaused]
    exact hc.legible (LiveJob.sound_pausePending (sound_restored hrebuild hback))
  · rw [if_neg hpaused]
    exact ⟨agrees_restored hrebuild hback fun _ _ _ => exists_fits_of_restores,
      fun hheld => absurd hheld hpaused⟩

theorem submission_of_revive : job.submission = persisted.submission := by
  obtain ⟨rebuilt, board, -, -, rfl⟩ := revive_eq_ok_iff.mp h
  split
  · exact LiveJob.restate_submission _ _ _
  · rfl

theorem status_of_revive : job.status = persisted.status := by
  obtain ⟨rebuilt, board, -, -, rfl⟩ := revive_eq_ok_iff.mp h
  split
  · exact LiveJob.restate_status _ _ _
  · rfl

theorem running_of_revive : job.board.running.toList = [] := by
  obtain ⟨hs, -⟩ := sound_of_revive h
  refine List.eq_nil_iff_forall_not_mem.mpr fun id hid => ?_
  have hplace := hs.board.partitioned.mem_running_iff.mp hid
  obtain ⟨rebuilt, board, hrebuild, hback, rfl⟩ := revive_eq_ok_iff.mp h
  have hnone := not_running_of_revive hrebuild hback id
  split at hplace
  · exact hnone ((LiveJob.placeOf_restate_of_fixed LiveJob.awaitsStart .paused (by simp) id).mp hplace)
  · exact hnone hplace

theorem untried_of_revive : job.board.Untried := by
  obtain ⟨rebuilt, board, hrebuild, hback, rfl⟩ := revive_eq_ok_iff.mp h
  have hboard := (Board.untried_of_rebuild hrebuild).of_attempts
    (keeps_foldlM_putBack Board.attempts Board.attempts_relocate hback)
  split
  · exact hboard.of_attempts (LiveJob.attempts_restate _ LiveJob.awaitsStart .paused)
  · exact hboard

end Revived

-- A revived job comes back from what is kept of it as it is. Whatever may have been wrong with
-- the record that it came from, it is right after one revival.
theorem revive_persisted {persisted : PersistedJob} {job : LiveJob} (h : persisted.revive = .ok job) :
    job.persisted.revive = .ok job := by
  obtain ⟨hs, -, -⟩ := sound_of_revive h
  obtain ⟨again, hagain, hloses⟩ := (legible_of_revive h).exists_revive hs (carriesOut_of_revive h)
  rw [running_of_revive h] at hloses
  have halike := (LiveJob.Loses.refl hs).alike hloses fun _ => Iff.rfl
  have hplace : again.board.placeOf = job.board.placeOf := by
    funext id
    rw [hloses.place, if_neg List.not_mem_nil]
  have hattempts := (untried_of_revive h).attempts_eq (untried_of_revive hagain) halike.tasks.size
  have hboard : again.board = job.board := halike.tasks.eq_of_placeOf hs.board hloses.sound.board hs.goesOn
    hloses.sound.goesOn hplace halike.priority hattempts
  have hresults : again.results = job.results := by
    rw [results_of_revive hagain, results_of_revive h, hboard, LiveJob.id, hboard]
    rw [show job.persisted.submission = persisted.submission from submission_of_revive h]
    refine foldl_addResult_congr rfl (fun card hcard => ?_) _
    have hfound := persisted.find?_foldl_addResult
      (.new job.id persisted.submission.name persisted.submission.preciousTasks) job.board.cards card.name
    rw [← results_of_revive h, if_pos (List.mem_map_of_mem hcard)] at hfound
    exact hfound.trans Option.or_none
  have hsame : again = job := by
    have hsubmission := halike.submission
    have hstatus := halike.status
    have hstatuses := halike.statuses
    have hexecutions := halike.executions
    cases again
    cases job
    simp_all
  rw [hagain, hsame]

end JobScheduler.PersistedJob
