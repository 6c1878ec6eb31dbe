import JobScheduler.Proofs.Job.Revive

namespace JobScheduler.PersistedJob

-- Some task of the job was recorded with the status.
def Records (persisted : PersistedJob) (status : TaskStatus) : Prop :=
  ∃ task ∈ persisted.submission.tasks, persisted.statuses.find? task.name = some status

-- What was recorded of the job and what was recorded of its tasks tell the same: tasks are
-- paused where the job is, and unless it is paused the job is in error where a task is.
structure Agreeing (persisted : PersistedJob) : Prop where
  notPaused : persisted.status ≠ .paused → ¬persisted.Records .paused
  inError : persisted.status ≠ .paused → (persisted.status = .inError ↔ persisted.Records .inError)

theorem statusIn_eq_iff {statuses : SortedMap String TaskStatus} {task : Submission.Task}
    {status : TaskStatus} (hne : status ≠ .submitted) :
    Board.statusIn statuses task = status ↔ statuses.find? task.name = some status := by
  rw [Board.statusIn]
  cases statuses.find? task.name with
  | none => simp [hne.symm]
  | some found => simp

section Fits

variable {persisted : PersistedJob} {status : TaskStatus} {place : Place}

-- Outside a paused job only paused tasks are out of place.
theorem fits_of_restores (hopen : persisted.status ≠ .paused) (hnot : status ≠ .paused)
    (h : Place.restores status place) :
    (persisted.backFrom place).fits false (persisted.backStatus status) := by
  cases status <;> cases place <;>
    simp_all [Place.restores, backFrom, backStatus, waiting, Place.fits, TaskStatus.isTerminated]

-- In a paused job every task is where it is or will be once the job is held.
theorem fits_of_restores_paused (hpaused : persisted.status = .paused)
    (h : Place.restores status place) :
    ∃ held, (persisted.backFrom place).fits held (persisted.backStatus status) := by
  cases status <;> cases place <;>
    simp_all [Place.restores, backFrom, backStatus, waiting, Place.fits, TaskStatus.isTerminated]

theorem fits_of_held {held : Bool} (h : place.fits held status) :
    (if LiveJob.awaitsStart status then Place.follow false .paused place else place).fits true
      (if LiveJob.awaitsStart status then .paused else status) := by
  cases held <;> cases place <;> cases status <;>
    simp_all [Place.fits, Place.follow, LiveJob.awaitsStart, TaskStatus.isTerminated]

end Fits

section Restored

variable {persisted : PersistedJob} {rebuilt board : Board}
  (hrebuild : Board.rebuild persisted.id persisted.submission persisted.statuses = .ok rebuilt)
  (hback : rebuilt.running.toList.foldlM persisted.putBack rebuilt = .ok board)
include hrebuild hback

theorem mem_statuses_restored_iff {status : TaskStatus}
    (hkept : ∀ old, persisted.backStatus old = status ↔ old = status) (hne : status ≠ .submitted) :
    status ∈ (persisted.restored board).statuses ↔ persisted.Records status := by
  rw [statuses_restored_eq hrebuild hback, List.mem_map]
  exact exists_congr fun task => and_congr_right fun _ =>
    (hkept _).trans (statusIn_eq_iff hne)

theorem hasTasksInError_restored_iff :
    (persisted.restored board).hasTasksInError ↔ persisted.Records .inError := by
  rw [LiveJob.hasTasksInError, List.contains_iff_mem]
  refine mem_statuses_restored_iff hrebuild hback (fun old => ?_) (by simp)
  unfold backStatus waiting
  cases old <;> by_cases hpaused : persisted.status = .paused <;> simp [hpaused]

-- A paused job is held as if its client had just paused it.
theorem coherent_pausePending (hpaused : persisted.status = .paused) :
    (persisted.restored board).pausePending.1.Coherent := by
  have hrestored := sound_restored hrebuild hback
  have hagrees : (persisted.restored board).Agrees fun place status => ∃ held, place.fits held status :=
    agrees_restored hrebuild hback fun _ _ _ => fits_of_restores_paused hpaused
  have hstatus : (persisted.restored board).pausePending.1.status = .paused :=
    (LiveJob.restate_status _ _ _).trans hpaused
  have hheld : (persisted.restored board).pausePending.1.isHeld = true := LiveJob.isHeld_iff.mpr hstatus
  refine ⟨?_, by rw [hstatus]; rfl, by simp [hstatus], by simp [hstatus]⟩
  rw [hheld]
  exact LiveJob.agrees_restate hrestored LiveJob.awaitsStart .paused hagrees
    fun place old ⟨_, hfits⟩ => fits_of_held hfits

theorem coherent_restored_iff (hopen : persisted.status.isTerminal = false)
    (hrunning : persisted.status ≠ .paused) :
    (persisted.restored board).Coherent ↔ persisted.Agreeing := by
  have hheld : (persisted.restored board).isHeld = false := by
    simpa [LiveJob.isHeld, restored] using hrunning
  have herror := hasTasksInError_restored_iff hrebuild hback
  constructor
  · intro hc
    refine ⟨fun _ hrecords => ?_, fun _ => ?_⟩
    · have hmem := (mem_statuses_restored_iff hrebuild hback (fun old => ?_) (by simp)).mpr hrecords
      · obtain ⟨id, hjob, hid⟩ := LiveJob.mem_statuses_iff.mp hmem
        obtain ⟨place, -, hfits⟩ :=
          LiveJob.fits_of_statusOf? (sound_restored hrebuild hback) hc hjob hid
        rw [hheld] at hfits
        cases place <;> cases hfits
      · have hwaiting : persisted.waiting = .pending := if_neg hrunning
        rw [backStatus, hwaiting]
        cases old <;> simp
    · exact (hc.inError.trans (and_iff_right hrunning)).trans herror
  · intro ha
    refine ⟨?_, hopen, ?_, fun _ => not_running_of_revive hrebuild hback⟩
    · rw [hheld]
      refine agrees_restored hrebuild hback fun task htask place hrestores => ?_
      refine fits_of_restores hrunning (fun hpaused => ?_) hrestores
      exact ha.notPaused hrunning ⟨task, htask, (statusIn_eq_iff (by simp)).mp hpaused⟩
    · exact (ha.inError hrunning).trans (herror.symm.trans (and_iff_right hrunning).symm)

end Restored

-- A revived job is shown as it is just when its record agrees with itself.
theorem coherent_revive_iff {persisted : PersistedJob} {job : LiveJob} (h : persisted.revive = .ok job)
    (hopen : persisted.status.isTerminal = false) : job.Coherent ↔ persisted.Agreeing := by
  obtain ⟨rebuilt, board, hrebuild, hback, rfl⟩ := revive_eq_ok_iff.mp h
  by_cases hpaused : persisted.status = .paused
  · rw [if_pos hpaused]
    exact iff_of_true (coherent_pausePending hrebuild hback hpaused)
      ⟨fun hne => absurd hpaused hne, fun hne => absurd hpaused hne⟩
  · rw [if_neg hpaused]
    exact coherent_restored_iff hrebuild hback hopen hpaused

end JobScheduler.PersistedJob
