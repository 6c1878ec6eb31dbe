import JobScheduler.Proofs.Board.Rebuild
import JobScheduler.Proofs.Scheduler.Lasting
import JobScheduler.Proofs.Scheduler.Order

namespace JobScheduler

namespace Scheduler

section Lists

end Lists

section Entry

variable {scheduler : Scheduler} (hs : scheduler.Sound) {persisted : PersistedJob}
include hs

end Entry

section Recovery

variable {scheduler : Scheduler} (h : scheduler.Orderly) (jobs : List PersistedJob)
include h

end Recovery

theorem Revival.taken {scheduler : Scheduler} {persisted : PersistedJob} {final : Scheduler}
    (h : scheduler.Revival persisted (.ok ()) final) :
    ∃ job, persisted.revive = .ok job ∧ (final.registry.find? persisted.id = some job ∨
      final.registry.ended? persisted.id = some (job.closing (PersistedJob.endStatus job))) := by
  cases h with
  | @goesOn job hrevive _ _ _ =>
      obtain ⟨-, -, hid⟩ := PersistedJob.sound_of_revive hrevive
      exact ⟨job, hrevive, .inl ((scheduler.find?_readmitted job _).trans (if_pos hid.symm))⟩
  | @ends job hrevive _ _ _ =>
      obtain ⟨-, -, hid⟩ := PersistedJob.sound_of_revive hrevive
      exact ⟨job, hrevive, .inr (((scheduler.readmitted job).ended?_retired job _ _).trans (if_pos hid.symm))⟩

end Scheduler

end JobScheduler
