import JobScheduler.Proofs.Job.Idempotence
import JobScheduler.Proofs.Scheduler.Crash
import JobScheduler.Proofs.Scheduler.Lasting

namespace JobScheduler

-- The job is what one of the persisted jobs came back as, and it goes on.
def Law.revived (jobs : List PersistedJob) : Law where
  live _ job := ∃ persisted ∈ jobs, persisted.status.isTerminal = false ∧
    persisted.revive = .ok job ∧ ¬job.board.isComplete
  ended _ _ := True

namespace Scheduler

theorem exists_of_recovered {total : Nat} {jobs : List PersistedJob} {id : JobId} {job : LiveJob}
    (hjob : ((Scheduler.new total).recover jobs).2.registry.find? id = some job) :
    ∃ persisted ∈ jobs, persisted.status.isTerminal = false ∧
      persisted.revive = .ok job ∧ ¬job.board.isComplete := by
  have hadmits (persisted : PersistedJob) (hmem : persisted ∈ (Scheduler.new total).recovered jobs) :
      (Law.revived jobs).Admits persisted :=
    ⟨fun job hrevive hincomplete => ⟨persisted, mem_of_mem_recovered hmem, open_of_mem_recovered hmem,
      hrevive, hincomplete⟩, fun _ _ _ => trivial⟩
  have hupholds := upholds_recover (orderly_new total) (Registry.upholds_empty (Law.revived jobs)) hadmits
  obtain ⟨_, -, hlaw⟩ := hupholds.live id job hjob
  exact hlaw

section Persisted

variable {persisted persisted' : PersistedJob} {job : LiveJob} (hrevive : persisted.revive = .ok job)
  (hrevive' : persisted'.revive = .ok job) (hstatus : persisted'.status.isTerminal = persisted.status.isTerminal)
include hrevive hrevive' hstatus

-- A scheduler sees no more of a persisted job than what it comes back as.
theorem recover_eq_of_revive (scheduler : Scheduler) :
    scheduler.recover [persisted'] = scheduler.recover [persisted] := by
  simp only [recover, List.foldl_cons, List.foldl_nil, recoverOne, SchedulerM.recoverJob, hrevive, hrevive',
    hstatus]

end Persisted

-- To recover a job twice is to recover it once. What is kept of a job that came back stands for
-- whatever it came back from, and the same job comes back from it.
theorem recovered_twice (total fresh : Nat) (jobs : List PersistedJob) :
    ∀ id job, ((Scheduler.new total).recover jobs).2.registry.find? id = some job →
      ((Scheduler.new fresh).recover [job.persisted]).1 = 1 ∧
      ((Scheduler.new fresh).recover [job.persisted]).2.registry.find? id = some job ∧
      ∃ persisted ∈ jobs, persisted.id = id ∧
        ∀ scheduler : Scheduler, scheduler.recover [job.persisted] = scheduler.recover [persisted] := by
  intro id job hjob
  obtain ⟨persisted, hmem, hopen, hrevive, hincomplete⟩ := exists_of_recovered hjob
  have horderly : ((Scheduler.new total).recover jobs).2.Orderly := orderly_recover jobs (orderly_new total)
  obtain ⟨rfl, -⟩ := horderly.sound.jobs id job hjob
  obtain ⟨-, -, hid⟩ := PersistedJob.sound_of_revive hrevive
  have hagain := PersistedJob.revive_persisted hrevive
  have hstatus : job.persisted.status.isTerminal = persisted.status.isTerminal :=
    congrArg JobStatus.isTerminal (PersistedJob.status_of_revive hrevive)
  obtain ⟨hcount, hfind, -⟩ :=
    @recover_of_revive (.new fresh) _ _ hagain rfl rfl hincomplete (hstatus.trans hopen)
  exact ⟨hcount, hfind, persisted, hmem, hid.symm, recover_eq_of_revive hrevive hagain hstatus⟩

-- A diamond of which the second task was running and the third one was recorded as paused,
-- although the job was not.
def keptDiamond : PersistedJob :=
  ⟨⟨0⟩, Board.diamond, .running, SortedMap.ofList [("a", .finished), ("b", .running), ("c", .paused)],
    SortedMap.ofList [("a", .success ⟨⟨0⟩, 0⟩ "")], SortedMap.ofList [("a", 1), ("b", 1)]⟩

theorem recovered_twice_diamond :
    ∃ job, ((Scheduler.new 2).recover [keptDiamond]).2.registry.find? ⟨0⟩ = some job ∧
      job.statuses = [.finished, .pending, .paused, .submitted] ∧
      job.board.snapshot = ⟨[⟨⟨0⟩, 1⟩], [], [⟨⟨0⟩, 2⟩], [0, 0, 0, 3], [2, 1, 2, 0]⟩ ∧
      ((Scheduler.new 1).recover [job.persisted]).1 = 1 ∧
      ((Scheduler.new 1).recover [job.persisted]).2.registry.find? ⟨0⟩ = some job := by
  have hrevive : ∃ job, keptDiamond.revive = .ok job ∧ job.id = ⟨0⟩ ∧ job.board.isComplete = false ∧
      job.statuses = [.finished, .pending, .paused, .submitted] ∧
      job.board.snapshot = ⟨[⟨⟨0⟩, 1⟩], [], [⟨⟨0⟩, 2⟩], [0, 0, 0, 3], [2, 1, 2, 0]⟩ := by
    rw [PersistedJob.revive, Board.rebuild]
    simp only [keptDiamond, Board.resolve_diamond]
    exact ⟨_, rfl, rfl, by decide +kernel, by decide +kernel, by decide +kernel⟩
  obtain ⟨job, hrevive, hid, hopen, hstatuses, hsnapshot⟩ := hrevive
  obtain ⟨-, hfind, -⟩ := @recover_of_revive (.new 2) _ _ hrevive rfl rfl (by simp [hopen]) rfl
  rw [hid] at hfind
  obtain ⟨hcount, hagain, -⟩ := recovered_twice 2 1 [keptDiamond] ⟨0⟩ job hfind
  exact ⟨job, hfind, hstatuses, hsnapshot, hcount, hagain⟩

end Scheduler

end JobScheduler
