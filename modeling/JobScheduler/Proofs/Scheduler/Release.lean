import JobScheduler.Proofs.Job.Release
import JobScheduler.Proofs.Scheduler.Crash
import JobScheduler.Proofs.Scheduler.Lasting
import JobScheduler.Proofs.Scheduler.Rejection

namespace JobScheduler

-- The marks of a job tell which of its results nobody waits for any more, those apart that
-- have been lost. Its record tells the same.
def Law.releases (lost : String → Prop) : Law where
  live submission job := job.CarriesOut submission ∧ job.Marks lost
  ended submission summary := ∀ name,
    summary.results.isReleased name ↔ submission.Spent summary.HasDone name ∧ ¬lost name

theorem Law.endures_releases (lost : String → Prop) : (Law.releases lost).Endures where
  goesOn hs hlaw hwork hturn hrun := by
    have houtcome := LiveJob.outcome_of_work? hs hwork rfl hrun
    exact ⟨houtcome.carriesOut hs hlaw.1, houtcome.marks hlaw.2 hs hturn.advances⟩
  ends {_ _ _ _ _ _ _ _ status _} hs hlaw hwork hturn hrun name := by
    have houtcome := LiveJob.outcome_of_work? hs hwork rfl hrun
    have hmarks := houtcome.marks hlaw.2 hs hturn.advances
    have htasks := (houtcome.carriesOut hs hlaw.1).tasks
    rw [hmarks.closing hturn.advances.sound status name]
    exact and_congr_left' (Submission.spent_congr htasks fun _ => Iff.rfl)
  served {_ job} hs hlaw accepts budget :=
    ⟨hlaw.1.keep (.of_undisturbed (job.undisturbed_served _)), hlaw.2.served hs accepts budget⟩

theorem Law.lasts_releases : (Law.releases fun _ => False).Lasts where
  toEndures := Law.endures_releases _
  fresh hnew := ⟨LiveJob.carriesOut_of_new hnew, LiveJob.marks_of_new hnew⟩

-- What was running and is put back has not terminated.
theorem LiveJob.Loses.spent_iff {job lost : LiveJob} (h : job.Loses job.board.running.toList lost)
    (hs : job.Sound) (name : String) : lost.Spent name ↔ job.Spent name := by
  have hdone (id : TaskId) : lost.board.placeOf id = .ok .done ↔ job.board.placeOf id = .ok .done := by
    rw [h.place]
    split
    · rename_i hrunning
      rw [hs.board.partitioned.mem_running_iff.mp hrunning]
      cases job.isHeld <;> simp
    · rfl
  have htasks : lost.submission.tasks = job.submission.tasks := congrArg Submission.tasks h.submission
  exact Submission.spent_congr htasks (hasDone_congr hs h.sound h.same.job htasks hdone)

namespace Scheduler

theorem upholds_releases (total : Nat) {operations : List Operation}
    (h : ∀ operation ∈ operations, operation.isRecovery = false) {moment : Scheduler}
    (hmoment : moment ∈ (Scheduler.new total).moments operations) :
    moment.registry.Upholds (Law.releases fun _ => False) (Ledger.of total operations).accepted := by
  exact Ledger.upholds_of_moment total Law.lasts_releases (by simp [gathered_installed_of_submits h]) hmoment

-- As long as nothing is recovered, a result is marked as soon as nobody waits for it any
-- more, and not before, and the record of an ended job says so.
theorem released_iff_spent (total : Nat) {operations : List Operation}
    (h : ∀ operation ∈ operations, operation.isRecovery = false) :
    let ledger := Ledger.of total operations
    (∀ moment ∈ (Scheduler.new total).moments operations,
      ∀ id job, moment.registry.find? id = some job →
        ∃ submission, (id, submission) ∈ ledger.accepted ∧
          ∀ name, job.results.isReleased name ↔ submission.Spent job.HasDone name) ∧
    ∀ summary ∈ Command.records (ledger.given ++ ledger.scheduler.pending),
      ∃ submission, (summary.id, submission) ∈ ledger.accepted ∧
        ∀ name, summary.results.isReleased name ↔ submission.Spent summary.HasDone name := by
  intro ledger
  refine ⟨fun moment hmoment id job hjob => ?_, fun summary hsummary => ?_⟩
  · obtain ⟨submission, hmem, hcarries, hmarks⟩ := (upholds_releases total h hmoment).live id job hjob
    refine ⟨submission, hmem, fun name => ?_⟩
    have hspent : job.Spent name ↔ submission.Spent job.HasDone name :=
      Submission.spent_congr hcarries.tasks fun _ => Iff.rfl
    rw [hmarks.released, hspent, not_false_eq_true, and_true]
  · obtain ⟨submission, hmem, hlaw⟩ := Ledger.upholds_records total Law.lasts_releases
      (by simp [gathered_installed_of_submits h]) summary hsummary
    refine ⟨submission, hmem, fun name => (hlaw name).trans ?_⟩
    rw [not_false_eq_true, and_true]

-- A run of the diamond up to the last task.
def diamondRun : List Operation :=
  let reported (index : Nat) : Operation :=
    .step (.acceptAll false) (.completed ⟨⟨0⟩, index⟩ (.success ⟨⟨0⟩, index⟩ ""))
  [.submit Board.diamond, .kickoff (.acceptAll false), reported 0, reported 1, reported 2]

theorem reached_diamondRun (rest : List Operation) :
    (Scheduler.new 2).reached (diamondRun ++ rest) =
      ((Scheduler.new 2).planned Board.diamond (Board.diamond.plan ⟨0⟩)).reached (diamondRun.tail ++ rest) :=
  reached_submit (.new 2) Board.resolve_diamond _

theorem diamondRun_submits : ∀ operation ∈ diamondRun, operation.isRecovery = false := by
  decide

-- The last task still waits for the two in the middle, but nobody does for the first.
theorem exists_reached_diamondRun :
    ∃ job, ((Scheduler.new 2).reached diamondRun).registry.find? ⟨0⟩ = some job ∧
      job.statuses = [.finished, .finished, .finished, .running] ∧
      job.results.released.toList = ["a"] := by
  have hshown : (((Scheduler.new 2).reached diamondRun).registry.find? ⟨0⟩).map (fun job =>
      (job.statuses, job.results.released.toList)) =
      some ([.finished, .finished, .finished, .running], ["a"]) := by
    rw [← List.append_nil diamondRun, reached_diamondRun]
    decide +kernel
  obtain ⟨job, hjob, hshown⟩ := Option.map_eq_some_iff.mp hshown
  exact ⟨job, hjob, Prod.mk.inj hshown⟩

theorem released_iff_spent_diamond :
    let ledger := Ledger.of 2 (diamondRun ++ [.step (.acceptAll false) (.kill ⟨0⟩)])
    (∃ job, ((Scheduler.new 2).reached diamondRun).registry.find? ⟨0⟩ = some job ∧
      job.results.released.toList = ["a"] ∧
      ∃ submission, (⟨0⟩, submission) ∈ ledger.accepted ∧
        ∀ name, job.results.isReleased name ↔ submission.Spent job.HasDone name) ∧
    ∃ summary ∈ Command.records (ledger.given ++ ledger.scheduler.pending),
      summary.tasks.values = [.finished, .finished, .finished, .aborted] ∧
      summary.results.released.toList = ["a"] ∧
      ∃ submission, (summary.id, submission) ∈ ledger.accepted ∧
        ∀ name, summary.results.isReleased name ↔ submission.Spent summary.HasDone name := by
  intro ledger
  have hsubmits : ∀ operation ∈ diamondRun ++ [.step (.acceptAll false) (.kill ⟨0⟩)],
      operation.isRecovery = false := by
    decide
  obtain ⟨hlive, hended⟩ := released_iff_spent 2 hsubmits
  refine ⟨?_, ?_⟩
  · obtain ⟨job, hjob, -, hreleased⟩ := exists_reached_diamondRun
    refine ⟨job, hjob, hreleased, hlive _ ?_ ⟨0⟩ job hjob⟩
    rw [moments_concat]
    exact List.mem_append_left _ (reached_mem_moments _ _)
  · have hshown : (ledger.scheduler.registry.ended? ⟨0⟩).map (fun summary =>
        (summary.id, summary.tasks.values, summary.results.released.toList)) =
        some (⟨0⟩, [.finished, .finished, .finished, .aborted], ["a"]) := by
      rw [Ledger.scheduler_of, reached_diamondRun]
      decide +kernel
    obtain ⟨summary, hsummary, hshown⟩ := Option.map_eq_some_iff.mp hshown
    obtain ⟨hid, hshown⟩ := Prod.mk.inj hshown
    obtain ⟨hvalues, hreleased⟩ := Prod.mk.inj hshown
    rw [← hid] at hsummary
    have hlast : .last ∉ (Scheduler.new 2).ids (diamondRun ++ [.step (.acceptAll false) (.kill ⟨0⟩)]) :=
      last_not_mem_ids 2 0 (by simp [diamondRun]) (by decide)
    have hrecorded : summary ∈ Command.records (ledger.given ++ ledger.scheduler.pending) :=
      ((Ledger.settled_of hlast).balanced.recorded summary).mpr hsummary
    exact ⟨summary, hrecorded, hvalues, hreleased, hended summary hrecorded⟩

section Recovered

variable (total : Nat) {operations : List Operation}
  (h : ∀ operation ∈ operations, operation.isRecovery = false)
include h

theorem isReleased_reached {id : JobId} {job : LiveJob}
    (hjob : ((Scheduler.new total).reached operations).registry.find? id = some job) (name : String) :
    job.results.isReleased name ↔ job.Spent name := by
  obtain ⟨_, -, -, hmarks⟩ := (upholds_releases total h (reached_mem_moments _ _)).live id job hjob
  rw [hmarks.released, not_false_eq_true, and_true]

theorem exists_recovered (fresh : Nat) {id : JobId} {job : LiveJob}
    (hjob : ((Scheduler.new total).reached operations).registry.find? id = some job) :
    ∃ revived, job.persisted.revive = .ok revived ∧ (∀ name, revived.Spent name ↔ job.Spent name) ∧
      ((Scheduler.new fresh).recover [job.persisted]).1 = 1 ∧
      ((Scheduler.new fresh).recover [job.persisted]).2.registry.find? id = some revived ∧
      ((Scheduler.new fresh).recover [job.persisted]).2.registry.ended? id = none := by
  have horderly := orderly_reached total operations
  obtain ⟨rfl, hs⟩ := horderly.sound.jobs id job hjob
  have hc : job.Coherent := coherent_reached total h job.id job hjob
  obtain ⟨submission, hcarries⟩ := Ledger.carriesOut_reached total operations hjob
  obtain ⟨revived, hrevive, hloses⟩ := LiveJob.exists_revive hs hc hcarries
  have hid : revived.id = job.id := hloses.same.job
  have hopen := hloses.not_isComplete hs (horderly.ordered.incomplete job.id job hjob)
  obtain ⟨hcount, hfind, hopen⟩ := @recover_of_revive (.new fresh) _ _ hrevive rfl rfl hopen hc.live
  exact ⟨revived, hrevive, hloses.spent_iff hs, hcount, hid ▸ hfind, hid ▸ hopen⟩

end Recovered

-- The marks are not among what is kept of a job. A result that nobody waits for any more
-- when a job is persisted is not marked when it is recovered, and never will be. All others
-- are marked in time, as long as the id of the job is not given again.
theorem marks_lost_by_recovery (total fresh : Nat) {operations : List Operation}
    (h : ∀ operation ∈ operations, operation.isRecovery = false) :
    let scheduler := (Scheduler.new total).reached operations
    ∀ id job, scheduler.registry.find? id = some job →
      let recovered := (Scheduler.new fresh).recover [job.persisted]
      ∃ revived, recovered.1 = 1 ∧ recovered.2.registry.find? id = some revived ∧
        (∀ name, job.results.isReleased name ↔ job.Spent name) ∧
        (∀ name, revived.Spent name ↔ job.Spent name) ∧
        (∀ name, (revived.results.isReleased name ↔ job.results.isReleased name) ↔ ¬job.Spent name) ∧
        ∀ later, id ∉ recovered.2.ids later → ∀ moment ∈ recovered.2.moments later,
          moment.Obeys (Law.releases job.Spent) id job.submission := by
  intro scheduler id job hjob recovered
  obtain ⟨revived, hrevive, hspent, hcount, hfind, hopen⟩ := exists_recovered total h fresh hjob
  have hmarked := isReleased_reached total h hjob
  obtain ⟨-, hmarks⟩ := PersistedJob.marks_of_revive hrevive
  have hlost : revived.Marks job.Spent := by
    rwa [funext fun name => propext (hspent name)] at hmarks
  refine ⟨revived, hcount, hfind, hmarked, hspent, fun name => ?_, fun later hgone moment hmoment => ?_⟩
  · rw [hmarked, hlost.released, hspent, and_not_self_iff, false_iff]
  · have hlaw : (Law.releases job.Spent).live job.submission revived :=
      ⟨PersistedJob.carriesOut_of_revive hrevive, hlost⟩
    have horderly : recovered.2.Orderly := orderly_recover [job.persisted] (orderly_new fresh)
    have hstands : recovered.2.Stands (Law.releases job.Spent) id job.submission :=
      .inl ⟨revived, hfind, hopen, hlaw⟩
    exact hstands.moment horderly.sound (Law.endures_releases job.Spent) hgone hmoment

theorem marks_lost_by_recovery_diamond :
    ∃ job revived, ((Scheduler.new 2).reached diamondRun).registry.find? ⟨0⟩ = some job ∧
      let recovered := (Scheduler.new 1).recover [job.persisted]
      recovered.1 = 1 ∧ recovered.2.registry.find? ⟨0⟩ = some revived ∧ revived.Spent "a" ∧
        ¬(revived.results.isReleased "a" ↔ job.results.isReleased "a") ∧
        (revived.results.isReleased "b" ↔ job.results.isReleased "b") ∧
        ∀ later, ⟨0⟩ ∉ recovered.2.ids later → ∀ moment ∈ recovered.2.moments later,
          moment.Obeys (Law.releases job.Spent) ⟨0⟩ job.submission := by
  obtain ⟨job, hjob, -, hreleased⟩ := exists_reached_diamondRun
  obtain ⟨revived, hcount, hfind, hmarked, hspent, hkept, hlater⟩ :=
    marks_lost_by_recovery 2 1 diamondRun_submits ⟨0⟩ job hjob
  have hname (name : String) : job.Spent name ↔ name = "a" := by
    rw [← hmarked, JobResult.isReleased, ← SortedSet.mem_toList_iff, hreleased, List.mem_singleton]
  have hfirst : job.Spent "a" := (hname "a").mpr rfl
  have hsecond : ¬job.Spent "b" := by
    rw [hname]
    decide
  exact ⟨job, revived, hjob, hcount, hfind, (hspent "a").mpr hfirst, fun hsame => (hkept "a").mp hsame hfirst,
    (hkept "b").mpr hsecond, hlater⟩

-- The first task has terminated, and nothing waits for it, in the recovered job as well.
-- Its mark is gone.
theorem unmarked_of_recovered_diamond :
    ∃ job revived, ((Scheduler.new 2).reached diamondRun).registry.find? ⟨0⟩ = some job ∧
      ((Scheduler.new 1).recover [job.persisted]).1 = 1 ∧
      ((Scheduler.new 1).recover [job.persisted]).2.registry.find? ⟨0⟩ = some revived ∧
      job.Spent "a" ∧ job.results.isReleased "a" ∧ revived.Spent "a" ∧ ¬revived.results.isReleased "a" := by
  obtain ⟨job, hjob, -, hreleased⟩ := exists_reached_diamondRun
  obtain ⟨revived, hrevive, hspent, hcount, hfind, -⟩ := exists_recovered 2 diamondRun_submits 1 hjob
  obtain ⟨hnone, -⟩ := PersistedJob.marks_of_revive hrevive
  have hmark : job.results.isReleased "a" := by
    rw [JobResult.isReleased, ← SortedSet.mem_toList_iff, hreleased, List.mem_singleton]
  have hown := (isReleased_reached 2 diamondRun_submits hjob "a").mp hmark
  refine ⟨job, revived, hjob, hcount, hfind, hown, hmark, (hspent "a").mpr hown, ?_⟩
  rw [JobResult.isReleased, hnone]
  exact Bool.false_ne_true

end Scheduler

end JobScheduler
