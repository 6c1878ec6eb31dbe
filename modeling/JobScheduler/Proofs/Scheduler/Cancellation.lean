import JobScheduler.Proofs.Job.Unspoiled
import JobScheduler.Proofs.Scheduler.Lasting
import JobScheduler.Proofs.Scheduler.Order

namespace JobScheduler

-- The job with this id ends canceled with its first failure if that was submitted.
def Law.cancelsOnError (id : JobId) : Law where
  live submission job := job.CarriesOut submission ∧
    (job.id = id → submission.cancelOnError → job.Unspoiled)
  ended submission summary := summary.id = id → submission.cancelOnError →
    .faulty ∈ summary.tasks.values → summary.status = .canceled

theorem LiveJob.CarriesOut.cancelOnError {job : LiveJob} {submission : Submission}
    (h : job.CarriesOut submission) : job.submission.cancelOnError = submission.cancelOnError := by
  rw [h.submitted]

theorem Law.lasts_cancelsOnError (id : JobId) : (Law.cancelsOnError id).Lasts where
  fresh hnew := ⟨LiveJob.carriesOut_of_new hnew, fun _ _ => LiveJob.unspoiled_of_new hnew⟩
  goesOn hs hlaw hwork hturn hrun := by
    have houtcome := LiveJob.outcome_of_work? hs hwork rfl hrun
    refine ⟨houtcome.carriesOut hs hlaw.1, fun hid hcancel => ?_⟩
    have hclean := hlaw.2 (hturn.advances.id.symm.trans hid) hcancel
    rcases hclean.outcome hs (hlaw.1.cancelOnError.trans hcancel) houtcome with hkept | ⟨cancelled, hends⟩
    · exact hkept
    · cases hends
  ends {_ _ _ _ _ _ _ _ status _} hs hlaw hwork hturn hrun hid hcancel hfaulty := by
    have houtcome := LiveJob.outcome_of_work? hs hwork rfl hrun
    have hclean := hlaw.2 (hturn.advances.id.symm.trans ((LiveJob.closing_id _ status).symm.trans hid)) hcancel
    rcases hclean.outcome hs (hlaw.1.cancelOnError.trans hcancel) houtcome with hkept | ⟨cancelled, hends⟩
    · exact absurd ((LiveJob.faulty_mem_closing hturn.advances.sound status).mp hfaulty) hkept.faulty
    · cases hends
      rfl
  served {_ job} hs hlaw accepts budget := by
    refine ⟨hlaw.1.keep (.of_undisturbed (job.undisturbed_served _)), fun hid hcancel => ?_⟩
    have hsame := (LiveJob.advances_served hs accepts budget).id
    exact (hlaw.2 (hsame.symm.trans hid) hcancel).served hs accepts budget

theorem Law.admits_cancelsOnError {id : JobId} {persisted : PersistedJob}
    (hunspoiled : persisted.id = id → persisted.Unspoiled) :
    (Law.cancelsOnError id).Admits persisted where
  live job hrevive hopen := by
    obtain ⟨-, -, hsame⟩ := PersistedJob.sound_of_revive hrevive
    refine ⟨PersistedJob.carriesOut_of_revive hrevive, fun hid hcancel => ?_⟩
    rcases hunspoiled (hsame.symm.trans hid) hcancel with hall | ⟨hfaulty, hinError⟩
    · exact absurd (PersistedJob.isComplete_of_revive hrevive hall) hopen
    · exact PersistedJob.unspoiled_of_revive hrevive hfaulty hinError
  ended job hrevive _ _ hcancel hfaulty := by
    obtain ⟨hs, -⟩ := PersistedJob.sound_of_revive hrevive
    have hmem := (LiveJob.faulty_mem_closing hs _).mp hfaulty
    have hcarries := PersistedJob.carriesOut_of_revive hrevive
    change PersistedJob.endStatus job = .canceled
    rw [PersistedJob.endStatus, hcarries.cancelOnError, hcancel, List.contains_iff_mem.mpr hmem]
    rfl

namespace Scheduler

-- Some task of the job is shown with the status, be it that the job has not ended or that
-- it has.
def Shows (scheduler : Scheduler) (id : JobId) (status : TaskStatus) : Prop :=
  (∃ job, scheduler.registry.find? id = some job ∧ status ∈ job.statuses) ∨
    ∃ summary, scheduler.registry.ended? id = some summary ∧ status ∈ summary.tasks.values

-- A job that is to end with its first failure has ended, canceled, at the moment at which a
-- task of it is shown as failed. None of its tasks is started from then on. Such a job may
-- not be installed from a record that was made after a failure, unless all was done by then,
-- and no job may be given the last id.
theorem canceled_of_faulty (total : Nat) {before : List Operation} {operation : Operation} {id : JobId}
    {submission : Submission} (hcancel : submission.cancelOnError)
    (haccepted : (id, submission) ∈ (Ledger.of total (before ++ [operation])).accepted)
    (hrecords : ∀ persisted ∈ (Scheduler.new total).gathered installed (before ++ [operation]),
      persisted.id = id → persisted.Unspoiled)
    (hlast : .last ∉ (Scheduler.new total).ids (before ++ [operation])) :
    let scheduler := (Scheduler.new total).reached before
    ∀ moment ∈ (Scheduler.new total).moments before ++ [scheduler.handled operation],
      moment.Shows id .faulty →
      ∃ summary, moment.registry.ended? id = some summary ∧ summary.status = .canceled ∧
        (scheduler.perform operation).2.registry.ended? id = some summary ∧
        ∀ assignment ∈ Command.started (scheduler.perform operation).1, assignment.task.job ≠ id := by
  intro scheduler moment hmoment hshows
  have hadmits (persisted : PersistedJob)
      (hmem : persisted ∈ (Scheduler.new total).gathered installed (before ++ [operation])) :
      (Law.cancelsOnError id).Admits persisted := Law.admits_cancelsOnError (hrecords persisted hmem)
  have hin : moment ∈ (Scheduler.new total).moments (before ++ [operation]) := by
    rw [moments_concat]
    refine List.mem_append.mpr ((List.mem_append.mp hmoment).imp_right fun hmid => ?_)
    rw [List.mem_singleton.mp hmid]
    exact List.mem_cons_self
  have hupholds := Ledger.upholds_of_moment total (Law.lasts_cancelsOnError id) hadmits hin
  have hnodup := (Ledger.settled_of hlast).balanced.nodup
  have hone {other : Submission} (hother : (id, other) ∈ (Ledger.of total (before ++ [operation])).accepted) :
      other = submission := congrArg Prod.snd (List.inj_on_of_nodup_map hnodup hother haccepted rfl)
  obtain ⟨hcounted, hleads⟩ := counted_to_handled hlast hmoment
  rcases hshows with ⟨job, hjob, hfaulty⟩ | ⟨summary, hended, hfaulty⟩
  · obtain ⟨other, hother, -, hclean⟩ := hupholds.live id job hjob
    rw [hone hother] at hclean
    exact absurd hfaulty (hclean (hcounted.jobs id job hjob).1 hcancel).faulty
  · obtain ⟨other, hother, hlaw⟩ := hupholds.ended id summary hended
    rw [hone hother] at hlaw
    have hperforms := performs_counting (sound_reached total before) (not_mem_ids_concat.mp hlast).2
    have hafter := hleads.trans hperforms.passes.leads
    refine ⟨summary, hended, hlaw (hupholds.filed id summary hended) hcancel hfaulty,
      hafter.ended?_of_some Terms.counting_not_last hcounted hended, fun assignment hassignment heq => ?_⟩
    obtain ⟨now, job, hnow, -, hjob, -⟩ := hperforms.passes.eligible assignment hassignment
    have hstarting := hleads.trans hnow
    have hnow' := (hstarting.counted Terms.counting_not_last hcounted).1
    have hapart := hnow'.apart id (by rw [← heq, hjob]; rfl)
    rw [hstarting.ended?_of_some Terms.counting_not_last hcounted hended] at hapart
    cases hapart

-- A release of which nothing is kept that has failed.
def strictRelease : Submission := { release with cancelOnError := true }

theorem resolve_strictRelease : strictRelease.resolve ⟨0⟩ = .ok (strictRelease.plan ⟨0⟩) :=
  resolve_of_graph strictRelease rfl rfl rfl rfl ⟨0⟩

theorem canceled_of_faulty_strictRelease :
    let before := [.submit strictRelease, .kickoff (.acceptAll false)]
    let operation := .step (.acceptAll false) (.completed ⟨⟨0⟩, 0⟩ (.failure ⟨⟨0⟩, 0⟩ "exit code 2"))
    let scheduler := (Scheduler.new 2).reached before
    let moment := scheduler.handled operation
    moment.Shows ⟨0⟩ .faulty ∧
      ∃ summary, moment.registry.ended? ⟨0⟩ = some summary ∧ summary.status = .canceled ∧
        (scheduler.perform operation).2.registry.ended? ⟨0⟩ = some summary ∧
        ∀ assignment ∈ Command.started (scheduler.perform operation).1, assignment.task.job ≠ ⟨0⟩ := by
  intro before operation scheduler moment
  have hreached : scheduler = ((Scheduler.new 2).planned strictRelease (strictRelease.plan ⟨0⟩)).reached
      [.kickoff (.acceptAll false)] := reached_submit (.new 2) resolve_strictRelease _
  have hvalues : (moment.registry.ended? ⟨0⟩).map (·.tasks.values) = some [.faulty, .aborted] := by
    simp only [moment, hreached]
    decide +kernel
  obtain ⟨summary, hended, hstatuses⟩ := Option.map_eq_some_iff.mp hvalues
  have hshows : moment.Shows ⟨0⟩ .faulty := .inr ⟨summary, hended, by simp [hstatuses]⟩
  have haccepted : (⟨0⟩, strictRelease) ∈ (Ledger.of 2 (before ++ [operation])).accepted := by
    have hnew : ∃ job, LiveJob.new ⟨0⟩ strictRelease = .ok job ∧ job.id = ⟨0⟩ := by
      rw [LiveJob.new, resolve_strictRelease]
      exact ⟨_, rfl, rfl⟩
    obtain ⟨job, hnew, hid⟩ := hnew
    exact hid ▸ Ledger.accepted_of_submit 2 hnew _
  have hrecords : ∀ persisted ∈ (Scheduler.new 2).gathered installed (before ++ [operation]),
      persisted.id = ⟨0⟩ → persisted.Unspoiled := by
    rw [gathered_installed_of_submits (by simp [before, operation, Operation.isRecovery])]
    exact List.forall_mem_nil _
  have hlast : .last ∉ (Scheduler.new 2).ids (before ++ [operation]) :=
    last_not_mem_ids 2 0 (by simp [before, operation]) (by decide)
  exact ⟨hshows, canceled_of_faulty 2 (show strictRelease.cancelOnError from rfl) haccepted hrecords hlast
    moment     (List.mem_append_right _ (List.mem_singleton.mpr rfl)) hshows⟩

-- What was kept of it after its first task had failed and before the job had ended.
def keptStrictRelease : PersistedJob :=
  ⟨⟨0⟩, strictRelease, .running, SortedMap.ofList [("a", .faulty)], SortedMap.empty, SortedMap.empty⟩

-- A job that is recovered after its first failure goes on, and ends as if it had done well.
theorem finished_of_recovered_strictRelease :
    let before := [.recover [keptStrictRelease]]
    let operation := .kickoff (.acceptAll false)
    let report := .step (.acceptAll false) (.completed ⟨⟨0⟩, 1⟩ (.success ⟨⟨0⟩, 1⟩ ""))
    let scheduler := (Scheduler.new 2).reached before
    scheduler.Shows ⟨0⟩ .faulty ∧
      Command.started (scheduler.perform operation).1 = [⟨⟨⟨0⟩, 1⟩, "release", "b", "make test", 1, 1⟩] ∧
      ∃ summary, (scheduler.reached [operation, report]).registry.ended? ⟨0⟩ = some summary ∧
        .faulty ∈ summary.tasks.values ∧ summary.status = .finished := by
  intro before operation report scheduler
  have hrevive : ∃ job, keptStrictRelease.revive = .ok job ∧ job.id = ⟨0⟩ ∧
      job.board.isComplete = false ∧ .faulty ∈ job.statuses ∧
      (let scheduler : Scheduler :=
        { (Scheduler.new 2).readmitted job with queue := ReadyQueue.empty.refresh job.board }
      Command.started (scheduler.perform operation).1 = [⟨⟨⟨0⟩, 1⟩, "release", "b", "make test", 1, 1⟩] ∧
        ((scheduler.reached [operation, report]).registry.ended? ⟨0⟩).map (fun summary =>
          (summary.tasks.values, summary.status)) = some ([.faulty, .finished], .finished)) := by
    rw [PersistedJob.revive, Board.rebuild]
    simp only [keptStrictRelease, resolve_strictRelease]
    exact ⟨_, rfl, rfl, by decide +kernel, by decide +kernel, by decide +kernel, by decide +kernel⟩
  obtain ⟨job, hrevive, hid, hopen, hfaulty, hstarted, hended⟩ := hrevive
  have hrecover : ((Scheduler.new 2).recover [keptStrictRelease]).2 = _ := congrArg Prod.snd
    (SchedulerM.recover_of_open hrevive rfl rfl (by simp [hopen]) rfl)
  have hscheduler : scheduler = { (Scheduler.new 2).readmitted job with
      queue := ReadyQueue.empty.refresh job.board } := hrecover
  have hjob : scheduler.registry.find? ⟨0⟩ = some job := by
    rw [hscheduler, ← hid]
    exact ((Scheduler.new 2).find?_readmitted job job.id).trans (if_pos rfl)
  rw [← hscheduler] at hstarted hended
  obtain ⟨summary, hsummary, hboth⟩ := Option.map_eq_some_iff.mp hended
  obtain ⟨hvalues, hstatus⟩ := Prod.mk.inj hboth
  exact ⟨.inl ⟨job, hjob, hfaulty⟩, hstarted, summary, hsummary, by simp [hvalues], hstatus⟩

end Scheduler

end JobScheduler
