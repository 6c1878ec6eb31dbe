import JobScheduler.Proofs.Job.Sound
import JobScheduler.Proofs.Scheduler.Handle

namespace JobScheduler

namespace Scheduler

def joined (scheduler : Scheduler) (job : LiveJob) : Scheduler :=
  { scheduler.admitted job (scheduler.registry.nextId + 1) with
    queue := scheduler.queue.refresh job.board }

theorem find?_joined (scheduler : Scheduler) (job : LiveJob) (id : JobId) :
    (scheduler.joined job).registry.find? id =
      if id = job.id then some job else scheduler.registry.find? id :=
  find?_admitted id

end Scheduler

namespace SchedulerM

open Scheduler

-- A submission that makes a job is accepted.
theorem submit_of_new {scheduler : Scheduler} {submission : Submission} {job : LiveJob}
    (h : LiveJob.new ⟨scheduler.registry.nextId⟩ submission = .ok job) :
    submit submission scheduler = .ok job.id (scheduler.joined job) := by
  have hsubmit : scheduler.registry.submit submission = .ok ((scheduler.joined job).registry, job) := by
    simp [Registry.submit, h, bind, Except.bind, pure, Except.pure, joined, admitted]
  simp only [submit, run_bind, run_get, hsubmit, run_set, run_pure]
  rfl

theorem submit_of_refused {scheduler : Scheduler} {submission : Submission} {fault : Fault}
    (h : LiveJob.new ⟨scheduler.registry.nextId⟩ submission = .error fault) :
    submit submission scheduler = .error fault scheduler := by
  have hsubmit : scheduler.registry.submit submission = .error fault := by
    simp [Registry.submit, h, bind, Except.bind]
  simp only [submit, run_bind, run_get, hsubmit, run_throw]

variable {scheduler : Scheduler} {terms : Terms}

theorem submit_proceeds (hnew : ∀ job : LiveJob, job.Coherent → terms.expected job)
    {submission : Submission} (hgiven : ∀ job, LiveJob.new ⟨scheduler.registry.nextId⟩ submission = .ok job →
      terms.given job.id) : Proceeds terms (do let _ ← submit submission; return []) scheduler := by
  cases hjob : LiveJob.new ⟨scheduler.registry.nextId⟩ submission with
  | error fault =>
      refine ⟨.error fault, scheduler, .refl scheduler, by simp, fun count => run_of_error ?_⟩
      have hsubmit : submit submission (scheduler.raise count) = .error fault (scheduler.raise count) :=
        submit_of_refused hjob
      rw [run_bind, hsubmit]
  | ok job =>
      have hfresh := LiveJob.fresh_of_new hjob
      refine ⟨.ok [], scheduler.joined job, ?_, by simp, fun count => run_of_ok ?_⟩
      · have hentry : terms.Admit job :=
          ⟨hfresh.sound, hfresh.load, hnew job hfresh.coherent, hgiven job hjob⟩
        exact (Leads.of_advance (.join hfresh.id hentry)).trans (.of_advance (.queue _))
      · have hsubmit : submit submission (scheduler.raise count) =
            .ok job.id ((scheduler.raise count).joined job) := submit_of_new hjob
        rw [run_bind, hsubmit]
        rfl

variable (hs : scheduler.Sound)
include hs

variable (id : JobId) {work : DeskM Fate}
  (hturns : ∀ job : LiveJob, job.Sound → job.id = id → DeskM.Turns (terms.resumed id) work job)
include hturns

theorem report_proceeds : Proceeds terms (report id work) scheduler := by
  cases hfind : scheduler.registry.find? id with
  | none =>
      refine ⟨.ok [], scheduler, .refl scheduler, by simp, fun count => ?_⟩
      have hraised : (scheduler.raise count).registry.find? id = none := hfind
      apply run_of_ok
      simp [report, run_bind, run_get, hraised, run_pure]
  | some job =>
      obtain ⟨rfl, hsound⟩ := hs.jobs id job hfind
      obtain ⟨answer, scheduler', hleads, hnone, hrun⟩ :=
        conclude_proceeds hs hfind terms (hturns job hsound rfl)
      refine ⟨answer, scheduler', hleads, hnone, fun count => ?_⟩
      have hraised : (scheduler.raise count).registry.find? job.id = some job := hfind
      rw [← hrun count, Scheduler.run, Scheduler.run]
      simp [report, run_bind, run_get, hraised]

theorem request_proceeds : Proceeds terms (request id work) scheduler := by
  cases hfind : scheduler.registry.find? id with
  | none =>
      refine ⟨.error (.jobNotFound id), scheduler, .refl scheduler, by simp, fun count => ?_⟩
      have hraised : (scheduler.raise count).registry.find? id = none := hfind
      apply run_of_error
      simp [request, run_bind, run_get, hraised, run_throw]
  | some job =>
      obtain ⟨rfl, hsound⟩ := hs.jobs id job hfind
      obtain ⟨answer, scheduler', hleads, hnone, hrun⟩ :=
        conclude_proceeds hs hfind terms (hturns job hsound rfl)
      refine ⟨answer, scheduler', hleads, hnone, fun count => ?_⟩
      have hraised : (scheduler.raise count).registry.find? job.id = some job := hfind
      rw [← hrun count, Scheduler.run, Scheduler.run]
      simp [request, run_bind, run_get, hraised]

omit hturns in
-- Every event is about one job or hands in a new one.
theorem handle_proceeds (hnew : ∀ job : LiveJob, job.Coherent → terms.expected job) (event : Event)
    (hgiven : ∀ submission job, event = .submitted submission →
      LiveJob.new ⟨scheduler.registry.nextId⟩ submission = .ok job → terms.given job.id)
    (hresumed : ∀ id, event = .resume id → terms.resumed id) :
    Proceeds terms (handle event) scheduler := by
  cases event with
  | submitted submission => exact submit_proceeds hnew fun job => hgiven submission job rfl
  | completed task result =>
      exact report_proceeds hs task.job fun job h _ => DeskM.taskCompleted_turns h task result
  | lost task => exact report_proceeds hs task.job fun job h _ => DeskM.taskLost_turns h task
  | pause id => exact request_proceeds hs id fun job h _ => DeskM.pauseJob_turns h
  | resume id =>
      refine request_proceeds hs id fun job h _ => ?_
      rw [hresumed id rfl]
      exact DeskM.resumeJob_turns h
  | kill id => exact request_proceeds hs id fun job h _ => DeskM.ends_turns h .killed
  | killTask task => exact request_proceeds hs task.job fun job h _ => DeskM.killTask_turns h task
  | restart task =>
      exact request_proceeds hs task.job fun job h hid => DeskM.restartInError_turns h task hid.symm
  | finish task =>
      exact request_proceeds hs task.job fun job h hid => DeskM.finishInError_turns h task hid.symm
  | priority id priority =>
      exact request_proceeds hs id fun job h _ => DeskM.changePriority_turns h priority
  | shutdown => exact ⟨.ok [], scheduler, .refl scheduler, by simp, fun _ => rfl⟩

end SchedulerM

end JobScheduler
