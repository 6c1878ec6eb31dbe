import JobScheduler.Proofs.Job.Revive
import JobScheduler.Proofs.Scheduler.Handle

namespace JobScheduler

theorem Registry.insertRecovered_eq_ok_iff {registry registry' : Registry} {job : LiveJob} :
    registry.insertRecovered job = .ok registry' ↔
      registry.find? job.id = none ∧ registry.ended? job.id = none ∧
        registry' = { registry.put job with nextId := max registry.nextId (job.id.number + 1) } := by
  have hfree : (registry.live.contains job.id || registry.ended.contains job.id) = false ↔
      registry.find? job.id = none ∧ registry.ended? job.id = none := by
    simp only [SortedMap.contains, Bool.or_eq_false_iff, Option.isSome_eq_false_iff,
      Option.isNone_iff_eq_none]
    exact Iff.rfl
  rw [← and_assoc, ← hfree, insertRecovered]
  split
  · rename_i hused
    simp [hused]
  · rename_i hnot
    rw [Except.ok.injEq]
    exact ⟨fun h => ⟨Bool.eq_false_iff.mpr hnot, h.symm⟩, fun h => h.2.symm⟩

namespace Scheduler

-- The persisted jobs that a recovery counts as taken in.
def recovered (scheduler : Scheduler) : List PersistedJob → List PersistedJob
  | [] => []
  | persisted :: rest =>
      let (count, next) := recoverOne (0, scheduler) persisted
      List.replicate count persisted ++ next.recovered rest

-- All that a persisted job may come to. One that is complete ends at once, and its record
-- is held back for the next step.
inductive Revival (scheduler : Scheduler) (persisted : PersistedJob) : Except Fault Unit → Scheduler → Prop
  | refused {fault} : Revival scheduler persisted (.error fault) scheduler
  | goesOn {job} : persisted.revive = .ok job →
      scheduler.registry.find? job.id = none → scheduler.registry.ended? job.id = none →
      ¬job.board.isComplete →
      Revival scheduler persisted (.ok ())
        { scheduler.readmitted job with queue := scheduler.queue.refresh job.board }
  | ends {job} : persisted.revive = .ok job →
      scheduler.registry.find? job.id = none → scheduler.registry.ended? job.id = none →
      job.board.isComplete →
      Revival scheduler persisted (.ok ())
        { (scheduler.readmitted job).retired job (job.closing (PersistedJob.endStatus job)) with
          queue := scheduler.queue.remove job.id
          pending := scheduler.pending ++ (Command.cancelling job.board.running.toList ++
            [.ended (job.closing (PersistedJob.endStatus job))]) }

theorem find?_readmitted (scheduler : Scheduler) (job : LiveJob) (id : JobId) :
    (scheduler.readmitted job).registry.find? id =
      if id = job.id then some job else scheduler.registry.find? id :=
  find?_admitted id

theorem find?_readmitted_retired (scheduler : Scheduler) (job : LiveJob) (status : JobStatus) (id : JobId) :
    ((scheduler.readmitted job).retired job (job.closing status)).registry.find? id =
      if id = job.id then none else scheduler.registry.find? id := by
  rw [retired, Registry.find?_drop_record, find?_readmitted]
  split <;> rfl

-- What is live after a recovery was so before, or is the job that was recovered.
theorem Revival.origin {scheduler final : Scheduler} {persisted : PersistedJob} {answer : Except Fault Unit}
    (h : scheduler.Revival persisted answer final) {id : JobId} {job : LiveJob}
    (hjob : final.registry.find? id = some job) :
    scheduler.registry.find? id = some job ∨ persisted.revive = .ok job := by
  cases h with
  | refused => exact .inl hjob
  | @goesOn revived hrevive =>
      have hfind := hjob.symm.trans (scheduler.find?_readmitted revived id)
      split at hfind
      · exact .inr (Option.some.inj hfind ▸ hrevive)
      · exact .inl hfind.symm
  | @ends revived =>
      have hfind := hjob.symm.trans (scheduler.find?_readmitted_retired revived _ id)
      split at hfind
      · cases hfind
      · exact .inl hfind.symm

theorem Sound.readmitted {scheduler : Scheduler} (hs : scheduler.Sound) {persisted : PersistedJob}
    {job : LiveJob} (hrevive : persisted.revive = .ok job) : (scheduler.readmitted job).Sound := by
  obtain ⟨hsound, hload, -⟩ := PersistedJob.sound_of_revive hrevive
  exact hs.admitted hsound hload

-- A job that was taken in leads on, also where it ends at once and its record waits for the
-- next step.
theorem Revival.leads {scheduler : Scheduler} (hs : scheduler.Sound) {terms : Terms}
    (hany : ∀ job : LiveJob, job.Sound → terms.expected job) {persisted : PersistedJob}
    {answer : Except Fault Unit} (hgiven : answer.isOk → terms.given persisted.id) {final : Scheduler}
    (h : scheduler.Revival persisted answer final) : Leads terms scheduler final := by
  have hrejoins {job : LiveJob} (hrevive : persisted.revive = .ok job)
      (hlive : scheduler.registry.find? job.id = none)
      (hended : scheduler.registry.ended? job.id = none) (hgiven : terms.given persisted.id) :
      Leads terms scheduler (scheduler.readmitted job) := by
    obtain ⟨hsound, hload, hid⟩ := PersistedJob.sound_of_revive hrevive
    exact .of_advance (.rejoin hlive hended ⟨hsound, hload, hany job hsound, hid.symm ▸ hgiven⟩)
  cases h with
  | refused => exact .refl scheduler
  | @goesOn job hrevive hlive hended _ =>
      exact (hrejoins hrevive hlive hended (hgiven rfl)).trans
        (.of_advance (.queue (scheduler.queue.refresh job.board)))
  | @ends job hrevive hlive hended _ =>
      have hfind := (scheduler.find?_readmitted job job.id).trans (if_pos rfl)
      refine ((hrejoins hrevive hlive hended (hgiven rfl)).trans (leads_endJob hfind _ terms)).trans
        (.of_advance (.pending fun command hcommand => ?_))
      rcases List.mem_append.mp hcommand with hcommand | hcommand
      · exact hs.pending command hcommand
      · rcases List.mem_append.mp hcommand with hcommand | hcommand
        · exact Command.assignments_cancelling _ command hcommand
        · rw [List.mem_singleton.mp hcommand]
          rfl

end Scheduler

namespace SchedulerM

open Scheduler

variable {scheduler : Scheduler}

section RecoverJob

variable {persisted : PersistedJob}

theorem recoverJob_of_refused {fault : Fault}
    (h : persisted.revive >>= scheduler.registry.insertRecovered = .error fault) :
    recoverJob persisted scheduler = .error fault scheduler := by
  cases hrevive : persisted.revive with
  | error fault' =>
      rw [hrevive] at h
      cases h
      simp only [recoverJob, run_bind, run_get, hrevive, run_throw]
  | ok job =>
      have hinsert : scheduler.registry.insertRecovered job = .error fault := by
        rwa [hrevive] at h
      simp only [recoverJob, run_bind, run_get, hrevive, hinsert, run_throw]

variable {job : LiveJob} (hrevive : persisted.revive = .ok job)
  (hlive : scheduler.registry.find? job.id = none)
  (hended : scheduler.registry.ended? job.id = none)
include hrevive hlive hended

-- A persisted job under a free id that is not complete goes on.
theorem recoverJob_of_open (hopen : ¬job.board.isComplete) :
    recoverJob persisted scheduler =
      .ok () { scheduler.readmitted job with queue := scheduler.queue.refresh job.board } := by
  have hinsert : scheduler.registry.insertRecovered job = .ok (scheduler.readmitted job).registry :=
    Registry.insertRecovered_eq_ok_iff.mpr ⟨hlive, hended, rfl⟩
  have hadmitted : { scheduler with registry := (scheduler.readmitted job).registry } =
      scheduler.readmitted job := rfl
  have hfind := (scheduler.find?_readmitted job job.id).trans (if_pos rfl)
  simp only [recoverJob, run_bind, run_get, hrevive, hinsert, run_set, if_neg hopen, run_modify,
    hadmitted, refreshQueue, hfind]
  rfl

-- One that is complete is taken in only to end.
theorem recoverJob_of_complete (hcomplete : job.board.isComplete) :
    let ended := (scheduler.readmitted job).endJob job.id (PersistedJob.endStatus job)
    recoverJob persisted scheduler = .ok () { ended.1 with pending := ended.1.pending ++ ended.2 } := by
  have hinsert : scheduler.registry.insertRecovered job = .ok (scheduler.readmitted job).registry :=
    Registry.insertRecovered_eq_ok_iff.mpr ⟨hlive, hended, rfl⟩
  simp only [recoverJob, run_bind, run_get, hrevive, hinsert, run_set, if_pos hcomplete]
  rfl

-- A recovery of this one job takes it in.
theorem recover_of_open (hopen : ¬job.board.isComplete) (hterminal : persisted.status.isTerminal = false) :
    scheduler.recover [persisted] =
      (1, { scheduler.readmitted job with queue := scheduler.queue.refresh job.board }) := by
  rw [recover, List.foldl_cons, List.foldl_nil, recoverOne, if_neg (by simp [hterminal]),
    recoverJob_of_open hrevive hlive hended hopen]

end RecoverJob

variable (hs : scheduler.Sound)
include hs

-- A persisted job goes on or ends, or it is refused, and a higher limit for the slots that
-- may be given back makes no difference.
theorem revives_recoverJob (persisted : PersistedJob) :
    ∃ answer final, scheduler.Revival persisted answer final ∧
      ∀ count, (scheduler.raise count).run (recoverJob persisted) = (answer, final.raise count) := by
  cases hinstall : persisted.revive >>= scheduler.registry.insertRecovered with
  | error fault =>
      exact ⟨.error fault, scheduler, .refused, fun count => run_of_error (recoverJob_of_refused hinstall)⟩
  | ok registry =>
      obtain ⟨job, hrevive, hinsert⟩ := bind_eq_ok_iff.mp hinstall
      obtain ⟨hlive, hended, -⟩ := Registry.insertRecovered_eq_ok_iff.mp hinsert
      by_cases hcomplete : job.board.isComplete
      · refine ⟨.ok (), _, .ends hrevive hlive hended hcomplete, fun count => run_of_ok ?_⟩
        have hfind := (scheduler.find?_readmitted job job.id).trans (if_pos rfl)
        have hend := endJob_eq hfind (PersistedJob.endStatus job) (hs.readmitted hrevive) count
        have hrun : recoverJob persisted (scheduler.raise count) = _ :=
          recoverJob_of_complete hrevive hlive hended hcomplete
        have hraised : (scheduler.raise count).readmitted job = (scheduler.readmitted job).raise count := rfl
        rw [hrun, hraised, hend]
        rfl
      · exact ⟨.ok (), _, .goesOn hrevive hlive hended hcomplete, fun count =>
          run_of_ok (recoverJob_of_open hrevive hlive hended hcomplete)⟩

-- One persisted job is passed over or revived, and counts if it was revived.
theorem revives_recoverOne (persisted : PersistedJob) :
    (persisted.status.isTerminal ∧ ∀ progress, recoverOne progress persisted = progress) ∨
      persisted.status.isTerminal = false ∧ ∃ answer final, scheduler.Revival persisted answer final ∧
        ∀ before count, recoverOne (before, scheduler.raise count) persisted =
          (before + if answer.isOk then 1 else 0, final.raise count) := by
  by_cases hterminal : persisted.status.isTerminal
  · exact .inl ⟨hterminal, fun _ => if_pos hterminal⟩
  · obtain ⟨answer, final, hrevival, hrun⟩ := revives_recoverJob hs persisted
    refine .inr ⟨Bool.eq_false_iff.mpr hterminal, answer, final, hrevival, fun before count => ?_⟩
    have hone := hrun count
    rw [recoverOne, if_neg hterminal]
    rw [Scheduler.run] at hone
    cases hwork : recoverJob persisted (scheduler.raise count) <;> rw [hwork] at hone <;>
      cases hone <;> rfl

theorem revival_recoverOne (persisted : PersistedJob) :
    (persisted.status.isTerminal ∧ ∀ progress, recoverOne progress persisted = progress) ∨
      persisted.status.isTerminal = false ∧ ∃ answer final, scheduler.Revival persisted answer final ∧
        ∀ before, recoverOne (before, scheduler) persisted =
          (before + if answer.isOk then 1 else 0, final) := by
  refine (revives_recoverOne hs persisted).imp_right fun ⟨hopen, answer, final, hrevival, hrun⟩ =>
    ⟨hopen, answer, final, hrevival, fun before => ?_⟩
  have hone := hrun before 0
  rwa [raise_zero, raise_zero] at hone

variable {terms : Terms} (hany : ∀ job : LiveJob, job.Sound → terms.expected job)
include hany

theorem leads_recoverOne (persisted : PersistedJob)
    (hgiven : (recoverOne (0, scheduler) persisted).1 ≠ 0 → terms.given persisted.id) :
    Leads terms scheduler (recoverOne (0, scheduler) persisted).2 ∧ ∀ before count,
      recoverOne (before, scheduler.raise count) persisted =
        (before + (recoverOne (0, scheduler) persisted).1,
          (recoverOne (0, scheduler) persisted).2.raise count) := by
  rcases revives_recoverOne hs persisted with ⟨-, hpassed⟩ | ⟨-, answer, final, hrevival, hone⟩
  · rw [hpassed]
    exact ⟨.refl scheduler, fun _ _ => hpassed _⟩
  · have hfirst := hone 0 0
    rw [raise_zero, raise_zero, Nat.zero_add] at hfirst
    rw [hfirst] at hgiven ⊢
    exact ⟨hrevival.leads hs hany fun hok => hgiven (by simp [hok]), hone⟩

-- Recovery takes in job after job.
theorem leads_recover (jobs : List PersistedJob)
    (hgiven : ∀ taken ∈ scheduler.recovered jobs, terms.given taken.id) :
    ∃ accepted scheduler', Leads terms scheduler scheduler' ∧ ∀ count,
      (scheduler.raise count).recover jobs = (accepted, scheduler'.raise count) := by
  suffices hall : ∃ accepted scheduler', Leads terms scheduler scheduler' ∧ ∀ before count,
      jobs.foldl recoverOne (before, scheduler.raise count) =
        (before + accepted, scheduler'.raise count) by
    obtain ⟨accepted, scheduler', hleads, hfold⟩ := hall
    exact ⟨0 + accepted, scheduler', hleads, hfold 0⟩
  induction jobs generalizing scheduler with
  | nil => exact ⟨0, scheduler, .refl scheduler, fun _ _ => rfl⟩
  | cons first rest ih =>
      obtain ⟨hone, hlater⟩ := List.forall_mem_append.mp hgiven
      obtain ⟨hfirst, hcount⟩ := leads_recoverOne hs hany first fun htaken =>
        hone first (List.mem_replicate.mpr ⟨htaken, rfl⟩)
      obtain ⟨more, final, hrest, hmore⟩ := ih (hfirst.sound hs).1 hlater
      refine ⟨(recoverOne (0, scheduler) first).1 + more, final, hfirst.trans hrest, fun before count => ?_⟩
      rw [List.foldl_cons, hcount, hmore, Nat.add_assoc]

end SchedulerM

namespace Scheduler

-- What every revival keeps, a recovery keeps.
theorem recover_induction {motive : Scheduler → Prop} (jobs : List PersistedJob)
    (hsound : ∀ scheduler, motive scheduler → scheduler.Sound)
    (hrevival : ∀ persisted ∈ jobs, ∀ scheduler answer final, motive scheduler →
      scheduler.Revival persisted answer final → motive final)
    {progress : Nat × Scheduler} (h : motive progress.2) :
    motive (jobs.foldl recoverOne progress).2 := by
  induction jobs generalizing progress with
  | nil => exact h
  | cons first rest ih =>
      obtain ⟨hfirst, hrest⟩ := List.forall_mem_cons.mp hrevival
      refine ih hrest ?_
      rcases SchedulerM.revival_recoverOne (hsound _ h) first with ⟨-, hpassed⟩ | ⟨-, answer, final, hone, hrun⟩
      · rwa [hpassed]
      · rw [hrun progress.1]
        exact hfirst _ _ _ h hone

end Scheduler

end JobScheduler
