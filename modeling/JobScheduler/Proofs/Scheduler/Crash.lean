import JobScheduler.Proofs.Job.Persist
import JobScheduler.Proofs.Scheduler.Coherence
import JobScheduler.Proofs.Scheduler.Lasting

namespace JobScheduler.Scheduler

-- The scheduler once the workers of some tasks are reported as lost, one after the other.
def losing (scheduler : Scheduler) (tasks : List TaskId) : Scheduler :=
  tasks.foldl (fun scheduler task => (scheduler.run (SchedulerM.handle (.lost task))).2) scheduler

section Losing

variable {scheduler : Scheduler} {job : LiveJob} (hjob : scheduler.registry.find? job.id = some job)
include hjob

theorem run_lost (hs : scheduler.Sound) {task : TaskId} (h : job.board.placeOf task = .ok .running) :
    ∃ given, scheduler.run (SchedulerM.handle (.lost task)) =
      (.ok [], scheduler.wentOn (job.requeued task .pending) given) := by
  obtain ⟨card, hcard, hrunning⟩ := Board.placeOf_eq_ok_iff.mp h
  have hturn : LiveJob.Turn true job (job.requeued task .pending) card.resources :=
    LiveJob.turn_requeued (hs.live hjob) hcard hrunning rfl
  have hload := hturn.load
  have hbound := hs.load_le hjob
  have hdesk := DeskM.taskLost_of_running scheduler.slots hcard hrunning
  rw [Slots.release_eq_regain (by omega)] at hdesk
  have hreport : SchedulerM.handle (.lost task) = SchedulerM.report job.id (DeskM.taskLost task) := by
    rw [SchedulerM.handle, Board.job_eq_of_placeOf h]
    rfl
  refine ⟨card.resources, ?_⟩
  rw [hreport, SchedulerM.run_report_of_find? hjob,
    SchedulerM.run_conclude_of_goesOn hturn.advances.id hdesk]
  rfl

-- One report after the other puts the tasks back, in whatever order they come.
theorem exists_losing (h : scheduler.Orderly) {tasks : List TaskId} (hnodup : tasks.Nodup)
    (hrunning : ∀ task ∈ tasks, job.board.placeOf task = .ok .running) :
    ∃ lost, (scheduler.losing tasks).registry.find? job.id = some lost ∧ job.Loses tasks lost := by
  induction tasks generalizing scheduler job with
  | nil => exact ⟨job, hjob, .refl (h.sound.live hjob)⟩
  | cons first rest ih =>
      obtain ⟨hfirst, hrest⟩ := List.forall_mem_cons.mp hrunning
      obtain ⟨hfresh, hnodup⟩ := List.nodup_cons.mp hnodup
      have hone := LiveJob.loses_requeued (h.sound.live hjob) hfirst
      have hid : (job.requeued first .pending).id = job.id := hone.same.job
      obtain ⟨given, hrun⟩ := run_lost hjob h.sound hfirst
      have hnext : scheduler.losing (first :: rest) =
          (scheduler.wentOn (job.requeued first .pending) given).losing rest := by
        rw [losing, List.foldl_cons, hrun]
        rfl
      have horderly := orderly_handle h (.lost first)
      rw [hrun] at horderly
      have hfind := (scheduler.find?_wentOn (job.requeued first .pending) given _).trans (if_pos rfl)
      obtain ⟨lost, hlost, hloses⟩ := ih hfind horderly hnodup fun task htask => by
        have hne : task ≠ first := fun heq => hfresh (heq ▸ htask)
        rw [hone.place]
        simpa [hne] using hrest task htask
      exact ⟨lost, by rw [hnext, ← hid, hlost], hone.trans hloses⟩

end Losing

-- A scheduler takes in a job that goes on where its id is free.
theorem recover_of_revive {scheduler : Scheduler} {persisted : PersistedJob} {job : LiveJob}
    (hrevive : persisted.revive = .ok job) (hlive : scheduler.registry.find? job.id = none)
    (hended : scheduler.registry.ended? job.id = none) (hopen : ¬job.board.isComplete)
    (hterminal : persisted.status.isTerminal = false) :
    (scheduler.recover [persisted]).1 = 1 ∧
      (scheduler.recover [persisted]).2.registry.find? job.id = some job ∧
      (scheduler.recover [persisted]).2.registry.ended? job.id = none := by
  rw [SchedulerM.recover_of_open hrevive hlive hended hopen hterminal]
  exact ⟨rfl, (scheduler.find?_readmitted job job.id).trans (if_pos rfl), hended⟩

-- A crash is the same as the loss of every worker. What is kept of a live job is accepted
-- by a scheduler that starts anew, and the job is there as if its running tasks had been
-- reported as lost.
theorem recovered_as_lost (total fresh : Nat) {operations : List Operation}
    (h : ∀ operation ∈ operations, operation.isRecovery = false) :
    let scheduler := (Scheduler.new total).reached operations
    ∀ id job, scheduler.registry.find? id = some job →
      ∀ tasks, tasks.Perm job.board.running.toList →
        ∃ lost revived, (scheduler.losing tasks).registry.find? id = some lost ∧
          ((Scheduler.new fresh).recover [job.persisted]).1 = 1 ∧
          ((Scheduler.new fresh).recover [job.persisted]).2.registry.find? id = some revived ∧
          lost.Alike revived := by
  intro scheduler id job hjob tasks hperm
  have horderly : scheduler.Orderly := orderly_reached total operations
  obtain ⟨rfl, hs⟩ := horderly.sound.jobs id job hjob
  have hc : job.Coherent := coherent_reached total h job.id job hjob
  obtain ⟨submission, hcarries⟩ := Ledger.carriesOut_reached total operations hjob
  have hnodup : tasks.Nodup := hperm.nodup_iff.mpr (SortedSet.nodup_toList _)
  obtain ⟨lost, hlost, hloses⟩ := exists_losing hjob horderly hnodup fun task htask =>
    hs.board.partitioned.mem_running_iff.mp (hperm.mem_iff.mp htask)
  obtain ⟨revived, hrevive, hloses'⟩ := LiveJob.exists_revive hs hc hcarries
  have hid : revived.id = job.id := hloses'.same.job
  have hopen := hloses'.not_isComplete hs (horderly.ordered.incomplete job.id job hjob)
  have hfresh : (Scheduler.new fresh).registry.find? revived.id = none ∧
      (Scheduler.new fresh).registry.ended? revived.id = none := ⟨rfl, rfl⟩
  obtain ⟨hcount, hfind, -⟩ := recover_of_revive hrevive hfresh.1 hfresh.2 hopen hc.live
  exact ⟨lost, revived, hlost, hcount, hid ▸ hfind, hloses.alike hloses' fun _ => hperm.mem_iff⟩

-- A job that was paused while its first task was running comes back with that task paused.
theorem recovered_as_lost_release :
    let operations : List Operation :=
      [.submit release, .kickoff (.acceptAll false), .step (.acceptAll false) (.pause ⟨0⟩)]
    let scheduler := (Scheduler.new 2).reached operations
    ∃ job lost revived, scheduler.registry.find? ⟨0⟩ = some job ∧
      job.statuses = [.running, .paused] ∧ job.board.running.toList = [⟨⟨0⟩, 0⟩] ∧
      (scheduler.losing [⟨⟨0⟩, 0⟩]).registry.find? ⟨0⟩ = some lost ∧
      ((Scheduler.new 1).recover [job.persisted]).1 = 1 ∧
      ((Scheduler.new 1).recover [job.persisted]).2.registry.find? ⟨0⟩ = some revived ∧
      lost.Alike revived ∧ revived.statuses = [.paused, .paused] ∧
      revived.board.snapshot = ⟨[], [], [⟨⟨0⟩, 0⟩], [0, 1], [1, 0]⟩ := by
  intro operations scheduler
  have hreached : scheduler = ((Scheduler.new 2).planned release (release.plan ⟨0⟩)).reached
      [.kickoff (.acceptAll false), .step (.acceptAll false) (.pause ⟨0⟩)] :=
    reached_submit (.new 2) resolve_release _
  have hshown : (scheduler.registry.find? ⟨0⟩).map (fun job => (job.statuses, job.board.running.toList)) =
      some ([.running, .paused], [⟨⟨0⟩, 0⟩]) := by
    rw [hreached]
    decide +kernel
  have hlosing : ((scheduler.losing [⟨⟨0⟩, 0⟩]).registry.find? ⟨0⟩).map
      (fun job => (job.statuses, job.board.snapshot)) =
      some ([.paused, .paused], ⟨[], [], [⟨⟨0⟩, 0⟩], [0, 1], [1, 0]⟩) := by
    rw [hreached]
    decide +kernel
  obtain ⟨job, hjob, hstands⟩ := Option.map_eq_some_iff.mp hshown
  obtain ⟨hstatuses, hrunning⟩ := Prod.mk.inj hstands
  have hnone : ∀ operation ∈ operations, operation.isRecovery = false := by
    simp [operations, Operation.isRecovery]
  obtain ⟨lost, revived, hlost, hcount, hrevived, halike⟩ :=
    recovered_as_lost 2 1 hnone ⟨0⟩ job hjob [⟨⟨0⟩, 0⟩] (by rw [hrunning])
  rw [hlost, Option.map_some, Option.some.injEq, Prod.mk.injEq] at hlosing
  exact ⟨job, lost, revived, hjob, hstatuses, hrunning, hlost, hcount, hrevived, halike,
    halike.statuses.trans hlosing.1, halike.snapshot.trans hlosing.2⟩

end JobScheduler.Scheduler
