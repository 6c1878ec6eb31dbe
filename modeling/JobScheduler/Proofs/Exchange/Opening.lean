import JobScheduler.Proofs.Exchange.Faithful

namespace JobScheduler

-- A sound job that occupies no slots has no running task, as every task needs some.
theorem LiveJob.Sound.not_running_of_load {job : LiveJob} (hs : job.Sound) (hload : job.board.load = 0)
    (task : TaskId) : job.board.placeOf task ≠ .ok .running := by
  intro hplace
  obtain ⟨card, hcard, hrunning⟩ := Board.placeOf_eq_ok_iff.mp hplace
  have hmem : card ∈ job.board.cards := Board.Wired.mem_of_card hcard
  rw [Board.load, List.sum_eq_zero_iff_forall_eq_nat] at hload
  have hzero : card.resources = 0 :=
    hload _ (List.mem_map_of_mem (List.mem_filter.mpr ⟨hmem, by simp [hrunning]⟩))
  exact Nat.lt_irrefl _ (hzero ▸ hs.resources_pos hmem)

-- The operations that only take jobs in.
def Operation.takesIn : Operation → Bool
  | .submit _ | .recover _ => true
  | .kickoff _ | .step _ _ => false

namespace Scheduler

-- Nothing has been started yet, and all that is held back are records of jobs.
structure Unstarted (scheduler : Scheduler) : Prop where
  orderly : scheduler.Orderly
  idle : ∀ task, ¬scheduler.Runs task
  pending : ∀ command ∈ scheduler.pending, ∃ summary, command = .ended summary

theorem unstarted_new (total : Nat) : (Scheduler.new total).Unstarted where
  orderly := orderly_new total
  idle _ := not_runs_of_none rfl
  pending := fun _ h => by cases h

variable {scheduler : Scheduler} (h : scheduler.Unstarted)
include h

-- Jobs that occupy no slots when they are taken in do not change that.
theorem Unstarted.idle_of_taken {final : Scheduler}
    (hlive : ∀ id job, final.registry.find? id = some job →
      scheduler.registry.find? id = some job ∨ job.Sound ∧ job.board.load = 0) (task : TaskId) :
    ¬final.Runs task := by
  rintro ⟨job, hjob, hrunning⟩
  rcases hlive _ _ hjob with hold | ⟨hsound, hload⟩
  · exact h.idle task ⟨job, hold, hrunning⟩
  · exact hsound.not_running_of_load hload task (hsound.board.partitioned.mem_running_iff.mp hrunning)

theorem Unstarted.submit (submission : Submission) :
    (scheduler.perform (.submit submission)).2.Unstarted := by
  have horderly := orderly_perform h.orderly (.submit submission)
  cases hnew : LiveJob.new ⟨scheduler.registry.nextId⟩ submission with
  | error fault =>
      rwa [perform, run_of_error (SchedulerM.submit_of_refused hnew)]
  | ok job =>
      have hfresh := LiveJob.fresh_of_new hnew
      rw [perform, run_of_ok (SchedulerM.submit_of_new hnew)] at horderly ⊢
      refine ⟨horderly, h.idle_of_taken fun id other hother => ?_, h.pending⟩
      rw [find?_joined] at hother
      split at hother
      · exact .inr (Option.some.inj hother ▸ ⟨hfresh.sound, hfresh.load⟩)
      · exact .inl hother

-- A revived job has nothing that runs, also where it ends at once.
theorem Unstarted.revival {persisted : PersistedJob} {answer : Except Fault Unit} {final : Scheduler}
    (hrevival : scheduler.Revival persisted answer final) : final.Unstarted := by
  refine ⟨hrevival.orderly h.orderly, h.idle_of_taken fun id job hjob => ?_, ?_⟩
  · refine (hrevival.origin hjob).imp_right fun hrevive => ?_
    obtain ⟨hsound, hload, -⟩ := PersistedJob.sound_of_revive hrevive
    exact ⟨hsound, hload⟩
  · cases hrevival with
    | refused | goesOn => exact h.pending
    | @ends revived hrevive =>
        obtain ⟨hsound, hload, -⟩ := PersistedJob.sound_of_revive hrevive
        have hnone : revived.board.running.toList = [] := List.eq_nil_iff_forall_not_mem.mpr
          fun task htask => hsound.not_running_of_load hload task
            (hsound.board.partitioned.mem_running_iff.mp htask)
        simp only [hnone, List.forall_mem_append, List.forall_mem_singleton]
        exact ⟨h.pending, fun command hcommand => (List.not_mem_nil hcommand).elim, _, rfl⟩

omit h in
theorem unstarted_reached (total : Nat) {operations : List Operation}
    (hall : ∀ operation ∈ operations, operation.takesIn) :
    ((Scheduler.new total).reached operations).Unstarted := by
  suffices hrun : ∀ scheduler : Scheduler, scheduler.Unstarted → (scheduler.reached operations).Unstarted from
    hrun _ (unstarted_new total)
  induction operations with
  | nil => exact fun _ h => h
  | cons first rest ih =>
      intro scheduler h
      obtain ⟨hfirst, hrest⟩ := List.forall_mem_cons.mp hall
      refine ih hrest _ ?_
      cases first with
      | submit submission => exact h.submit submission
      | recover jobs =>
          exact recover_induction jobs (fun _ h => h.orderly.sound)
            (fun _ _ _ _ _ h hrevival => h.revival hrevival) h
      | kickoff | step => cases hfirst

-- The first pass hands its tasks to an executor that has nothing to do yet.
theorem Unstarted.faithful_kickoff (hcounted : scheduler.Counted) (policy : Policy) :
    let first := scheduler.perform (.kickoff policy)
    Command.AllFit [] first.1 ∧ Exchange.Faithful ⟨first.2, first.1.foldl Command.obeyed [], []⟩ := by
  intro first
  have hrecords (records : List Command) (hall : ∀ command ∈ records, ∃ summary, command = .ended summary) :
      Command.AllFit [] records ∧ records.foldl Command.obeyed [] = [] := by
    induction records with
    | nil => exact ⟨trivial, rfl⟩
    | cons first rest ih =>
        obtain ⟨⟨summary, rfl⟩, hrest⟩ := List.forall_mem_cons.mp hall
        exact ⟨⟨trivial, (ih hrest).1⟩, (ih hrest).2⟩
  obtain ⟨hall, hnone⟩ := hrecords scheduler.pending h.pending
  have hclear : ({ scheduler with pending := [] } : Scheduler).Orderly :=
    ⟨h.orderly.sound.cleared, h.orderly.ordered⟩
  have htracks : ({ scheduler with pending := [] } : Scheduler).Tracks scheduler.Runs
      (scheduler.pending.foldl Command.obeyed []) := by
    rw [hnone]
    exact tracks_nil h.idle
  obtain ⟨hfits, hpending, hfinal⟩ := tracks_finishStep hclear rfl policy hall htracks
  have hknows := knows_finishStep hcounted.cleared rfl policy (hnone ▸ List.forall_mem_nil _)
  have hsame : ({ scheduler with pending := [] } : Scheduler).finishStep policy scheduler.pending =
      scheduler.kickoff policy := by
    simp only [kickoff, finishStep, List.append_nil, List.nil_append]
  rw [hsame] at hfits hpending hfinal hknows
  have hperforms : Performs .counting scheduler (.kickoff policy) :=
    performs_counting h.orderly.sound List.not_mem_nil
  exact ⟨hfits, orderly_perform h.orderly _, (hperforms.leads.counted Terms.counting_not_last hcounted).1,
    hpending, hfinal, hknows⟩

end Scheduler

end JobScheduler
