import JobScheduler.Proofs.Desk.Served
import JobScheduler.Proofs.Scheduler.Run

namespace JobScheduler

-- What a pass over the tasks of a job hands out.
def LiveJob.handedOut (job : LiveJob) (selection : Selection) : List Assignment :=
  selection.chosen.map fun card => .ofCard job.submission.name (Board.tryOnce card)

namespace Scheduler

-- The tasks of a job between which a dispatch pass chooses, and its choice.
def selection (scheduler : Scheduler) (accepts : Card → Bool) (job : LiveJob) : Selection :=
  Selection.among accepts scheduler.slots.free job.board.eligibleCards

-- The scheduler after a pass over one job.
def attended (scheduler : Scheduler) (accepts : Card → Bool) (job : LiveJob) : Scheduler :=
  let selection := scheduler.selection accepts job
  let job' := job.served selection
  { scheduler.served job' (selection.chosen.map Card.resources).sum with
    queue := scheduler.queue.refresh job'.board }

-- A pass over jobs: it is over when slots or jobs run out, and jobs that are not live any
-- more are taken out of the queue.
inductive Serves (accepts : Card → Bool) :
    List JobId → Scheduler → List Assignment → Scheduler → Prop
  | spent {ids scheduler} : ids = [] ∨ scheduler.slots.free = 0 → Serves accepts ids scheduler [] scheduler
  | gone {id rest scheduler assignments final} : scheduler.registry.find? id = none →
      Serves accepts rest { scheduler with queue := scheduler.queue.remove id } assignments final →
      Serves accepts (id :: rest) scheduler assignments final
  | job {job rest scheduler assignments final} : scheduler.registry.find? job.id = some job →
      Serves accepts rest (scheduler.attended accepts job) assignments final →
      Serves accepts (job.id :: rest) scheduler
        (job.handedOut (scheduler.selection accepts job) ++ assignments) final

section Pass

variable {scheduler : Scheduler} (hs : scheduler.Sound) (accepts : Card → Bool)
include hs

section Attended

variable {job : LiveJob} (hjob : scheduler.registry.find? job.id = some job)
include hjob

theorem advance_attended (terms : Terms) :
    Advance terms scheduler (scheduler.served (job.served (scheduler.selection accepts job))
      ((scheduler.selection accepts job).chosen.map Card.resources).sum) := by
  obtain ⟨-, hadvances, hload, hneeded⟩ := DeskM.run_serve scheduler.slots (hs.live hjob) accepts
  exact .serve hjob hadvances (LiveJob.isHeld_served job _ _).trans hload hneeded

theorem Sound.attended : (scheduler.attended accepts job).Sound :=
  ((advance_attended hs accepts hjob .any).sound hs).1.queued _

omit hs in
theorem Counted.attended (hs : scheduler.Counted) : (scheduler.attended accepts job).Counted :=
  ((advance_attended hs.toSound accepts hjob .counting).counted Terms.counting_not_last hs).1.queued _

theorem find?_attended (id : JobId) :
    (scheduler.attended accepts job).registry.find? id =
      if id = job.id then some (job.served (scheduler.selection accepts job))
      else scheduler.registry.find? id := by
  have hput := Registry.find?_put scheduler.registry (job.served (scheduler.selection accepts job)) id
  rw [selection, (LiveJob.advances_served (hs.live hjob) accepts scheduler.slots.free).id] at hput
  exact hput

theorem run_attended :
    SchedulerM.atDesk job (DeskM.serve accepts) scheduler =
      .ok (job.handedOut (scheduler.selection accepts job))
        (scheduler.served (job.served (scheduler.selection accepts job))
          ((scheduler.selection accepts job).chosen.map Card.resources).sum) := by
  rw [SchedulerM.atDesk, (DeskM.run_serve scheduler.slots (hs.live hjob) accepts).1]
  rfl

end Attended

theorem serves_serveJobs (ids : List JobId) :
    ∃ assignments final, Serves accepts ids scheduler assignments final ∧
      SchedulerM.serveJobs accepts ids scheduler = .ok assignments final := by
  induction ids generalizing scheduler with
  | nil => exact ⟨[], scheduler, .spent (.inl rfl), rfl⟩
  | cons id rest ih =>
      by_cases hfree : scheduler.slots.free = 0
      · refine ⟨[], scheduler, .spent (.inr hfree), ?_⟩
        simp only [SchedulerM.serveJobs, SchedulerM.run_bind, SchedulerM.run_get]
        rw [if_pos hfree, SchedulerM.run_pure]
      · cases hfind : scheduler.registry.find? id with
        | none =>
            obtain ⟨assignments, final, hserves, hrun⟩ := ih (hs.queued (scheduler.queue.remove id))
            refine ⟨assignments, final, .gone hfind hserves, ?_⟩
            simp only [SchedulerM.serveJobs, SchedulerM.run_bind, SchedulerM.run_get]
            rw [if_neg hfree, hfind]
            exact hrun
        | some job =>
            obtain ⟨rfl, -⟩ := hs.jobs id job hfind
            obtain ⟨assignments, final, hserves, hrun⟩ := ih (hs.attended accepts hfind)
            refine ⟨_, final, .job hfind hserves, ?_⟩
            have hrefresh : (scheduler.served (job.served (scheduler.selection accepts job))
                ((scheduler.selection accepts job).chosen.map Card.resources).sum).refreshQueue job.id =
                scheduler.attended accepts job := by
              have hput := find?_attended hs accepts hfind job.id
              rw [if_pos rfl] at hput
              simp only [refreshQueue]
              rw [show (scheduler.served _ _).registry.find? job.id = _ from hput]
              rfl
            simp only [SchedulerM.serveJobs, SchedulerM.run_bind, SchedulerM.run_get]
            rw [if_neg hfree, hfind]
            simp only [SchedulerM.run_bind, run_attended hs accepts hfind, SchedulerM.run_modify,
              hrefresh, hrun, SchedulerM.run_pure]

-- The end of a step hands out what was held back and starts what it can.
theorem finishStep_eq (policy : Policy) (commands : List Command) :
    ∃ assignments final,
      Serves policy.accepts scheduler.queue.toList { scheduler with pending := [] } assignments final ∧
      (scheduler.finishStep policy commands).2 = final ∧
      (scheduler.finishStep policy commands).1.commands =
        scheduler.pending ++ commands ++ dispatched (.ok assignments) ++
          if policy.exitWhenIdle ∧ final.registry.live.isEmpty then [.exit] else [] := by
  obtain ⟨assignments, final, hserves, hrun⟩ :=
    serves_serveJobs hs.cleared policy.accepts scheduler.queue.toList
  have hdispatch : ({ scheduler with pending := [] } : Scheduler).run
      (SchedulerM.dispatch policy.accepts) = (.ok assignments, final) := run_of_ok hrun
  refine ⟨assignments, final, hserves, ?_⟩
  simp only [finishStep, hdispatch]
  split <;> simp

-- What the end of a step starts, the pass has handed out.
theorem serves_finishStep (policy : Policy) {commands : List Command}
    (hquiet : ∀ command ∈ commands, command.assignments = []) :
    Serves policy.accepts scheduler.queue.toList { scheduler with pending := [] }
      (Command.started (scheduler.finishStep policy commands).1.commands)
      (scheduler.finishStep policy commands).2 := by
  obtain ⟨assignments, final, hserves, hfinal, hcommands⟩ := finishStep_eq hs policy commands
  have hold : Command.started (scheduler.pending ++ commands) = [] :=
    started_of_none fun command hcommand =>
      (List.mem_append.mp hcommand).elim (hs.pending command) (hquiet command)
  have hexit (idle : Prop) [Decidable idle] : Command.started (if idle then [.exit] else []) = [] := by
    split <;> rfl
  rw [hfinal, hcommands, started_append, started_append, hold, started_dispatched, hexit, List.nil_append,
    List.append_nil]
  exact hserves

-- The records that a step hands out are those held back and those of the event, and it asks
-- to exit if it may and no job is live.
theorem finishStep_hands_out (policy : Policy) {commands : List Command}
    (hexit : .exit ∉ scheduler.pending ++ commands) :
    let step := scheduler.finishStep policy commands
    step.1.commands.filterMap Command.summary? =
        (scheduler.pending ++ commands).filterMap Command.summary? ∧
      (.exit ∈ step.1.commands ↔ policy.exitWhenIdle ∧ step.2.registry.live.isEmpty) := by
  intro step
  obtain ⟨assignments, final, -, hfinal, hcommands⟩ := finishStep_eq hs policy commands
  have hdispatched : .exit ∉ dispatched (.ok assignments) ∧
      (dispatched (.ok assignments)).filterMap Command.summary? = [] := by
    cases assignments <;> simp [dispatched, Command.summary?]
  simp only [step, hcommands, hfinal]
  constructor
  · rw [List.filterMap_append, List.filterMap_append, hdispatched.2]
    split <;> simp [Command.summary?]
  · rw [List.mem_append, List.mem_append, or_iff_right (not_or.mpr ⟨hexit, hdispatched.1⟩)]
    split
    · rename_i hidle
      simp [hidle]
    · rename_i hbusy
      simpa using hbusy

end Pass

section Serves

variable {accepts : Card → Bool} {ids : List JobId} {scheduler final : Scheduler}
  {assignments : List Assignment} (h : Serves accepts ids scheduler assignments final)
  (hs : scheduler.Sound)
include h

theorem Serves.slots_total : final.slots.total = scheduler.slots.total := by
  induction h with
  | spent => rfl
  | gone _ _ ih => exact ih
  | job _ _ ih => exact ih

include hs

theorem Serves.find?_eq_none_iff (id : JobId) :
    final.registry.find? id = none ↔ scheduler.registry.find? id = none := by
  induction h with
  | spent => exact Iff.rfl
  | gone _ _ ih => exact ih (hs.queued _)
  | job hjob _ ih =>
      refine (ih (hs.attended accepts hjob)).trans ?_
      rw [find?_attended hs accepts hjob]
      split
      · rename_i hid
        simp [hid, hjob]
      · exact Iff.rfl

-- What passes over single jobs keep, a pass over many jobs keeps.
theorem Serves.live {motive : JobId → LiveJob → Prop}
    (hserved : ∀ id job, job.Sound → motive id job → ∀ budget,
      motive id (job.served (Selection.among accepts budget job.board.eligibleCards)))
    (hall : ∀ id job, scheduler.registry.find? id = some job → motive id job) (id : JobId)
    (job : LiveJob) (hjob : final.registry.find? id = some job) : motive id job := by
  induction h with
  | spent => exact hall id job hjob
  | gone _ _ ih => exact ih (hs.queued _) hall hjob
  | @job first rest scheduler assignments final hfirst _ ih =>
      refine ih (hs.attended accepts hfirst) (fun other next hnext => ?_) hjob
      rw [find?_attended hs accepts hfirst] at hnext
      split at hnext
      · rename_i hid
        cases hnext
        exact hserved other first (hs.live hfirst) (hall other first (hid ▸ hfirst)) _
      · exact hall other next hnext

end Serves

end Scheduler

end JobScheduler
