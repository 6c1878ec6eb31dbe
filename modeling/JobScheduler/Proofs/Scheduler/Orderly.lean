import JobScheduler.Proofs.ReadyQueue
import JobScheduler.Proofs.Scheduler.React
import JobScheduler.Proofs.Scheduler.Serve

namespace JobScheduler

theorem Board.Partitioned.hasEligible_iff {board : Board} (hp : board.Partitioned) :
    board.hasEligible ↔ ∃ task, board.placeOf task = .ok .eligible := by
  rw [hasEligible, Bool.not_eq_true', SortedMap.isEmpty]
  constructor
  · intro h
    obtain ⟨entry, rest, hentries⟩ := List.exists_cons_of_ne_nil (List.isEmpty_eq_false_iff.mp h)
    refine ⟨entry.1, hp.mem_eligible_iff.mp ?_⟩
    exact List.mem_map_of_mem (hentries ▸ List.mem_cons_self)
  · rintro ⟨task, htask⟩
    obtain ⟨entry, hentry, -⟩ := List.mem_map.mp (hp.mem_eligible_iff.mpr htask)
    exact List.isEmpty_eq_false_iff.mpr (List.ne_nil_of_mem hentry)

-- The queue holds the live jobs that have something to start under the keys that they have
-- now, and no live job is done.
structure Registry.Ordered (registry : Registry) (queue : ReadyQueue) : Prop where
  keyed : queue.Keyed
  mirrors : ∀ id, queue.keys.find? id =
    ((registry.find? id).filter (·.board.hasEligible)).map (·.board.serviceKey)
  incomplete : ∀ id job, registry.find? id = some job → ¬job.board.isComplete

namespace Registry

variable {registry : Registry} {queue : ReadyQueue} (h : registry.Ordered queue)
include h

theorem Ordered.ready (id : JobId) :
    id ∈ queue.toList ↔ ∃ job, registry.find? id = some job ∧ job.board.hasEligible := by
  rw [ReadyQueue.mem_toList_iff h.keyed, h.mirrors, Option.isSome_map, Option.isSome_iff_exists]
  simp [Option.filter_eq_some_iff]

-- The order is about live jobs.
theorem Ordered.congr {registry' : Registry} (hsame : ∀ id, registry'.find? id = registry.find? id) :
    registry'.Ordered queue where
  keyed := h.keyed
  mirrors id := by rw [hsame, h.mirrors]
  incomplete id job hjob := h.incomplete id job ((hsame id).symm.trans hjob)

theorem Ordered.put {job : LiveJob} (hopen : ¬job.board.isComplete) :
    (registry.put job).Ordered (queue.refresh job.board) where
  keyed := h.keyed.refresh job.board
  mirrors id := by
    rw [ReadyQueue.keys_refresh, find?_put, h.mirrors]
    change (if id = job.id then _ else _) = _
    split
    · cases hready : job.board.hasEligible <;> simp [Option.filter, hready]
    · rfl
  incomplete id other hother := by
    rw [find?_put] at hother
    split at hother
    · cases hother
      exact hopen
    · exact h.incomplete id other hother

-- A queue that was told of another board of a job is as before once it is told of its own.
theorem Ordered.refresh_back {job : LiveJob} (hjob : registry.find? job.id = some job) {board : Board}
    (hid : board.job = job.id) : (queue.refresh board).refresh job.board = queue := by
  refine ((h.keyed.refresh board).refresh job.board).ext h.keyed fun id => ?_
  rw [ReadyQueue.keys_refresh, ReadyQueue.keys_refresh, hid, h.mirrors]
  change (if id = job.id then _ else _) = _
  split
  · rename_i heq
    rw [heq, hjob]
    cases hready : job.board.hasEligible <;> simp [Option.filter, hready]
  · rfl

theorem Ordered.drop (id : JobId) (summary : Summary) :
    ((registry.drop id).record summary).Ordered (queue.remove id) where
  keyed := h.keyed.remove id
  mirrors other := by
    rw [ReadyQueue.keys_remove, find?_drop_record, h.mirrors]
    split <;> rfl
  incomplete other job hjob := by
    rw [find?_drop_record] at hjob
    split at hjob
    · cases hjob
    · exact h.incomplete other job hjob

theorem Ordered.remove_unknown {id : JobId} (hid : registry.find? id = none) :
    registry.Ordered (queue.remove id) where
  keyed := h.keyed.remove id
  mirrors other := by
    rw [ReadyQueue.keys_remove, h.mirrors]
    split
    · rename_i heq
      rw [heq, hid]
      rfl
    · rfl
  incomplete := h.incomplete

end Registry

-- A new job has something to do.
theorem LiveJob.not_isComplete_of_new {id : JobId} {submission : Submission} {job : LiveJob}
    (h : LiveJob.new id submission = .ok job) : ¬job.board.isComplete := by
  obtain ⟨tasks, board, hresolve, hbuild, rfl⟩ := new_eq_ok h
  have hb := Board.sound_of_build hbuild
  have hcards : board.cards.map Card.task = tasks := Board.map_task_of_build hbuild
  refine fun hcomplete => Submission.tasks_ne_nil_of_resolve hresolve ?_
  have hall := hb.isComplete_iff.mp hcomplete
  have hempty : board.cards = [] := by
    refine List.eq_nil_iff_forall_not_mem.mpr fun card hcard => ?_
    have hplace := Board.placeOf_of_card (hb.wired.card_id_of_mem hcard)
    rw [hall card hcard] at hplace
    rcases Board.not_done_of_build hbuild hplace with heq | heq <;> cases heq
  rw [hempty, (Submission.checkTasks_of_resolve hresolve).2.2, Submission.plan] at hcards
  simpa using hcards.symm

namespace Scheduler

-- The commands of an event start nothing.
theorem Reaction.quiet {scheduler final : Scheduler} {event : Event}
    {answer : Except Fault (List Command)} (h : scheduler.Reaction event answer final) :
    ∀ command ∈ commandsOf answer, command.assignments = [] := by
  cases h with
  | refused | ignored | joined => exact fun _ hcommand => absurd hcommand List.not_mem_nil
  | wentOn => exact Command.assignments_cancelling _
  | ended => exact Command.assignments_ending _ _ _

structure Orderly (scheduler : Scheduler) : Prop where
  sound : scheduler.Sound
  ordered : scheduler.registry.Ordered scheduler.queue

theorem orderly_new (total : Nat) : (Scheduler.new total).Orderly where
  sound := sound_new total
  ordered :=
    { keyed := ReadyQueue.keyed_empty
      mirrors := fun id => rfl
      incomplete := by
        intro id job hjob
        cases hjob }

variable {scheduler : Scheduler} (h : scheduler.Orderly)
include h

theorem Reaction.ordered {event : Event} {answer : Except Fault (List Command)}
    {final : Scheduler} (hreaction : scheduler.Reaction event answer final) :
    final.registry.Ordered final.queue := by
  cases hreaction with
  | refused | ignored => exact h.ordered
  | joined hevent hjob =>
      exact (h.ordered.put (LiveJob.not_isComplete_of_new hjob)).congr fun id => rfl
  | wentOn hattends hturn hwork =>
      have houtcome := LiveJob.outcome_of_work? (h.sound.live hattends.2) hattends.1 rfl hwork
      exact h.ordered.put (houtcome.not_isComplete (h.sound.live hattends.2)
        (h.ordered.incomplete _ _ hattends.2))
  | @ended job work job' given status cancelled hattends hturn hwork =>
      refine (h.ordered.drop job'.id (job'.closing status)).congr fun id => ?_
      rw [find?_closed, Registry.find?_drop_record]

omit h in
theorem Reaction.not_exit {event : Event} {answer : Except Fault (List Command)} {final : Scheduler}
    (h : scheduler.Reaction event answer final) : .exit ∉ commandsOf answer := by
  cases h with
  | refused | ignored | joined => exact List.not_mem_nil
  | wentOn => exact Command.exit_not_mem_cancelling _
  | ended => simp [commandsOf]

omit h in
theorem Reaction.commandsOf_submitted {submission : Submission} {answer : Except Fault (List Command)}
    {final : Scheduler} (h : scheduler.Reaction (.submitted submission) answer final) :
    commandsOf answer = [] := by
  cases h with
  | refused | ignored | joined => rfl
  | wentOn hattends | ended hattends => cases hattends.1

theorem orderly_handle (event : Event) : (scheduler.run (SchedulerM.handle event)).2.Orderly where
  sound := ((performs_any h.sound (.step (.acceptAll false) event)).handled.sound h.sound).1
  ordered := (SchedulerM.reacts_handle h.sound event).ordered h

omit h in
theorem Serves.orderly {accepts : Card → Bool} {ids : List JobId} {assignments : List Assignment}
    {scheduler final : Scheduler} (hserves : Serves accepts ids scheduler assignments final)
    (h : scheduler.Orderly) : final.Orderly := by
  induction hserves with
  | spent => exact h
  | gone hgone _ ih =>
      refine ih ⟨h.sound.queued _, ?_⟩
      exact h.ordered.remove_unknown hgone
  | job hjob _ ih =>
      refine ih ⟨h.sound.attended accepts hjob, ?_⟩
      exact h.ordered.put (LiveJob.not_isComplete_served (h.sound.live hjob) accepts _
        (h.ordered.incomplete _ _ hjob))

-- A recovered job that has nothing left to do ends at once.
theorem Revival.ordered {persisted : PersistedJob} {answer : Except Fault Unit} {final : Scheduler}
    (hrevival : scheduler.Revival persisted answer final) : final.registry.Ordered final.queue := by
  cases hrevival with
  | refused => exact h.ordered
  | goesOn hrevive hlive hended hopen => exact (h.ordered.put hopen).congr fun id => rfl
  | @ends job hrevive hlive hended hcomplete =>
      refine (h.ordered.drop job.id (job.closing (PersistedJob.endStatus job))).congr fun id => ?_
      exact (scheduler.find?_readmitted_retired job _ id).trans (Registry.find?_drop_record _ _ _ _).symm

theorem Revival.orderly {persisted : PersistedJob} {answer : Except Fault Unit} {final : Scheduler}
    (hrevival : scheduler.Revival persisted answer final) : final.Orderly := by
  have hleads : Leads .any scheduler final := hrevival.leads h.sound (fun _ _ => trivial) fun _ => trivial
  exact ⟨(hleads.sound h.sound).1, hrevival.ordered h⟩

omit h in
theorem orderly_recover (jobs : List PersistedJob) {progress : Nat × Scheduler}
    (h : progress.2.Orderly) : (jobs.foldl recoverOne progress).2.Orderly :=
  recover_induction jobs (fun _ => Orderly.sound) (fun _ _ _ _ _ h hrevival => hrevival.orderly h) h

theorem orderly_finishStep (policy : Policy) (commands : List Command) :
    (scheduler.finishStep policy commands).2.Orderly := by
  obtain ⟨assignments, final, hserves, hfinal, -⟩ := finishStep_eq h.sound policy commands
  rw [hfinal]
  exact hserves.orderly ⟨h.sound.cleared, h.ordered⟩

theorem orderly_perform (operation : Operation) : (scheduler.perform operation).2.Orderly := by
  cases operation with
  | submit submission =>
      have hhandled := orderly_handle h (.submitted submission)
      rwa [SchedulerM.handle, ← run_submit] at hhandled
  | recover jobs => exact orderly_recover jobs h
  | kickoff policy => exact orderly_finishStep h policy []
  | step policy event =>
      by_cases hshutdown : event = .shutdown
      · subst hshutdown
        exact ⟨h.sound.cleared, h.ordered⟩
      · simp only [perform, step_of_ne_shutdown policy hshutdown]
        exact orderly_finishStep (orderly_handle h event) policy _

theorem orderly_handled (operation : Operation) : (scheduler.handled operation).Orderly := by
  cases operation with
  | submit submission => exact orderly_perform h (.submit submission)
  | recover jobs => exact orderly_perform h (.recover jobs)
  | kickoff => exact h
  | step policy event => exact orderly_handle h event

-- The order is kept whatever drives the scheduler.
theorem orderly_of_moment {operations : List Operation} {moment : Scheduler}
    (hmoment : moment ∈ scheduler.moments operations) : moment.Orderly := by
  induction operations generalizing scheduler with
  | nil =>
      rw [List.mem_singleton.mp hmoment]
      exact h
  | cons first rest ih =>
      rcases List.mem_cons.mp hmoment with rfl | hmoment
      · exact h
      · rcases List.mem_cons.mp hmoment with rfl | hmoment
        · exact orderly_handled h first
        · exact ih (orderly_perform h first) hmoment

omit h in
theorem orderly_reached (total : Nat) (operations : List Operation) :
    ((Scheduler.new total).reached operations).Orderly := by
  suffices hall : ∀ scheduler : Scheduler, scheduler.Orderly → (scheduler.reached operations).Orderly from
    hall _ (orderly_new total)
  induction operations with
  | nil => exact fun _ h => h
  | cons first rest ih => exact fun scheduler h => ih _ (orderly_perform h first)

end Scheduler

end JobScheduler
