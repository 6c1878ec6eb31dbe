import Mathlib.Data.List.Induction
import JobScheduler.Proofs.Job.Follows
import JobScheduler.Proofs.Scheduler.Greedy
import JobScheduler.Proofs.Scheduler.Ledger
import JobScheduler.Proofs.Scheduler.Order

namespace JobScheduler.Scheduler

-- The notes on a task that an operation gives rise to.
def noted (scheduler : Scheduler) (task : TaskId) : Operation → List Note
  | .step _ event =>
      match scheduler.registry.find? task.job with
      | some job => job.noted task event
      | none => []
  | .submit _ | .recover _ | .kickoff _ => []

-- All notes on a task that a run gives rise to, in their order.
def journal (scheduler : Scheduler) (task : TaskId) : List Operation → List Note
  | [] => []
  | operation :: rest => scheduler.noted task operation ++ journal (scheduler.perform operation).2 task rest

theorem journal_eq_gathered (scheduler : Scheduler) (task : TaskId) (operations : List Operation) :
    scheduler.journal task operations = scheduler.gathered (fun scheduler => scheduler.noted task) operations := by
  induction operations generalizing scheduler with
  | nil => rfl
  | cons first rest ih => rw [journal, gathered, ih]

theorem journal_concat (scheduler : Scheduler) (task : TaskId) (operations : List Operation)
    (operation : Operation) : scheduler.journal task (operations ++ [operation]) =
      scheduler.journal task operations ++ (scheduler.reached operations).noted task operation := by
  rw [journal_eq_gathered, journal_eq_gathered, gathered_concat]

theorem journal_submit (scheduler : Scheduler) {submission : Submission} {tasks : List PlannedTask}
    (h : submission.resolve ⟨scheduler.registry.nextId⟩ = .ok tasks) (task : TaskId)
    (rest : List Operation) : scheduler.journal task (.submit submission :: rest) =
      (scheduler.planned submission tasks).journal task rest := by
  rw [journal_eq_gathered, journal_eq_gathered, gathered_submit scheduler h rfl]

theorem reached_concat (scheduler : Scheduler) (operations : List Operation) (operation : Operation) :
    scheduler.reached (operations ++ [operation]) =
      ((scheduler.reached operations).perform operation).2 := by
  rw [reached, List.foldl_append]
  rfl

theorem perform_step {scheduler : Scheduler} (policy : Policy) {event : Event} (h : event ≠ .shutdown) :
    (scheduler.perform (.step policy event)).2 =
      ((scheduler.run (SchedulerM.handle event)).2.finishStep policy
        (commandsOf (scheduler.run (SchedulerM.handle event)).1)).2 :=
  congrArg Prod.snd (step_of_ne_shutdown policy h)

-- The books of all live jobs show the accounts of their tasks. Of a job that there never
-- was nothing is told.
structure Chronicled (scheduler : Scheduler) (history : TaskId → List Note) : Prop where
  live : ∀ id job, scheduler.registry.find? id = some job → job.Follows history
  silent : ∀ task, scheduler.registry.find? task.job = none → scheduler.registry.ended? task.job = none →
    history task = []
  pending : scheduler.pending = []

theorem chronicled_new (total : Nat) : (Scheduler.new total).Chronicled fun _ => [] :=
  ⟨fun _ _ hjob => (by cases hjob), fun _ _ _ => rfl, rfl⟩

section Steps

variable {scheduler : Scheduler} (hs : scheduler.Sound) {history : TaskId → List Note}
  (h : scheduler.Chronicled history)
include hs h

section Event

variable {policy : Policy} {event : Event}

omit hs h in
theorem noted_of_live {job : LiveJob} (hjob : scheduler.registry.find? job.id = some job) {task : TaskId}
    (htask : task.job = job.id) : scheduler.noted task (.step policy event) = job.noted task event := by
  simp only [noted, htask, hjob]

-- Of the tasks of a job that does not take up the event nothing is told.
theorem Chronicled.idle {job : LiveJob} (hjob : scheduler.registry.find? job.id = some job)
    (hidle : ∀ work, event.work? = some (job.id, work) →
      ∀ fate desk, work ⟨job, scheduler.slots⟩ = .ok fate desk → fate = .untouched) :
    job.Follows fun task => history task ++ scheduler.noted task (.step policy event) := by
  refine (h.live _ _ hjob).congr (hs.live hjob) fun task htask => ?_
  have hnone : job.noted task event = [] := by
    by_contra htold
    obtain ⟨work, hwork⟩ := LiveJob.work?_of_noted htold
    rw [htask] at hwork
    obtain ⟨fate, desk, hok, htaken⟩ := LiveJob.ok_of_noted (hs.live hjob) hwork rfl htold scheduler.slots
    exact htaken (hidle work hwork fate desk hok)
  rw [noted_of_live hjob htask, hnone, List.append_nil]

variable {job : LiveJob} {work : DeskM Fate} (hattends : scheduler.Attends event job work)
include hattends

theorem Chronicled.taken {fate : Fate} {desk : Desk} (hwork : work ⟨job, scheduler.slots⟩ = .ok fate desk)
    (htaken : fate ≠ .untouched) (hadvances : job.Advances desk.job) :
    desk.job.Follows fun task => history task ++ scheduler.noted task (.step policy event) := by
  have houtcome := LiveJob.outcome_of_work? (hs.live hattends.2) hattends.1 rfl hwork
  have hfollows := houtcome.follows (hs.live hattends.2) (h.live _ _ hattends.2) htaken
  exact hfollows.congr hadvances.sound fun task htask => by
    rw [noted_of_live hattends.2 (htask.trans hadvances.id)]

end Event

-- Whatever becomes of an event, the books of the live jobs show what it tells of their tasks.
theorem Reaction.follows (hfree : scheduler.Counted) {event : Event} {answer : Except Fault (List Command)}
    {final : Scheduler} (hreaction : scheduler.Reaction event answer final) (policy : Policy) (id : JobId)
    (job : LiveJob) (hjob : final.registry.find? id = some job) :
    job.Follows fun task => history task ++ scheduler.noted task (.step policy event) := by
  cases hreaction.origin hs hjob with
  | stayed hjob hidle =>
      obtain ⟨rfl, -⟩ := hs.jobs id job hjob
      exact h.idle hs hjob hidle
  | joined hevent hnew hid =>
      refine LiveJob.follows_of_new hnew fun task htask => ?_
      obtain ⟨hlive, hended⟩ := hfree.free
      rw [← htask] at hlive hended
      simp only [h.silent task hlive hended, noted, hlive, List.append_nil]
  | wentOn hattends hid hturn hwork =>
      exact h.taken hs hattends hwork (by simp) hturn.advances

omit h in
-- The end of a step starts tasks and hands out all commands, and neither bears on the books.
theorem follows_finishStep (hlive : ∀ id job, scheduler.registry.find? id = some job → job.Follows history)
    (policy : Policy) (commands : List Command) :
    (∀ id job, (scheduler.finishStep policy commands).2.registry.find? id = some job → job.Follows history) ∧
      (scheduler.finishStep policy commands).2.pending = [] := by
  obtain ⟨assignments, final, hserves, hfinal, -⟩ := finishStep_eq hs policy commands
  rw [hfinal]
  refine ⟨fun id job hjob => ?_, (hserves.starts policy.accepts hs.cleared).pending⟩
  exact hserves.live hs.cleared (motive := fun _ job => job.Follows history)
    (fun _ _ hsound hfollows budget => hfollows.served hsound policy.accepts budget) hlive id job hjob

omit hs h in
theorem noted_of_gone {task : TaskId} (hgone : scheduler.registry.find? task.job = none)
    (operation : Operation) : scheduler.noted task operation = [] := by
  cases operation with
  | submit | recover | kickoff => rfl
  | step policy event => simp only [noted, hgone]

omit hs h in
-- Some events never bear on a task.
theorem noted_of_unrelated {event : Event} (hevent : ∀ (job : LiveJob) task, job.noted task event = [])
    (task : TaskId) (policy : Policy) : scheduler.noted task (.step policy event) = [] := by
  simp only [noted]
  split
  · exact hevent _ task
  · rfl

theorem Chronicled.follows_perform (hfree : scheduler.Counted) {operation : Operation}
    (hkind : operation.isRecovery = false) :
    (∀ id job, (scheduler.perform operation).2.registry.find? id = some job →
      job.Follows fun task => history task ++ scheduler.noted task operation) ∧
        (scheduler.perform operation).2.pending = [] := by
  have hquiet (hnone : ∀ task, scheduler.noted task operation = []) {job : LiveJob}
      (hjob : job.Follows history) :
      job.Follows fun task => history task ++ scheduler.noted task operation := by
    simpa only [hnone, List.append_nil] using hjob
  cases operation with
  | submit submission =>
      have hreaction := SchedulerM.reacts_handle hs (.submitted submission)
      have hlive := hreaction.follows hs h hfree (.acceptAll false)
      have hpending := hreaction.pending_eq.trans h.pending
      have hnone (task : TaskId) : scheduler.noted task (.step (.acceptAll false) (.submitted submission)) = [] :=
        noted_of_unrelated (fun _ _ => rfl) task _
      simp only [hnone, List.append_nil] at hlive
      rw [SchedulerM.handle, ← run_submit] at hlive hpending
      exact ⟨fun id job hjob => hquiet (fun _ => rfl) (hlive id job hjob), hpending⟩
  | recover jobs => cases hkind
  | kickoff policy =>
      obtain ⟨hlive, hpending⟩ := follows_finishStep hs h.live policy []
      exact ⟨fun id job hjob => hquiet (fun _ => rfl) (hlive id job hjob), hpending⟩
  | step policy event =>
      by_cases hshutdown : event = .shutdown
      · subst hshutdown
        exact ⟨fun id job hjob => hquiet (noted_of_unrelated (fun _ _ => rfl) · policy) (h.live id job hjob), rfl⟩
      · have hreaction := SchedulerM.reacts_handle hs event
        have hhandled := ((performs_any hs (.step policy event)).handled.sound hs).1
        rw [perform_step policy hshutdown]
        exact follows_finishStep hhandled (hreaction.follows hs h hfree policy) policy _

omit hs h in
-- An id that is not in use after an operation was not in use before.
theorem unknown_of_perform (hs : scheduler.Counted) {operation : Operation}
    (hlast : .last ∉ scheduler.gives operation) {id : JobId}
    (hgone : (scheduler.perform operation).2.registry.find? id = none)
    (hopen : (scheduler.perform operation).2.registry.ended? id = none) :
    scheduler.registry.find? id = none ∧ scheduler.registry.ended? id = none := by
  have hleads := (performs_counting hs.toSound hlast).leads
  have hlater := (hleads.counted Terms.counting_not_last hs).2
  constructor
  · refine Option.eq_none_iff_forall_ne_some.mpr fun job hjob => ?_
    rcases hlater.live _ _ hjob with ⟨job', hjob', -⟩ | hended
    · rw [hgone] at hjob'
      cases hjob'
    · rw [hopen] at hended
      cases hended
  · refine Option.not_isSome_iff_eq_none.mp fun hsome => ?_
    have hkept := hlater.ended _ hsome
    rw [hopen] at hkept
    cases hkept

omit hs in
-- Each operation adds to the history what it tells.
theorem Chronicled.perform (hs : scheduler.Counted) {operation : Operation}
    (hlast : .last ∉ scheduler.gives operation) (hkind : operation.isRecovery = false) :
    (scheduler.perform operation).2.Chronicled fun task => history task ++ scheduler.noted task operation := by
  obtain ⟨hlive, hpending⟩ := h.follows_perform hs.toSound hs hkind
  refine ⟨hlive, fun task hgone hopen => ?_, hpending⟩
  obtain ⟨hnever, hended⟩ := unknown_of_perform hs hlast hgone hopen
  rw [h.silent task hnever hended, noted_of_gone hnever, List.append_nil]

end Steps

-- A run without recoveries keeps the books, as long as no job is given the last id.
theorem chronicled_reached {total : Nat} {operations : List Operation}
    (hkinds : ∀ operation ∈ operations, operation.isRecovery = false)
    (hlast : .last ∉ (Scheduler.new total).ids operations) :
    ((Scheduler.new total).reached operations).Chronicled
      fun task => (Scheduler.new total).journal task operations := by
  induction operations using List.reverseRecOn with
  | nil => exact chronicled_new total
  | append_singleton operations operation ih =>
      obtain ⟨hearlier, hgives⟩ := not_mem_ids_concat.mp hlast
      have hbefore := ih (fun other hother => hkinds other (List.mem_append_left _ hother)) hearlier
      have hafter := hbefore.perform (counted_reached hearlier) hgives
        (hkinds operation (List.mem_append_right _ (List.mem_singleton.mpr rfl)))
      simpa only [reached_concat, journal_concat] using hafter

section Spared

variable {scheduler : Scheduler} (hs : scheduler.Sound) {event : Event} (hspares : event.sparesExecutions)
include hs hspares

theorem Reaction.executions_eq {answer : Except Fault (List Command)} {final : Scheduler}
    (hreaction : scheduler.Reaction event answer final) {id : JobId} {job job' : LiveJob}
    (hjob : scheduler.registry.find? id = some job) (hjob' : final.registry.find? id = some job') :
    job'.executions = job.executions := by
  cases hreaction.origin hs hjob' with
  | stayed hsame =>
      rw [hjob, Option.some.injEq] at hsame
      rw [hsame]
  | joined hevent =>
      rw [hevent] at hspares
      cases hspares
  | wentOn hattends hid hturn hwork =>
      rw [← hid, hattends.2, Option.some.injEq] at hjob
      rw [← hjob]
      exact (LiveJob.outcome_of_work? (hs.live hattends.2) hattends.1 rfl hwork).executions_eq
        (hs.live hattends.2) hspares

-- Starting tasks uses up no execution either.
theorem executions_step_eq (policy : Policy) {id : JobId} {job job' : LiveJob}
    (hjob : scheduler.registry.find? id = some job)
    (hjob' : (scheduler.perform (.step policy event)).2.registry.find? id = some job') :
    job'.executions = job.executions := by
  have hreaction := SchedulerM.reacts_handle hs event
  have hhandled : (scheduler.run (SchedulerM.handle event)).2.Sound :=
    ((performs_any hs (.step policy event)).handled.sound hs).1
  obtain ⟨assignments, final, hserves, hfinal, -⟩ := finishStep_eq hhandled policy
    (commandsOf (scheduler.run (SchedulerM.handle event)).1)
  rw [perform_step policy (by rintro rfl; cases hspares), hfinal] at hjob'
  refine hserves.live (motive := fun other later => other = id → later.executions = job.executions)
    hhandled.cleared (fun other served _ hsame budget hother => ?_) (fun other handled hother heq => ?_)
    id job' hjob' rfl
  · exact (LiveJob.undisturbed_served served _).executions.trans (hsame hother)
  · exact hreaction.executions_eq hs hspares hjob (heq ▸ hother)

end Spared

-- The counters of all live jobs stay within these limits.
def Within (scheduler : Scheduler) (passes uses : Nat) : Prop :=
  ∀ id job, scheduler.registry.find? id = some job → job.Within passes uses

section Within

variable {scheduler : Scheduler} {passes uses : Nat}

theorem Within.mono (h : scheduler.Within passes uses) {passes' uses' : Nat} (hpasses : passes ≤ passes')
    (huses : uses ≤ uses') : scheduler.Within passes' uses' :=
  fun id job hjob => (h id job hjob).mono hpasses huses

theorem Reaction.within (hs : scheduler.Sound) {event : Event} {answer : Except Fault (List Command)}
    {final : Scheduler} (hreaction : scheduler.Reaction event answer final) (h : scheduler.Within passes uses) :
    final.Within passes (uses + 1) := by
  intro id job hjob
  cases hreaction.origin hs hjob with
  | stayed hjob => exact (h id job hjob).mono (Nat.le_refl _) (Nat.le_succ _)
  | joined _ hnew => exact (LiveJob.within_of_new hnew).mono (Nat.zero_le _) (Nat.zero_le _)
  | wentOn hattends hid _ hwork =>
      have hsound := hs.live hattends.2
      exact (LiveJob.outcome_of_work? hsound hattends.1 rfl hwork).within hsound (h _ _ hattends.2)

theorem Revival.within {persisted : PersistedJob} {answer : Except Fault Unit} {final : Scheduler}
    (hrevival : scheduler.Revival persisted answer final)
    (hkept : ∀ name count, persisted.executions.find? name = some count → count ≤ uses)
    (h : scheduler.Within passes uses) : final.Within passes uses := by
  intro id job hjob
  rcases hrevival.origin hjob with hjob | hrevive
  · exact h id job hjob
  · exact (LiveJob.within_of_revive hrevive hkept).mono (Nat.zero_le _) (Nat.le_refl _)

variable (horderly : scheduler.Orderly)
include horderly

theorem within_finishStep (h : scheduler.Within passes uses) (policy : Policy) (commands : List Command) :
    (scheduler.finishStep policy commands).2.Within (passes + 1) uses := by
  obtain ⟨assignments, final, hserves, hfinal, -⟩ := finishStep_eq horderly.sound policy commands
  have hclear : ({ scheduler with pending := [] } : Scheduler).Orderly :=
    ⟨horderly.sound.cleared, horderly.ordered⟩
  have hwalked := (Serves.walks_agenda hserves hclear).2
  rw [hfinal]
  intro id job' hjob'
  by_cases hid : id ∈ ({ scheduler with pending := [] } : Scheduler).registry.ranked.map LiveJob.id
  · obtain ⟨job, hjob, rfl⟩ := List.mem_map.mp hid
    obtain ⟨marked, hfind, hmarked⟩ := hwalked.marked job hjob
    rw [hfind, Option.some.injEq] at hjob'
    exact hjob' ▸ hmarked.within (h job.id job ((mem_ranked_iff hclear.sound).mp hjob))
  · rw [hwalked.others id hid] at hjob'
    exact (h id job' hjob').mono (Nat.le_succ _) (Nat.le_refl _)

theorem within_perform (h : scheduler.Within passes uses) {operation : Operation}
    (hkept : ∀ jobs, operation = .recover jobs → ∀ persisted ∈ jobs, ∀ name count,
      persisted.executions.find? name = some count → count ≤ uses) :
    (scheduler.perform operation).2.Within (passes + 1) (uses + 1) := by
  have hs := horderly.sound
  cases operation with
  | submit submission =>
      have hhandled := (SchedulerM.reacts_handle hs (.submitted submission)).within hs h
      rw [SchedulerM.handle, ← run_submit] at hhandled
      exact hhandled.mono (Nat.le_succ _) (Nat.le_refl _)
  | recover jobs =>
      have hrecovered := @recover_induction (fun scheduler => scheduler.Orderly ∧ scheduler.Within passes uses)
        jobs (fun _ hboth => hboth.1.sound)
        (fun persisted hmem _ _ _ hboth hrevival =>
          ⟨hrevival.orderly hboth.1, hrevival.within (hkept jobs rfl persisted hmem) hboth.2⟩)
        (0, scheduler) ⟨horderly, h⟩
      exact hrecovered.2.mono (Nat.le_succ _) (Nat.le_succ _)
  | kickoff policy =>
      exact (within_finishStep horderly h policy []).mono (Nat.le_refl _) (Nat.le_succ _)
  | step policy event =>
      by_cases hshutdown : event = .shutdown
      · subst hshutdown
        exact h.mono (Nat.le_succ _) (Nat.le_succ _)
      · rw [perform_step policy hshutdown]
        exact within_finishStep (orderly_handle horderly event)
          ((SchedulerM.reacts_handle hs event).within hs h) policy _

end Within

-- A task has been looked at no more often than the run is long, and has used up no more
-- executions than that and what was recovered.
theorem within_reached (total bound : Nat) {operations : List Operation}
    (hrecovered : ∀ jobs, .recover jobs ∈ operations → ∀ persisted ∈ jobs, ∀ name count,
      persisted.executions.find? name = some count → count ≤ bound) :
    ((Scheduler.new total).reached operations).Within operations.length (bound + operations.length) := by
  induction operations using List.reverseRecOn with
  | nil => exact fun _ _ hjob => by cases hjob
  | append_singleton operations operation ih =>
      have hbefore := ih fun jobs hjobs => hrecovered jobs (List.mem_append_left _ hjobs)
      rw [reached_concat, List.length_append]
      refine within_perform (orderly_reached total operations) hbefore ?_
      intro jobs heq persisted hmem name count hcount
      have hjobs : .recover jobs ∈ operations ++ [operation] :=
        List.mem_append_right _ (List.mem_singleton.mpr heq.symm)
      exact Nat.le_trans (hrecovered jobs hjobs persisted hmem name count hcount) (Nat.le_add_right _ _)

-- So 32 bits hold them, unless the run or a recovered count is beyond all bounds.
theorem counters_lt (total bound : Nat) {operations : List Operation}
    (hrecovered : ∀ jobs, .recover jobs ∈ operations → ∀ persisted ∈ jobs, ∀ name count,
      persisted.executions.find? name = some count → count ≤ bound)
    (hbound : bound + operations.length < 2 ^ 32) (id : JobId) (job : LiveJob)
    (hjob : ((Scheduler.new total).reached operations).registry.find? id = some job) :
    (∀ count ∈ job.board.attempts, count < 2 ^ 32) ∧ ∀ count ∈ job.executions, count < 2 ^ 32 := by
  have hwithin := within_reached total bound hrecovered id job hjob
  refine ⟨fun count hcount => ?_, fun count hcount => ?_⟩
  · exact Nat.lt_of_le_of_lt (Nat.le_add_left_of_le (hwithin.attempts count hcount)) hbound
  · exact Nat.lt_of_le_of_lt (hwithin.executions count hcount) hbound

-- In a run without recoveries, the executions that a task has used are the completions
-- that arrived while it was running since it was last restarted. They are within its
-- limit, and below while it may still run by itself. Where failed tasks are not held in
-- error, a task has a result just when it has terminated, and that is the one of its last
-- execution, or that it was killed. The ids must not have run out, for which the run would
-- have to be as long as there are ids.
theorem retry_budget_kept (total : Nat) {operations : List Operation}
    (hkinds : ∀ operation ∈ operations, operation.isRecovery = false)
    (hlast : .last ∉ (Scheduler.new total).ids operations) :
    let scheduler := (Scheduler.new total).reached operations
    ∀ id job, scheduler.registry.find? id = some job → ∀ task card, job.board.card task = .ok card →
      let trials := Note.trials ((Scheduler.new total).journal task operations)
      ∃ status, job.statusOf? task = some status ∧
        job.executionsUsed task = trials.length ∧ trials.length ≤ card.task.maxExecutions ∧
        (status.isTerminated = false → status ≠ .inError → trials.length < card.task.maxExecutions) ∧
        (∀ policy event, event.sparesExecutions → ∀ job',
          (scheduler.perform (.step policy event)).2.registry.find? id = some job' →
            job'.executionsUsed task = job.executionsUsed task) ∧
        (job.submission.pauseOnError = false →
          ((job.results.get? card.name).isSome ↔ status ∈ [.finished, .faulty, .killed]) ∧
          ∀ result, job.results.get? card.name = some result →
            if status = .killed then result = .killed task
            else trials.getLast? = some result ∧
              ¬(result.hadException ∧ trials.length < card.task.maxExecutions)) := by
  intro scheduler id job hjob task card hcard trials
  have hsound : scheduler.Sound := sound_reached total operations
  have hs := (hsound.jobs id job hjob).2
  have hfollows := (chronicled_reached hkinds hlast).live id job hjob
  obtain rfl : card.task.id = task := hs.board.wired.id_of_card hcard
  have htally := hfollows.tallies hs hcard
  obtain ⟨status, hstatus, hfits, hpauses⟩ := htally.shown
  have htrials : (Account.of card.task ((Scheduler.new total).journal card.task.id operations)).trials = trials :=
    Account.trials_of _ _
  refine ⟨status, hstatus, ?_, htrials ▸ hfits.budget, fun hterminated herror => ?_, ?_, fun hnever => ?_⟩
  · rw [LiveJob.executionsUsed, htally.executions, htrials]
    rfl
  · rw [← htrials]
    exact (Account.shows_of_isOpen (TaskStatus.isOpen_iff.mpr ⟨hterminated, herror⟩)).mp hfits.shows
  · intro policy event hspares job' hjob'
    rw [LiveJob.executionsUsed, executions_step_eq hsound hspares policy hjob hjob']
    rfl
  · rw [hnever] at hpauses
    have herror : status ≠ .inError := fun heq => by cases hpauses (.inl heq)
    have hfirst : (Account.of card.task ((Scheduler.new total).journal card.task.id operations)).rerun = false :=
      Bool.eq_false_iff.mpr fun hrerun => by cases hpauses (.inr hrerun)
    have hresult : job.results.get? card.name = _ := htally.all
    have hterminated : status ∈ [.finished, .faulty, .killed] ↔ status.isTerminated := by
      cases status <;> decide
    rw [hresult, hterminated]
    have hiff := hfits.isSome_recorded_iff hfirst herror
    refine ⟨hiff, fun result hrecorded => ?_⟩
    have hresults := hfits.eq_of_recorded (hiff.mp (by rw [hrecorded]; rfl)) hrecorded
    rwa [htrials] at hresults

-- A release whose first task may be executed twice.
def patientRelease : Submission :=
  { release with tasks := [⟨"a", "make", [], 1, true, 2⟩, ⟨"b", "make test", ["a"], 1, false, 1⟩] }

theorem resolve_patientRelease : patientRelease.resolve ⟨0⟩ = .ok (patientRelease.plan ⟨0⟩) :=
  resolve_of_graph patientRelease rfl rfl rfl rfl ⟨0⟩

-- The task fails, its worker is lost, and it succeeds.
theorem retry_budget_kept_patientRelease :
    let task : TaskId := ⟨⟨0⟩, 0⟩
    let policy := Policy.acceptAll true
    let operations := [.submit patientRelease, .kickoff policy,
      .step policy (.completed task (.failure task "exit code 2")), .step policy (.lost task),
      .step policy (.completed task (.success task ""))]
    (∀ operation ∈ operations, operation.isRecovery = false) ∧
    (Scheduler.new 2).journal task operations =
      [.reported (.failure task "exit code 2"), .reported (.success task "")] ∧
    ∃ job card, ((Scheduler.new 2).reached operations).registry.find? ⟨0⟩ = some job ∧
      job.board.card task = .ok card ∧ job.executionsUsed task = 2 ∧ job.statusOf? task = some .finished ∧
      job.results.get? card.name = some (.success task "") := by
  intro task policy operations
  have hkinds : ∀ operation ∈ operations, operation.isRecovery = false := by decide
  have hjournal : (Scheduler.new 2).journal task operations =
      [.reported (.failure task "exit code 2"), .reported (.success task "")] := by
    rw [journal_submit (.new 2) resolve_patientRelease]
    decide +kernel
  have hshown : (((Scheduler.new 2).reached operations).registry.find? ⟨0⟩).map (fun job =>
      ((job.board.card task).toOption.map Card.name, job.statusOf? task, job.submission.pauseOnError,
        (job.results.get? "a").isSome)) = some (some "a", some .finished, false, true) := by
    rw [reached_submit (.new 2) resolve_patientRelease]
    decide +kernel
  obtain ⟨job, hjob, hjobShown⟩ := Option.map_eq_some_iff.mp hshown
  simp only [Prod.mk.injEq] at hjobShown
  obtain ⟨hname, hstatus, hpause, hsome⟩ := hjobShown
  obtain ⟨card, hcard, hname⟩ := Option.map_eq_some_iff.mp hname
  have hcard : job.board.card task = .ok card := by
    cases hfind : job.board.card task with
    | error fault =>
        rw [hfind] at hcard
        cases hcard
    | ok other =>
        rw [hfind] at hcard
        exact congrArg Except.ok (Option.some.inj hcard)
  have hlast : .last ∉ (Scheduler.new 2).ids operations :=
    last_not_mem_ids 2 0 (by simp [operations]) (by decide)
  obtain ⟨status, hshows, hused, -, -, -, hresults⟩ :=
    retry_budget_kept 2 hkinds hlast ⟨0⟩ job hjob task card hcard
  obtain rfl := Option.some.inj (hstatus.symm.trans hshows)
  obtain ⟨-, hrecorded⟩ := hresults hpause
  obtain ⟨result, hresult⟩ := Option.isSome_iff_exists.mp hsome
  have htrial := (hrecorded result (hname ▸ hresult)).1
  rw [hjournal] at hused htrial
  have hsame : result = .success task "" := (Option.some.inj htrial).symm
  exact ⟨hkinds, hjournal, job, card, hjob, hcard, hused, hstatus, hname ▸ hsame ▸ hresult⟩

end JobScheduler.Scheduler
