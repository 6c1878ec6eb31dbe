import JobScheduler.Proofs.Desk.Outcomes
import JobScheduler.Proofs.Desk.Walk
import JobScheduler.Proofs.Job.Revive
import JobScheduler.Proofs.Job.Sound
import JobScheduler.Proofs.Result

namespace JobScheduler.LiveJob

-- The job is the one that was submitted, whatever its priority is by now, with room for
-- the executions of every task and with its results in order.
structure CarriesOut (job : LiveJob) (submission : Submission) : Prop where
  submitted : job.submission = { submission with priority := job.board.priority }
  executions : job.executions.length = submission.tasks.length
  results : job.results.Accounts submission

-- A change to what a job shows that leaves its books alone. Results may be released.
structure KeepsBooks (job job' : LiveJob) : Prop where
  submitted : job'.submission = job.submission
  priority : job'.board.priority = job.board.priority
  executions : job'.executions = job.executions
  results : ∃ released, job'.results = { job.results with released }

theorem KeepsBooks.refl (job : LiveJob) : job.KeepsBooks job := ⟨rfl, rfl, rfl, _, rfl⟩

theorem KeepsBooks.trans {a b c : LiveJob} (h : a.KeepsBooks b) (h' : b.KeepsBooks c) : a.KeepsBooks c where
  submitted := h'.submitted.trans h.submitted
  priority := h'.priority.trans h.priority
  executions := h'.executions.trans h.executions
  results := by
    obtain ⟨_, heq⟩ := h.results
    obtain ⟨released, heq'⟩ := h'.results
    exact ⟨released, by rw [heq', heq]⟩

theorem CarriesOut.keep {job job' : LiveJob} {submission : Submission} (hc : job.CarriesOut submission)
    (h : job.KeepsBooks job') : job'.CarriesOut submission where
  submitted := by rw [h.submitted, hc.submitted, h.priority]
  executions := (congrArg List.length h.executions).trans hc.executions
  results := by
    obtain ⟨released, heq⟩ := h.results
    rw [heq]
    exact hc.results.released released

theorem CarriesOut.spend {job : LiveJob} {submission : Submission} (hc : job.CarriesOut submission)
    {executions : List Nat} (hlength : executions.length = job.executions.length) :
    ({ job with executions } : LiveJob).CarriesOut submission :=
  ⟨hc.submitted, hlength.trans hc.executions, hc.results⟩

theorem CarriesOut.tasks {job : LiveJob} {submission : Submission} (hc : job.CarriesOut submission) :
    job.submission.tasks = submission.tasks := by
  rw [hc.submitted]

section Keeps

variable (job : LiveJob) (task : TaskId)

theorem keepsBooks_setStatus (status : TaskStatus) : job.KeepsBooks (setStatus status job task) :=
  ⟨rfl, rfl, rfl, _, rfl⟩

theorem keepsBooks_shift (source target : Place) : job.KeepsBooks (job.shift task source target) :=
  ⟨rfl, by simp [shift], rfl, _, rfl⟩

theorem keepsBooks_holdingBack : job.KeepsBooks (job.holdingBack task) :=
  (job.keepsBooks_shift task .eligible .paused).trans (keepsBooks_setStatus _ task .paused)

theorem keepsBooks_allHeldBack (tasks : List TaskId) : job.KeepsBooks (job.allHeldBack tasks) := by
  induction tasks generalizing job with
  | nil => exact .refl job
  | cons first rest ih => exact (job.keepsBooks_holdingBack first).trans (ih _)

theorem keepsBooks_requeued (status : TaskStatus) : job.KeepsBooks (job.requeued task status) := by
  have hshift := job.keepsBooks_shift task .running .eligible
  unfold requeued
  split
  · exact hshift.trans (keepsBooks_holdingBack _ task)
  · exact hshift.trans (keepsBooks_setStatus _ task status)

theorem keepsBooks_releasing : job.KeepsBooks (job.releasing task) := by
  unfold releasing
  split
  · split
    · exact ⟨rfl, rfl, rfl, _, rfl⟩
    · exact .refl job
  · exact .refl job

theorem keepsBooks_foldl_releasing (tasks : List TaskId) : job.KeepsBooks (tasks.foldl releasing job) := by
  induction tasks generalizing job with
  | nil => exact .refl job
  | cons first rest ih => exact (job.keepsBooks_releasing first).trans (ih _)

theorem keepsBooks_settled (parents promoted : List TaskId) :
    job.KeepsBooks (job.settled task parents promoted) := by
  unfold settled
  split
  · exact (job.keepsBooks_allHeldBack promoted).trans (keepsBooks_foldl_releasing _ _)
  · exact job.keepsBooks_foldl_releasing _

theorem keepsBooks_errorCleared : job.KeepsBooks job.errorCleared := by
  obtain ⟨status, heq, -⟩ := job.errorCleared_eq
  rw [heq]
  exact ⟨rfl, rfl, rfl, _, rfl⟩

theorem keepsBooks_restarted : (job.setExecutions task 0).KeepsBooks (job.restarted task) := by
  unfold restarted
  split
  · exact keepsBooks_setStatus _ task .paused
  · exact (keepsBooks_shift _ task .paused .eligible).trans (keepsBooks_setStatus _ task .pending)

theorem keepsBooks_setStatuses (status : TaskStatus) (tasks : List TaskId) :
    job.KeepsBooks (setStatuses status job tasks) := by
  induction tasks generalizing job with
  | nil => exact .refl job
  | cons first rest ih => exact (job.keepsBooks_setStatus first status).trans (ih _)

theorem keepsBooks_restate (wanted : TaskStatus → Bool) (status : TaskStatus) :
    job.KeepsBooks (job.restate wanted status).1 := by
  have hmoved : job.KeepsBooks { job with board := (job.restate wanted status).1.board } := by
    refine ⟨rfl, ?_, rfl, _, rfl⟩
    rw [restate_board]
    exact Board.priority_applyStatuses _ _
  have hrestate : (job.restate wanted status).1 = setStatuses status
      { job with board := (job.restate wanted status).1.board } (job.tasksWith wanted) := by
    rw [restate_board]
    rfl
  rw [hrestate]
  exact hmoved.trans (keepsBooks_setStatuses _ status (job.tasksWith wanted))

theorem keepsBooks_held : job.KeepsBooks job.held :=
  (job.keepsBooks_restate awaitsStart .paused).trans ⟨rfl, rfl, rfl, _, rfl⟩

theorem keepsBooks_resumed : job.KeepsBooks job.resumed :=
  (job.keepsBooks_restate (· == .paused) .pending).trans ⟨rfl, rfl, rfl, _, rfl⟩

end Keeps

theorem keepsBooks_heldInError {job : LiveJob} {task : TaskId} {card : Card} (result : TaskResult) :
    (job.addingResult card result).KeepsBooks (job.heldInError task card result) := by
  unfold heldInError
  dsimp only
  split <;> exact ⟨rfl, by simp [shift, addingResult], rfl, _, rfl⟩

theorem keepsBooks_terminated {job : LiveJob} (hs : job.Sound) {task : TaskId} {card : Card}
    (hcard : job.board.card task = .ok card) {ended : Board × List TaskId}
    (hended : job.board.finish task card.place = .ok ended) (parents : List TaskId) (status : TaskStatus) :
    job.KeepsBooks (job.terminated task parents status ended) := by
  obtain ⟨board, promoted, hfinish, hpromotes⟩ :=
    Board.finish_promotes hs.board.wired (Board.placeOf_of_card hcard)
  rw [hended, Except.ok.injEq] at hfinish
  subst hfinish
  refine KeepsBooks.trans ?_ (keepsBooks_settled _ task parents promoted)
  exact ⟨rfl, hpromotes.priority.trans (by simp), rfl, _, rfl⟩

theorem KeepsBooks.of_undisturbed {job job' : LiveJob} (h : job.Undisturbed job') : job.KeepsBooks job' where
  submitted := h.submission
  priority := h.priority
  executions := h.executions
  results := ⟨_, h.results⟩

-- Cards tell of the tasks that were submitted.
theorem Sound.declared {job : LiveJob} (hs : job.Sound) {card : Card} (hcard : card ∈ job.board.cards) :
    ∃ task ∈ job.submission.tasks, task.name = card.name ∧ task.precious = card.task.precious := by
  obtain ⟨task, htask, hplanned⟩ := hs.planned hcard
  refine ⟨task, List.mem_of_getElem? htask, ?_, ?_⟩
  · rw [Card.name, hplanned]
    rfl
  · rw [hplanned]
    rfl

section Outcomes

variable {job : LiveJob} (hs : job.Sound) {submission : Submission} (hc : job.CarriesOut submission)
include hs hc

theorem CarriesOut.nodup_names : (submission.tasks.map (·.name)).Nodup := by
  rw [← hc.tasks]
  exact Submission.nodup_names_of_resolve hs.resolved

theorem CarriesOut.addingResult {card : Card} (hcard : card ∈ job.board.cards) (result : TaskResult) :
    (job.addingResult card result).CarriesOut submission := by
  obtain ⟨task, htask, hname, hprecious⟩ := hs.declared hcard
  rw [hc.tasks] at htask
  refine ⟨hc.submitted, hc.executions, ?_⟩
  have hadded := hc.results.add (hc.nodup_names hs) htask result
  rwa [hname, hprecious] at hadded

-- A task terminates after its result has been noted.
theorem CarriesOut.terminated {task : TaskId} {card : Card} (hcard : job.board.card task = .ok card)
    {ended : Board × List TaskId} (hended : job.board.finish task card.place = .ok ended)
    (result : TaskResult) (status : TaskStatus) :
    ((job.addingResult card result).terminated task card.parents status ended).CarriesOut submission := by
  have hadded : (job.addingResult card result).Sound := (advances_books hs _ job.executions).sound
  exact (hc.addingResult hs (Board.Wired.mem_of_card hcard) result).keep
    (keepsBooks_terminated hadded hcard hended card.parents status)

-- Whatever an event makes of a job, its books stay in order.
theorem Outcome.carriesOut {event : Event} {fate : Fate} {job' : LiveJob}
    (h : job.Outcome event fate job') : job'.CarriesOut submission := by
  have hconsumed (task : TaskId) : (job.consumeExecution task).Sound ∧
      (job.consumeExecution task).CarriesOut submission :=
    ⟨(advances_books hs job.results (job.consumeExecution task).executions).sound,
      hc.spend (by simp)⟩
  cases h with
  | untouched | dropped => exact hc
  | retried => exact (hconsumed _).2.keep (keepsBooks_requeued _ _ _)
  | heldInError hcard =>
      exact ((hconsumed _).2.addingResult (hconsumed _).1 (Board.Wired.mem_of_card hcard) _).keep
        (keepsBooks_heldInError _)
  | canceled hcard _ hended | concluded hcard _ hended =>
      exact (hconsumed _).2.terminated (hconsumed _).1 hcard hended _ _
  | lost => exact hc.keep (keepsBooks_requeued _ _ _)
  | held => exact hc.keep job.keepsBooks_held
  | resumed => exact hc.keep job.keepsBooks_resumed
  | killed hcard _ hended =>
      exact (hc.terminated hs hcard hended _ _).keep (keepsBooks_errorCleared _)
  | restarted =>
      exact ((hc.spend (by simp)).keep (keepsBooks_restarted _ _)).keep
        (keepsBooks_errorCleared _)
  | finished hcard _ hended =>
      exact (hc.keep (keepsBooks_terminated hs hcard hended _ _)).keep (keepsBooks_errorCleared _)
  | @reprioritized _ wanted =>
      refine ⟨?_, hc.executions, hc.results⟩
      rw [LiveJob.reprioritized, hc.submitted]
      rfl

end Outcomes

theorem carriesOut_of_new {id : JobId} {submission : Submission} {job : LiveJob}
    (h : LiveJob.new id submission = .ok job) : job.CarriesOut submission := by
  obtain ⟨tasks, board, hresolve, hbuild, rfl⟩ := new_eq_ok h
  have hsize : board.size = submission.tasks.length := by
    rw [Board.size_of_build hbuild, (Submission.checkTasks_of_resolve hresolve).2.2, Submission.plan,
      List.length_mapIdx]
  refine ⟨?_, by simp [ofBoard, hsize], JobResult.accounts_new board.job submission⟩
  rw [ofBoard, Board.priority_of_build hbuild]

end LiveJob

namespace PersistedJob

theorem priority_foldlM_putBack {persisted : PersistedJob} {board board' : Board} {tasks : List TaskId}
    (h : tasks.foldlM persisted.putBack board = .ok board') : board'.priority = board.priority :=
  keeps_foldlM_putBack Board.priority (by simp) h

-- Results that were kept of declared tasks are entered again.
theorem accounts_addResult {persisted : PersistedJob} {submission : Submission} {results : JobResult}
    (h : results.Accounts submission) (hnodup : (submission.tasks.map (·.name)).Nodup)
    {cards : List Card} (hcards : ∀ card ∈ cards, ∃ task ∈ submission.tasks,
      task.name = card.name ∧ task.precious = card.task.precious) :
    (cards.foldl persisted.addResult results).Accounts submission := by
  induction cards generalizing results with
  | nil => exact h
  | cons first rest ih =>
      obtain ⟨hfirst, hrest⟩ := List.forall_mem_cons.mp hcards
      refine ih ?_ hrest
      unfold addResult
      split
      · obtain ⟨task, htask, hname, hprecious⟩ := hfirst
        have hadded := h.add hnodup htask ‹TaskResult›
        rwa [hname, hprecious] at hadded
      · exact h

-- The last result of a task that was kept is entered again.
theorem find?_foldl_addResult (persisted : PersistedJob) (results : JobResult) (cards : List Card)
    (name : String) : (cards.foldl persisted.addResult results).all.find? name =
      if name ∈ cards.map Card.name then (persisted.results.find? name).or (results.all.find? name)
      else results.all.find? name := by
  have hone (results : JobResult) (card : Card) : (persisted.addResult results card).all.find? name =
      if name = card.name then (persisted.results.find? name).or (results.all.find? name)
      else results.all.find? name := by
    unfold addResult
    cases hkept : persisted.results.find? card.name with
    | none =>
        by_cases heq : name = card.name <;> simp [heq, hkept]
    | some result =>
        by_cases heq : name = card.name <;> simp [JobResult.add, heq, hkept]
  induction cards generalizing results with
  | nil => rfl
  | cons first rest ih =>
      rw [List.foldl_cons, ih, hone]
      by_cases hmem : name ∈ rest.map Card.name <;> by_cases heq : name = first.name <;>
        cases persisted.results.find? name <;> simp_all

theorem released_foldl_addResult (persisted : PersistedJob) (results : JobResult) (cards : List Card) :
    (cards.foldl persisted.addResult results).released = results.released := by
  induction cards generalizing results with
  | nil => rfl
  | cons first rest ih =>
      rw [List.foldl_cons, ih]
      unfold addResult
      split <;> rfl

-- Only the tasks and what was kept of their results tell what is entered.
theorem foldl_addResult_congr {persisted persisted' : PersistedJob} {cards cards' : List Card}
    (htasks : cards'.map Card.task = cards.map Card.task)
    (hkept : ∀ card ∈ cards, persisted'.results.find? card.name = persisted.results.find? card.name)
    (results : JobResult) :
    cards'.foldl persisted'.addResult results = cards.foldl persisted.addResult results := by
  induction cards generalizing cards' results with
  | nil => rw [List.map_eq_nil_iff.mp htasks, List.foldl_nil, List.foldl_nil]
  | cons first rest ih =>
      obtain ⟨first', rest', rfl, hfirst, hrest⟩ := List.map_eq_cons_iff.mp htasks
      obtain ⟨hfound, hothers⟩ := List.forall_mem_cons.mp hkept
      have hone : persisted'.addResult results first' = persisted.addResult results first := by
        rw [Card.name, ← hfirst] at hfound
        rw [addResult, addResult, Card.name, Card.name, ← hfirst, hfound]
      rw [List.foldl_cons, List.foldl_cons, hone, ih hrest hothers]

theorem results_of_revive {persisted : PersistedJob} {job : LiveJob} (h : persisted.revive = .ok job) :
    job.results = job.board.cards.foldl persisted.addResult
      (.new job.id persisted.submission.name persisted.submission.preciousTasks) := by
  obtain ⟨rebuilt, board, -, -, rfl⟩ := revive_eq_ok_iff.mp h
  split
  · have hsame : (persisted.restored board).SameJob (persisted.restored board).pausePending.1 :=
      LiveJob.sameJob_restate LiveJob.awaitsStart .paused
    rw [hsame.id]
    refine (LiveJob.restate_results _ _ _).trans ?_
    exact (foldl_addResult_congr hsame.board.map_task (fun _ _ => rfl) _).symm
  · rfl

theorem carriesOut_of_revive {persisted : PersistedJob} {job : LiveJob}
    (h : persisted.revive = .ok job) : job.CarriesOut persisted.submission := by
  obtain ⟨rebuilt, board, hrebuild, hback, rfl⟩ := revive_eq_ok_iff.mp h
  have hs := sound_restored hrebuild hback
  have hpriority : board.priority = persisted.submission.priority :=
    (priority_foldlM_putBack hback).trans (Board.rebuilt_of_rebuild hrebuild).priority
  have hlength : board.cards.length = persisted.submission.tasks.length := by
    have hplan := congrArg List.length (Submission.checkTasks_of_resolve hs.resolved).2.2
    simpa [Submission.plan, restored, LiveJob.ofBoard] using hplan
  have hrestored : (persisted.restored board).CarriesOut persisted.submission := by
    refine ⟨?_, by simp [restored, hlength], ?_⟩
    · rw [show (persisted.restored board).board.priority = _ from hpriority]
      rfl
    · exact accounts_addResult (JobResult.accounts_new board.job persisted.submission)
        (Submission.nodup_names_of_resolve hs.resolved) fun card hcard => hs.declared hcard
  split
  · exact hrestored.keep (LiveJob.keepsBooks_restate _ LiveJob.awaitsStart .paused)
  · exact hrestored

end PersistedJob

end JobScheduler
