import JobScheduler.Proofs.Batch.Underway
import JobScheduler.Proofs.Scheduler.Stall

namespace JobScheduler

-- The records that a scheduler has handed out.
def Exchange.summaries (exchange : Exchange) : List Summary := exchange.given.filterMap Command.summary?

namespace Batch

-- All jobs of the batch are handed in to a scheduler with the slots that it asks for.
def submitted (batch : Batch) : Exchange :=
  (batch.jobs.map Operation.submit).foldl .perform (.new batch.limits.resources)

-- The course of a batch that is run until the scheduler asks to exit: whatever is handed
-- out and not cancelled reports in any order and with any result.
inductive Played (batch : Batch) : Nat → Exchange → Prop
  | kickoff : Played batch 0 (batch.submitted.perform (.kickoff (.acceptAll true)))
  | report {count exchange} (before : List Execution) (execution : Execution) (after : List Execution)
      (result : TaskResult) : Played batch count exchange → .exit ∉ exchange.given →
      exchange.executions = before ++ execution :: after → execution.isOutstanding →
      Played batch (count + 1)
        ({ exchange with executions := before ++ execution.report :: after }.perform
          (.step (.acceptAll true) (.completed execution.task result)))

variable {batch : Batch}

-- Submissions give no commands.
theorem foldl_perform_submit (submissions : List Submission) (exchange : Exchange) :
    (submissions.map .submit).foldl Exchange.perform exchange =
      ⟨exchange.scheduler.reached (submissions.map .submit), exchange.executions, exchange.given⟩ := by
  induction submissions generalizing exchange with
  | nil => rfl
  | cons first rest ih =>
      rw [List.map_cons, List.foldl_cons, ih]
      simp only [Exchange.perform, Scheduler.perform, List.foldl_nil, List.append_nil]
      rfl

theorem submitted_eq (batch : Batch) : batch.submitted =
    ⟨(Scheduler.new batch.limits.resources).reached (batch.jobs.map .submit), [], []⟩ :=
  foldl_perform_submit batch.jobs _

-- A batch of that size does not use all ids up.
section Reachable

variable (hcount : batch.jobs.length < 2 ^ 64)
include hcount

theorem reachable_submitted : Exchange.Reachable batch.limits.resources batch.submitted := by
  suffices hall : ∀ (jobs : List Submission) exchange,
      Exchange.Reachable batch.limits.resources exchange →
        .last ∉ exchange.scheduler.ids (jobs.map .submit) →
          Exchange.Reachable batch.limits.resources ((jobs.map .submit).foldl .perform exchange) by
    refine hall batch.jobs _ .new (Scheduler.last_not_mem_ids batch.limits.resources 0 ?_ ?_)
    · simp
    · rwa [List.length_map, Nat.zero_add]
  intro jobs
  induction jobs with
  | nil => exact fun _ h _ => h
  | cons first rest ih =>
      intro exchange h hlast
      obtain ⟨hfirst, hrest⟩ := not_or.mp (List.mem_append.not.mp hlast)
      exact ih _ (.step h (.request rfl) hfirst) hrest

theorem Played.reachable {count : Nat} {exchange : Exchange} (h : batch.Played count exchange) :
    Exchange.Reachable batch.limits.resources exchange := by
  induction h with
  | kickoff => exact .step (reachable_submitted hcount) (.request rfl) List.not_mem_nil
  | @report _ exchange before execution after result _ _ hexecutions houtstanding ih =>
      have hreported : execution.reported = false := by
        simpa [Execution.isOutstanding] using (Bool.and_eq_true_iff.mp houtstanding).1
      have hhears : exchange.Hears { exchange with executions := before ++ execution.report :: after }
          (.step (.acceptAll true) (execution.event (some result))) := .report hexecutions hreported
      exact .step ih hhears List.not_mem_nil

end Reachable

-- What holds between two reports of a batch.
structure InPlay (batch : Batch) (count : Nat) (exchange : Exchange) : Prop where
  faithful : exchange.Faithful
  underway : batch.Underway count exchange.summaries exchange.scheduler
  starved : ∀ id job, exchange.scheduler.registry.find? id = some job →
    job.Starved exchange.scheduler.slots.free
  exit : .exit ∈ exchange.given ↔ exchange.scheduler.registry.live.isEmpty

-- The end of a step.
theorem Underway.inPlay {count : Nat} {scheduler : Scheduler} {given commands : List Command}
    (h : batch.Underway count ((given ++ commands).filterMap Command.summary?) scheduler)
    (hgiven : .exit ∉ given) (hcommands : .exit ∉ commands) {executions : List Execution}
    (hfaithful : Exchange.Faithful ⟨(scheduler.finishStep (.acceptAll true) commands).2, executions,
      given ++ (scheduler.finishStep (.acceptAll true) commands).1.commands⟩) :
    batch.InPlay count ⟨(scheduler.finishStep (.acceptAll true) commands).2, executions,
      given ++ (scheduler.finishStep (.acceptAll true) commands).1.commands⟩ := by
  have hexits : .exit ∉ scheduler.pending ++ commands := by rwa [h.pending, List.nil_append]
  obtain ⟨hsummaries, hexit⟩ :=
    Scheduler.finishStep_hands_out h.orderly.sound (.acceptAll true) hexits
  rw [h.pending, List.nil_append] at hsummaries
  refine ⟨hfaithful, ?_, Scheduler.starved_finishStep h.orderly rfl commands, ?_⟩
  · have hafter := h.finishStep (.acceptAll true) commands
    rwa [List.filterMap_append, ← hsummaries, ← List.filterMap_append] at hafter
  · rw [List.mem_append, hexit, or_iff_right hgiven]
    exact and_iff_right rfl

theorem inPlay_kickoff (hcount : batch.jobs.length < 2 ^ 64)
    (hall : ∀ submission ∈ batch.jobs, Config.Runnable batch.limits submission) :
    batch.InPlay 0 (batch.submitted.perform (.kickoff (.acceptAll true))) := by
  have hfaithful := ((Played.kickoff : batch.Played 0 _).reachable hcount).faithful
  have hjoined := joined_reached hcount hall batch.jobs.length (Nat.le_refl _)
  rw [List.take_length] at hjoined
  rw [submitted_eq] at hfaithful ⊢
  have hunderway : batch.Underway 0 (([] ++ []).filterMap Command.summary?) _ := hjoined.underway
  exact hunderway.inPlay List.not_mem_nil List.not_mem_nil hfaithful

-- A report leaves one execution less.
theorem InPlay.report (hnone : ∀ submission ∈ batch.jobs, submission.pauseOnError = false)
    {count : Nat} {exchange : Exchange} (h : batch.InPlay count exchange)
    (hgiven : .exit ∉ exchange.given) {execution : Execution} (hmem : execution ∈ exchange.executions)
    (houtstanding : execution.isOutstanding) (result : TaskResult) {executions : List Execution}
    (hfaithful : (Exchange.perform { exchange with executions }
      (.step (.acceptAll true) (.completed execution.task result))).Faithful) :
    batch.InPlay (count + 1) (Exchange.perform { exchange with executions }
      (.step (.acceptAll true) (.completed execution.task result))) := by
  have hruns : exchange.scheduler.Runs execution.task :=
    (h.faithful.tracks.outstanding _).mp
      (Execution.mem_outstanding_iff.mpr ⟨execution, hmem, houtstanding, rfl⟩)
  have hcompleted := h.underway.completed hnone hruns result
  have hreaction := SchedulerM.reacts_handle h.faithful.orderly.sound (.completed execution.task result)
  have hevent : Event.completed execution.task result ≠ .shutdown := by simp
  simp only [Exchange.perform, Scheduler.perform, Scheduler.step_of_ne_shutdown (.acceptAll true) hevent]
    at hfaithful ⊢
  dsimp only at hcompleted
  rw [Exchange.summaries, ← List.filterMap_append] at hcompleted
  exact hcompleted.inPlay hgiven hreaction.not_exit hfaithful

theorem Played.inPlay (hcount : batch.jobs.length < 2 ^ 64)
    (hall : ∀ submission ∈ batch.jobs, Config.Runnable batch.limits submission)
    (hnone : ∀ submission ∈ batch.jobs, submission.pauseOnError = false) {count : Nat}
    {exchange : Exchange} (h : batch.Played count exchange) : batch.InPlay count exchange := by
  induction h with
  | kickoff => exact inPlay_kickoff hcount hall
  | report before execution after result hplayed hexit hexecutions houtstanding ih =>
      have hfaithful := ((Played.report before execution after result hplayed hexit hexecutions
        houtstanding).reachable hcount).faithful
      exact ih.report hnone hexit (by rw [hexecutions]; simp) houtstanding result hfaithful

-- Every task of a live job could be run if all slots were free.
theorem Underway.fits (hall : ∀ submission ∈ batch.jobs, Config.Runnable batch.limits submission)
    {count : Nat} {summaries : List Summary} {scheduler : Scheduler}
    (h : batch.Underway count summaries scheduler) (id : JobId) (job : LiveJob)
    (hjob : scheduler.registry.find? id = some job) (card : Card) (hcard : card ∈ job.board.cards) :
    card.resources ≤ scheduler.slots.total := by
  obtain ⟨submission, hsubmission, hcourse⟩ := h.course id job hjob
  obtain ⟨-, hsound⟩ := h.orderly.sound.jobs id job hjob
  obtain ⟨declared, hdeclared, hresources, -⟩ := hsound.sizes (hsound.board.wired.card_id_of_mem hcard)
  rw [hcourse.submitted] at hdeclared
  rw [hresources, h.total]
  exact (hall submission (List.mem_of_getElem? hsubmission)).fits declared
    (List.mem_of_getElem? hdeclared)

-- As long as a job is live, an execution is outstanding: nothing waits for a client, and
-- what waits for a worker fits.
theorem InPlay.exists_outstanding (hall : ∀ submission ∈ batch.jobs, Config.Runnable batch.limits submission)
    {count : Nat} {exchange : Exchange} (h : batch.InPlay count exchange)
    (hexit : .exit ∉ exchange.given) : ∃ execution ∈ exchange.executions, execution.isOutstanding := by
  by_contra hover
  have hs := h.faithful.orderly.sound
  have hidle (id : JobId) (job : LiveJob) (hjob : exchange.scheduler.registry.find? id = some job) :
      job.board.running.toList = [] := by
    refine List.eq_nil_iff_forall_not_mem.mpr fun task htask => hover ?_
    obtain ⟨hid, hsound⟩ := hs.jobs id job hjob
    have htaskJob : task.job = id :=
      (Board.job_eq_of_placeOf (hsound.board.partitioned.mem_running_iff.mp htask)).trans hid
    obtain ⟨execution, hmem, houtstanding, -⟩ := Execution.mem_outstanding_iff.mp
      ((h.faithful.tracks.outstanding task).mpr ⟨job, htaskJob ▸ hjob, htask⟩)
    exact ⟨execution, hmem, houtstanding⟩
  refine hexit (h.exit.mpr (SortedMap.isEmpty_iff.mpr fun id =>
    Option.eq_none_iff_forall_ne_some.mpr fun job hjob => ?_))
  obtain ⟨submission, hsubmission, hcourse⟩ := h.underway.course id job hjob
  obtain ⟨task, htask⟩ := List.exists_mem_of_ne_nil _ (Scheduler.exists_paused_of_idle
    h.faithful.orderly h.faithful.counted h.starved (h.underway.fits hall) hidle id job hjob)
  exact hcourse.unpaused task ((hs.jobs id job hjob).2.board.partitioned.mem_paused_iff.mp htask)

theorem nodup_nth {count : Nat} (hcount : count ≤ 2 ^ 64) : ((List.range count).map JobId.nth).Nodup := by
  refine List.nodup_range.map_on fun a ha b hb heq => ?_
  have hbelow {index : Nat} (hindex : index ∈ List.range count) : index < 2 ^ 64 :=
    Nat.lt_of_lt_of_le (List.mem_range.mp hindex) hcount
  exact (JobId.toNat_nth (hbelow ha)).symm.trans ((JobId.eq_nth_iff (hbelow hb)).mp heq)

-- When no job is live any more, all have ended, and all slots are free.
theorem InPlay.all_ended (hcount : batch.jobs.length < 2 ^ 64) {count : Nat} {exchange : Exchange}
    (h : batch.InPlay count exchange) (hexit : .exit ∈ exchange.given) :
    exchange.scheduler.slots.free = batch.limits.resources ∧
      (exchange.summaries.map Summary.id).Perm ((List.range batch.jobs.length).map .nth) ∧
      ∀ summary ∈ exchange.summaries, batch.Fair summary := by
  have hnone (id : JobId) : exchange.scheduler.registry.find? id = none :=
    SortedMap.isEmpty_iff.mp (h.exit.mp hexit) id
  refine ⟨?_, ?_, h.underway.fair⟩
  · rw [h.faithful.counted.free_of_idle fun id job hjob => by simp [hnone] at hjob]
    exact h.underway.total
  · refine (List.perm_ext_iff_of_nodup h.underway.nodup (nodup_nth (Nat.le_of_lt hcount))).mpr fun id => ?_
    rw [h.underway.ended, and_iff_left (hnone id), List.mem_map]
    refine ⟨fun hlt => ⟨_, List.mem_range.mpr hlt, id.nth_toNat⟩, ?_⟩
    rintro ⟨index, hindex, rfl⟩
    rw [JobId.toNat_nth (Nat.lt_trans (List.mem_range.mp hindex) hcount)]
    exact List.mem_range.mp hindex

-- An accepted file can be run to the end if no job pauses on errors. It has fewer jobs than
-- there are ids, as any list that fits in memory. Its jobs are accepted in the order of their
-- names. Whichever reports come, and in whichever order: an execution is outstanding as long
-- as the scheduler does not ask to exit, and no more of them report than the tasks may use.
-- Then each job has ended, once and as it should.
theorem runs_to_end {config : Config} {batch : Batch} (hvalid : config.validate = .ok batch)
    (hcount : batch.jobs.length < 2 ^ 64)
    (hnone : ∀ submission ∈ batch.jobs, submission.pauseOnError = false) :
    (batch.jobs.map Submission.name).Pairwise (fun a b => compare a b = .lt) ∧
    (∀ index submission, batch.jobs[index]? = some submission →
      (((Scheduler.new batch.limits.resources).reached ((batch.jobs.take index).map .submit)).run
        (SchedulerM.submit submission)).1 = .ok (.nth index)) ∧
    ∀ count exchange, batch.Played count exchange →
      count ≤ batch.executions ∧
      (.exit ∉ exchange.given → ∃ execution ∈ exchange.executions, execution.isOutstanding) ∧
      (.exit ∈ exchange.given →
        exchange.scheduler.slots.free = batch.limits.resources ∧
        (exchange.summaries.map Summary.id).Perm ((List.range batch.jobs.length).map .nth) ∧
        ∀ summary ∈ exchange.summaries, batch.Fair summary) := by
  obtain ⟨hjobs, -, hall⟩ := Config.of_validate hvalid
  refine ⟨hjobs ▸ config.increasing_names, fun index submission hsubmission => ?_,
    fun count exchange hplayed => ?_⟩
  · obtain ⟨hlt, -⟩ := List.getElem?_eq_some_iff.mp hsubmission
    have hrunnable := hall submission (List.mem_of_getElem? hsubmission)
    exact ((joined_reached hcount hall index (Nat.le_of_lt hlt)).submit (Nat.lt_trans hlt hcount)
      hsubmission hrunnable).1
  · have hinPlay := hplayed.inPlay hcount hall hnone
    exact ⟨Nat.le_trans (Nat.le_add_right _ _) hinPlay.underway.left, hinPlay.exists_outstanding hall,
      hinPlay.all_ended hcount⟩

-- A file with a job of two tasks, of which the second one comes after the first.
def releaseFile : Config :=
  ⟨⟨2, 64⟩, ⟨[("release", ⟨.normal, .taskFlow, false, false,
    ⟨[("a", ⟨"make", [], 1, false, 1⟩), ("b", ⟨"make test", ["a"], 1, false, 1⟩)],
      List.pairwise_pair.mpr rfl⟩⟩)], List.pairwise_singleton _ _⟩⟩

theorem validate_releaseFile : releaseFile.validate = .ok ⟨⟨2, 64⟩, [Scheduler.release]⟩ := by
  have hsubmissions : releaseFile.submissions = [Scheduler.release] := rfl
  have hcheck : Config.checkJob releaseFile.limits Scheduler.release = .ok () := by
    rw [Config.checkJob, Scheduler.resolve_release]
    rfl
  simp only [Config.validate, hsubmissions, List.forM_eq_forM, List.forM_cons, hcheck]
  rfl

-- Both tasks run, one after the other.
theorem runs_to_end_releaseFile :
    let batch : Batch := ⟨⟨2, 64⟩, [Scheduler.release]⟩
    releaseFile.validate = .ok batch ∧ batch.jobs.length < 2 ^ 64 ∧
      (∀ submission ∈ batch.jobs, submission.pauseOnError = false) ∧
      ∃ exchange, batch.Played batch.executions exchange ∧ .exit ∈ exchange.given ∧
        exchange.scheduler.slots.free = 2 ∧ (exchange.summaries.map Summary.id).Perm [⟨0⟩] := by
  intro batch
  have hcount : batch.jobs.length < 2 ^ 64 := by decide
  have hnone : ∀ submission ∈ batch.jobs, submission.pauseOnError = false := by decide
  have hsubmitted : batch.submitted =
      ⟨(Scheduler.new 2).planned Scheduler.release (Scheduler.release.plan ⟨0⟩), [], []⟩ := by
    rw [submitted_eq]
    exact congrArg (Exchange.mk · [] []) (Scheduler.reached_submit (.new 2) Scheduler.resolve_release [])
  have hall := (Config.of_validate validate_releaseFile).2.2
  have hgoesOn {count exchange} (hplayed : batch.Played count exchange)
      (hlive : exchange.scheduler.registry.live.isEmpty = false) : .exit ∉ exchange.given := fun hexit => by
    rw [(hplayed.inPlay hcount hall hnone).exit, hlive] at hexit
    cases hexit
  have hstart : batch.Played 0 _ := .kickoff
  rw [hsubmitted] at hstart
  have hfirst : batch.Played 1 _ :=
    .report [] ⟨⟨⟨0⟩, 0⟩, 1, false, false⟩ [] (.success ⟨⟨0⟩, 0⟩ "") hstart
      (hgoesOn hstart (by decide +kernel)) (by decide +kernel) rfl
  have hsecond : batch.Played 2 _ :=
    .report [⟨⟨⟨0⟩, 0⟩, 1, true, false⟩] ⟨⟨⟨0⟩, 1⟩, 1, false, false⟩ [] (.success ⟨⟨0⟩, 1⟩ "") hfirst
      (hgoesOn hfirst (by decide +kernel)) (by decide +kernel) rfl
  have hexit := (hsecond.inPlay hcount hall hnone).exit.mpr (by decide +kernel)
  obtain ⟨-, -, hruns⟩ := runs_to_end validate_releaseFile hcount hnone
  obtain ⟨hfree, hended, -⟩ := (hruns 2 _ hsecond).2.2 hexit
  exact ⟨validate_releaseFile, hcount, hnone, _, hsecond, hexit, hfree, hended⟩

end Batch

end JobScheduler
