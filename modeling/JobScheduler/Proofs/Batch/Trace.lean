import JobScheduler.Proofs.Batch.Underway
import JobScheduler.Proofs.Job.Charge

namespace JobScheduler

namespace Scheduler

-- What a pass hands out bears the names that were submitted.
theorem Serves.named {accepts : Card → Bool} {ids : List JobId} {scheduler final : Scheduler}
    {assignments : List Assignment} (h : Serves accepts ids scheduler assignments final)
    (hs : scheduler.Sound) {assignment : Assignment} (hmem : assignment ∈ assignments) :
    ∃ job declared, scheduler.registry.find? assignment.task.job = some job ∧
      job.submission.tasks[assignment.task.index]? = some declared ∧
      assignment.job = job.submission.name ∧ assignment.name = declared.name := by
  induction h with
  | spent => cases hmem
  | gone _ _ ih => exact ih (hs.queued _) hmem
  | @job job rest scheduler assignments final hjob _ ih =>
      rcases List.mem_append.mp hmem with hfirst | hlater
      · obtain ⟨card, hcard, rfl⟩ := List.mem_map.mp hfirst
        have hlooked : card ∈ (scheduler.selection accepts job).considered :=
          (Selection.chosen_sublist accepts scheduler.slots.free job.board.eligibleCards).subset hcard
        obtain ⟨hfound, hid, -⟩ := card?_of_considered hs accepts hjob hlooked
        obtain ⟨other, hother, hok⟩ := card?_eq_some_iff.mp hfound
        rw [hid, hjob, Option.some.injEq] at hother
        subst hother
        obtain ⟨declared, hdeclared, hplanned⟩ := (hs.live hjob).planned (Board.Wired.mem_of_card hok)
        have hname : card.name = declared.name := by rw [Card.name, hplanned]; rfl
        exact ⟨job, declared, (congrArg _ hid).trans hjob, hdeclared, rfl, hname⟩
      · obtain ⟨other, declared, hother, hrest⟩ := ih (hs.attended accepts hjob) hlater
        rw [find?_attended hs accepts hjob] at hother
        split at hother
        · rename_i hid
          cases hother
          rw [(job.served_books _).1] at hrest
          exact ⟨job, declared, hid ▸ hjob, hrest⟩
        · exact ⟨other, declared, hother, hrest⟩

end Scheduler

namespace Batch

-- The task that stands under an id.
def declared? (batch : Batch) (id : TaskId) : Option Submission.Task :=
  (batch.jobs[id.job.number.toNat]?).bind (·.tasks[id.index]?)

-- A task is declared to come after another one of its job.
def ComesAfter (batch : Batch) (task parent : TaskId) : Prop :=
  task.job = parent.job ∧ ∃ declared before, batch.declared? task = some declared ∧
    batch.declared? parent = some before ∧ before.name ∈ declared.after

-- All tasks that have been handed out so far, in this order. Of the tasks of live jobs the
-- books of the job tell how often, and those of ended jobs have had what they need.
structure Traced (batch : Batch) (demand : TaskId → Nat) (trace : List TaskId) (scheduler : Scheduler) :
    Prop where
  charged : ∀ id job, scheduler.registry.find? id = some job → job.Charged demand (trace.count ·)
  finished : ∀ id, (batch.declared? id).isSome → scheduler.registry.find? id.job = none →
    trace.count id = demand id
  declared : ∀ id ∈ trace, (batch.declared? id).isSome
  ordered : trace.Pairwise fun earlier later => ¬batch.ComesAfter earlier later

variable {batch : Batch} {demand : TaskId → Nat} {trace : List TaskId} {scheduler : Scheduler}
  {count : Nat} {summaries : List Summary}

section Underway

variable (hu : batch.Underway count summaries scheduler)
include hu

-- The tasks of a live job are those that were declared.
theorem Underway.declared?_eq {id : JobId} {job : LiveJob} (hjob : scheduler.registry.find? id = some job)
    (index : Nat) : batch.declared? ⟨id, index⟩ = job.submission.tasks[index]? := by
  obtain ⟨submission, hsubmission, hcourse⟩ := hu.course id job hjob
  rw [declared?, hsubmission, hcourse.submitted]
  rfl

theorem Underway.exists_card {id : TaskId} {job : LiveJob}
    (hjob : scheduler.registry.find? id.job = some job) (hdeclared : (batch.declared? id).isSome) :
    ∃ card, job.board.card id = .ok card := by
  obtain ⟨hid, hsound⟩ := hu.orderly.sound.jobs _ job hjob
  obtain ⟨declared, hdeclared⟩ := Option.isSome_iff_exists.mp hdeclared
  exact hsound.exists_card hid.symm ((hu.declared?_eq hjob id.index).symm.trans hdeclared)

theorem Underway.declared_of_card {id : TaskId} {job : LiveJob}
    (hjob : scheduler.registry.find? id.job = some job) {card : Card} (hcard : job.board.card id = .ok card) :
    ∃ declared, batch.declared? id = some declared ∧ card.task.maxExecutions = declared.maxExecutions := by
  obtain ⟨-, hsound⟩ := hu.orderly.sound.jobs _ job hjob
  obtain ⟨declared, hdeclared, -, hmax⟩ := hsound.sizes hcard
  exact ⟨declared, (hu.declared?_eq hjob id.index).trans hdeclared, hmax⟩

theorem Underway.isSome_declared? {id : TaskId} {job : LiveJob}
    (hjob : scheduler.registry.find? id.job = some job) {place : Place}
    (hplace : job.board.placeOf id = .ok place) : (batch.declared? id).isSome := by
  obtain ⟨card, hcard, -⟩ := Board.placeOf_eq_ok_iff.mp hplace
  obtain ⟨declared, hdeclared, -⟩ := hu.declared_of_card hjob hcard
  exact Option.isSome_of_eq_some hdeclared

variable (h : batch.Traced demand trace scheduler)
include h

-- What has been handed out is not blocked.
theorem Traced.not_blocked {id : TaskId} {job : LiveJob} (hjob : scheduler.registry.find? id.job = some job)
    (hmem : id ∈ trace) : ∃ card, job.board.card id = .ok card ∧ card.place ≠ .blocked := by
  obtain ⟨card, hcard⟩ := hu.exists_card hjob (h.declared id hmem)
  refine ⟨card, hcard, fun hblocked => ?_⟩
  have hcharges := h.charged _ job hjob id _ (Board.placeOf_of_card hcard)
  rw [hblocked] at hcharges
  exact Nat.ne_of_gt (List.count_pos_iff.mpr hmem) hcharges.1

section Pass

variable {accepts : Card → Bool} {ids : List JobId} {final : Scheduler} {assignments : List Assignment}
  (hserves : Scheduler.Serves accepts ids scheduler assignments final)
include hserves

-- What a pass hands out was not done, so nothing that comes after it has been handed out.
theorem Traced.not_comesAfter {assignment : Assignment} (hmem : assignment ∈ assignments)
    {earlier : TaskId} (hearlier : earlier ∈ trace ++ assignments.map Assignment.task) :
    ¬batch.ComesAfter earlier assignment.task := by
  rintro ⟨hsame, declared, before, hdeclared, hbefore, hafter⟩
  have hs := hu.orderly.sound
  have hstarts := hserves.starts accepts hs
  obtain ⟨card, -, hcard, heligible, -⟩ := hstarts.started assignment hmem
  obtain ⟨job, hjob, hok⟩ := Scheduler.card?_eq_some_iff.mp hcard
  have hjob' : scheduler.registry.find? earlier.job = some job := hsame ▸ hjob
  obtain ⟨card', hcard', hopen⟩ : ∃ card', job.board.card earlier = .ok card' ∧ card'.place ≠ .blocked := by
    rcases List.mem_append.mp hearlier with htrace | hstarted
    · exact h.not_blocked hu hjob' htrace
    · obtain ⟨other, hother, rfl⟩ := List.mem_map.mp hstarted
      obtain ⟨card', -, hcard', heligible', -⟩ := hstarts.started other hother
      obtain ⟨job', hfind, hok'⟩ := Scheduler.card?_eq_some_iff.mp hcard'
      rw [hjob', Option.some.injEq] at hfind
      exact ⟨card', hfind ▸ hok', by simp [heligible']⟩
  obtain ⟨hid, hsound⟩ := hs.jobs _ job hjob
  obtain ⟨declared', hdeclared', hall⟩ := LiveJob.done_of_after hsound hcard' hopen
  rw [← hu.declared?_eq hjob'] at hdeclared'
  obtain rfl : declared = declared' := Option.some.inj (hdeclared.symm.trans hdeclared')
  have hparent := hu.declared?_eq hjob assignment.task.index
  have hdone := (hall before.name hafter).2 assignment.task.index before (hparent.symm.trans hbefore) rfl
  rw [hid, Board.placeOf_of_card hok, heligible] at hdone
  cases hdone

theorem Traced.charged_serves (id : JobId) (job' : LiveJob) (hjob' : final.registry.find? id = some job') :
    job'.Charged demand ((trace ++ assignments.map Assignment.task).count ·) := by
  intro task place hplace
  have hs := hu.orderly.sound
  have hstarts := hserves.starts accepts hs
  obtain ⟨old, hold, hexecutions⟩ := hserves.live
    (motive := fun id job => ∃ old, scheduler.registry.find? id = some old ∧ job.executions = old.executions)
    hs (fun _ job _ ⟨old, hold, heq⟩ _ => ⟨old, hold, (job.served_books _).2.trans heq⟩)
    (fun _ job hjob => ⟨job, hjob, rfl⟩) id job' hjob'
  have hused : job'.executionsUsed task = old.executionsUsed task := by
    rw [LiveJob.executionsUsed, LiveJob.executionsUsed, hexecutions]
  obtain ⟨card', hcard', rfl⟩ := Board.placeOf_eq_ok_iff.mp hplace
  obtain rfl : task.job = id :=
    (Board.job_eq_of_placeOf hplace).trans ((hserves.orderly hu.orderly).sound.jobs id job' hjob').1
  have hfinal : final.card? task = some card' := Scheduler.card?_eq_some_iff.mpr ⟨job', hjob', hcard'⟩
  have hbefore {card : Card} (hcard : scheduler.card? task = some card) :
      card.place.Charges (demand task) (trace.count task) (old.executionsUsed task) := by
    obtain ⟨job, hjob, hok⟩ := Scheduler.card?_eq_some_iff.mp hcard
    obtain rfl : old = job := Option.some.inj (hold.symm.trans hjob)
    exact h.charged _ old hold task _ (Board.placeOf_of_card hok)
  rw [hused]
  change card'.place.Charges (demand task) ((trace ++ assignments.map Assignment.task).count task) _
  rw [List.count_append]
  by_cases htask : task ∈ assignments.map Assignment.task
  · obtain ⟨assignment, hmem, rfl⟩ := List.mem_map.mp htask
    obtain ⟨card, _, hcard, heligible, -, hrunning, hplace', -⟩ := hstarts.started assignment hmem
    obtain rfl := Option.some.inj (hfinal.symm.trans hrunning)
    have hcharges := hbefore hcard
    rw [heligible] at hcharges
    rw [hplace', List.count_eq_one_of_mem hstarts.nodup htask]
    exact ⟨congrArg (· + 1) hcharges.1, hcharges.2⟩
  · obtain ⟨card, hcard, hpassed⟩ := hstarts.before htask hfinal
    rw [hpassed.place, List.count_eq_zero_of_not_mem htask]
    exact hbefore hcard

-- A pass adds to the trace what it hands out.
theorem Traced.serves : batch.Traced demand (trace ++ assignments.map Assignment.task) final where
  charged := h.charged_serves hu hserves
  finished id hdeclared hnone := by
    have hs := hu.orderly.sound
    rw [hserves.find?_eq_none_iff hs] at hnone
    have hfresh : id ∉ assignments.map Assignment.task := fun hmem => by
      obtain ⟨assignment, hassignment, rfl⟩ := List.mem_map.mp hmem
      obtain ⟨card, -, hcard, -⟩ := (hserves.starts accepts hs).started assignment hassignment
      obtain ⟨job, hjob, -⟩ := Scheduler.card?_eq_some_iff.mp hcard
      rw [hnone] at hjob
      cases hjob
    rw [List.count_append, List.count_eq_zero_of_not_mem hfresh]
    exact h.finished id hdeclared hnone
  declared id hmem := by
    rcases List.mem_append.mp hmem with hold | hnew
    · exact h.declared id hold
    · obtain ⟨assignment, hassignment, rfl⟩ := List.mem_map.mp hnew
      obtain ⟨job, declared, hjob, hdeclared, -⟩ := hserves.named hu.orderly.sound hassignment
      have hfound := hu.declared?_eq hjob assignment.task.index
      rw [hdeclared] at hfound
      exact Option.isSome_of_eq_some hfound
  ordered := by
    have hnever {later earlier : TaskId} (hlater : later ∈ assignments.map Assignment.task)
        (hearlier : earlier ∈ trace ++ assignments.map Assignment.task) : ¬batch.ComesAfter earlier later := by
      obtain ⟨assignment, hassignment, rfl⟩ := List.mem_map.mp hlater
      exact h.not_comesAfter hu hserves hassignment hearlier
    refine List.pairwise_append.mpr ⟨h.ordered, ?_, fun earlier hearlier later hlater =>
      hnever hlater (List.mem_append_left _ hearlier)⟩
    exact List.pairwise_of_forall_mem_list fun earlier hearlier later hlater =>
      hnever hlater (List.mem_append_right _ hearlier)

end Pass

section Job

variable {job job' : LiveJob} {final : Scheduler} (hcharged : job'.Charged demand (trace.count ·))
include hcharged

omit hu in
theorem Traced.goesOn (hfind : ∀ id, final.registry.find? id =
      if id = job'.id then some job' else scheduler.registry.find? id) : batch.Traced demand trace final where
  charged id other hother := by
    rw [hfind] at hother
    split at hother
    · cases hother
      exact hcharged
    · exact h.charged id other hother
  finished id hdeclared hnone := by
    rw [hfind] at hnone
    split at hnone
    · cases hnone
    · exact h.finished id hdeclared hnone
  declared := h.declared
  ordered := h.ordered

-- A job ends with which there is nothing left to do.
theorem Traced.ends (hjob : scheduler.registry.find? job.id = some job) (hadvances : job.Advances job')
    (hcomplete : job'.board.isComplete)
    (hfind : ∀ id, final.registry.find? id =
      if id = job'.id then none else scheduler.registry.find? id) : batch.Traced demand trace final where
  charged id other hother := by
    rw [hfind] at hother
    split at hother
    · cases hother
    · exact h.charged id other hother
  finished id hdeclared hnone := by
    rw [hfind] at hnone
    split at hnone
    · rename_i hmine
      obtain ⟨declared, hdeclared⟩ := Option.isSome_iff_exists.mp hdeclared
      rw [hu.declared?_eq (hmine.trans hadvances.id ▸ hjob), ← hadvances.tasks] at hdeclared
      obtain ⟨card, hcard⟩ := hadvances.sound.exists_card hmine hdeclared
      exact hcharged.of_isComplete hadvances.sound.board hcomplete (Board.placeOf_of_card hcard)
    · exact h.finished id hdeclared hnone
  declared := h.declared
  ordered := h.ordered

end Job

section Reaction

variable (hcalm : ∀ submission ∈ batch.jobs,
    submission.cancelOnError = false ∧ submission.pauseOnError = false)
  (hpos : ∀ id, (batch.declared? id).isSome → 0 < demand id)
  {task : TaskId} {result : TaskResult} (hruns : scheduler.Runs task)
  (hagain : ∀ declared used, batch.declared? task = some declared → trace.count task = used + 1 →
    used < demand task →
    (result.hadException ∧ used + 1 < declared.maxExecutions ↔ used + 1 < demand task))
include hcalm hpos hruns hagain

-- A running task has reported, and runs again if it needs to. All that there may be to tell
-- is that its job has ended.
theorem Traced.reaction {answer : Except Fault (List Command)} {final : Scheduler}
    (hreaction : scheduler.Reaction (.completed task result) answer final) :
    batch.Traced demand trace final ∧
      ∃ newly : List Summary, Scheduler.commandsOf answer = newly.map Command.ended := by
  have hs := hu.orderly.sound
  obtain ⟨job, fate, job', given, hjob, hrunning, hadvances, houtcome, hends⟩ :=
    hreaction.of_runs hs hruns
  obtain ⟨submission, hsubmission, hcourse⟩ := hu.course _ job hjob
  have hsound := hs.live hjob
  have htask : task.job = job.id := Board.job_eq_of_placeOf hrunning
  obtain ⟨card, hcard, hplace⟩ := Board.placeOf_eq_ok_iff.mp hrunning
  obtain ⟨declared, hdeclared, hmax⟩ := hu.declared_of_card (htask ▸ hjob) hcard
  have hneeds (id : TaskId) (place : Place) (hid : job.board.placeOf id = .ok place) : 0 < demand id := by
    have hjob' : id.job = job.id := Board.job_eq_of_placeOf hid
    exact hpos id (hu.isSome_declared? (hjob' ▸ hjob) hid)
  have hcharged := h.charged _ job hjob
  obtain ⟨hhanded, hless⟩ := hcharged task .running hrunning
  have hretry : result.hadException ∧ job.mayRetry task card ↔ job.executionsUsed task + 1 < demand task := by
    rw [← hagain declared _ hdeclared hhanded hless, LiveJob.mayRetry,
      LiveJob.executionsUsed_consumeExecution (hsound.lt_length_executions hcourse hcard) rfl, if_pos rfl,
      hmax]
  obtain ⟨hcharged', hfate⟩ := hcharged.reported hsound hcourse hcard hplace hneeds
    (hcalm submission (List.mem_of_getElem? hsubmission)) hretry houtcome
  rcases hends with ⟨cancelled, rfl, hcommands, rfl⟩ | ⟨status, cancelled, rfl, hcommands, rfl⟩
  · obtain rfl : cancelled = [] := by simpa using hfate
    exact ⟨h.goesOn hcharged' (scheduler.find?_wentOn job' given), [], hcommands⟩
  · obtain ⟨⟨rfl, rfl⟩, hcomplete⟩ : (status = .finished ∧ cancelled = []) ∧ job'.board.isComplete := by
      simpa using hfate
    rw [hadvances.sound.board.running_of_isComplete hcomplete] at hcommands
    exact ⟨h.ends hu hcharged' hjob hadvances hcomplete (scheduler.find?_closed job' given .finished), [_],
      hcommands⟩

end Reaction

end Underway

section Submitted

variable (hcount : batch.jobs.length < 2 ^ 64)
  (hall : ∀ submission ∈ batch.jobs, Config.Runnable batch.limits submission)
include hall

-- The jobs of a batch are new when all have been handed in.
theorem new_of_reached {count : Nat} (hle : count ≤ batch.jobs.length) {id : JobId} {job : LiveJob}
    (hjob : ((Scheduler.new batch.limits.resources).reached
      ((batch.jobs.take count).map .submit)).registry.find? id = some job) :
    ∃ submission, LiveJob.new id submission = .ok job := by
  induction count with
  | zero => cases hjob
  | succ count ih =>
      have hle' := Nat.le_of_succ_le hle
      rw [List.take_succ_eq_append_getElem hle, List.map_append, Scheduler.reached, List.foldl_append] at hjob
      generalize hscheduler : (Scheduler.new batch.limits.resources).reached
        ((batch.jobs.take count).map .submit) = scheduler at ih
      rw [Scheduler.reached] at hscheduler
      rw [hscheduler] at hjob
      obtain ⟨new, hnew⟩ := LiveJob.exists_new_of_resolve (hall _ (List.getElem_mem hle)).resolves
        ⟨scheduler.registry.nextId⟩
      change (scheduler.run (SchedulerM.submit _)).2.registry.find? id = some job at hjob
      rw [Scheduler.run_of_ok (SchedulerM.submit_of_new hnew), Scheduler.find?_joined] at hjob
      split at hjob
      · rename_i hid
        cases hjob
        rw [hid, (LiveJob.fresh_of_new hnew).id]
        exact ⟨_, hnew⟩
      · exact ih hle' hjob

include hcount in
theorem traced_submitted (hpos : ∀ id, (batch.declared? id).isSome → 0 < demand id) :
    batch.Traced demand []
      ((Scheduler.new batch.limits.resources).reached (batch.jobs.map .submit)) := by
  have hjoined := joined_reached hcount hall batch.jobs.length (Nat.le_refl _)
  rw [List.take_length] at hjoined
  have hu := hjoined.underway
  refine ⟨fun id job hjob => ?_, fun id hdeclared hnone => ?_, by simp, .nil⟩
  · obtain ⟨submission, hnew⟩ := new_of_reached hall (Nat.le_refl _) (by rwa [List.take_length])
    refine LiveJob.charged_of_new hnew fun task place hplace => ?_
    obtain rfl : task.job = id :=
      (Board.job_eq_of_placeOf hplace).trans (hu.orderly.sound.jobs id job hjob).1
    exact hpos task (hu.isSome_declared? hjob hplace)
  · have hlt : ¬id.job.number.toNat < batch.jobs.length := by
      rw [← hjoined.live, hnone]
      simp
    rw [declared?, List.getElem?_eq_none (Nat.not_lt.mp hlt)] at hdeclared
    cases hdeclared

end Submitted

end Batch

end JobScheduler
