import JobScheduler.Proofs.Config.Validate
import JobScheduler.Proofs.Exchange.Faithful
import JobScheduler.Proofs.Job.Record

namespace JobScheduler

-- The id of the job that is handed in after so many others, as long as ids are left.
def JobId.nth (index : Nat) : JobId := ⟨.ofNat index⟩

theorem JobId.toNat_nth {index : Nat} (h : index < 2 ^ 64) : (nth index).number.toNat = index :=
  UInt64.toNat_ofNat_of_lt' h

theorem JobId.nth_toNat (id : JobId) : nth id.number.toNat = id :=
  congrArg mk (UInt64.ofNat_toNat)

theorem JobId.eq_nth_iff {id : JobId} {index : Nat} (h : index < 2 ^ 64) :
    id = nth index ↔ id.number.toNat = index :=
  ⟨fun heq => heq ▸ toNat_nth h, fun heq => heq ▸ (nth_toNat id).symm⟩

namespace Scheduler

section Serves

variable {accepts : Card → Bool} {ids : List JobId} {scheduler final : Scheduler}
  {assignments : List Assignment} (h : Serves accepts ids scheduler assignments final)
  (hs : scheduler.Sound)
include h hs

-- A pass uses no executions.
theorem Serves.executionsLeft :
    final.registry.live.total LiveJob.executionsLeft =
      scheduler.registry.live.total LiveJob.executionsLeft := by
  induction h with
  | spent => rfl
  | gone _ _ ih => exact ih (hs.queued _)
  | @job job rest scheduler assignments final hjob _ ih =>
      refine (ih (hs.attended accepts hjob)).trans ?_
      have htotal := SortedMap.total_insert LiveJob.executionsLeft scheduler.registry.live
        (job.served (scheduler.selection accepts job)).id (job.served (scheduler.selection accepts job))
      have hid : (job.served (scheduler.selection accepts job)).id = job.id :=
        (LiveJob.advances_served (hs.live hjob) accepts scheduler.slots.free).id
      have hfind : scheduler.registry.live.find? job.id = some job := hjob
      rw [LiveJob.executionsLeft_served, hid, hfind] at htotal
      have hregistry : (scheduler.attended accepts job).registry.live =
          scheduler.registry.live.insert job.id (job.served (scheduler.selection accepts job)) := by
        rw [← hid]
        rfl
      rw [hregistry]
      simpa using htotal

end Serves

-- The report of a running task is taken up, and its job goes on or ends.
theorem Reaction.of_runs {scheduler final : Scheduler} (hs : scheduler.Sound) {task : TaskId}
    (hruns : scheduler.Runs task) {result : TaskResult} {answer : Except Fault (List Command)}
    (h : scheduler.Reaction (.completed task result) answer final) :
    ∃ job fate job' given, scheduler.registry.find? job.id = some job ∧
      job.board.placeOf task = .ok .running ∧ job.Advances job' ∧
      job.Outcome (.completed task result) fate job' ∧
      ((∃ cancelled, fate = .goesOn cancelled ∧ commandsOf answer = Command.cancelling cancelled ∧
          final = scheduler.wentOn job' given) ∨
        ∃ status cancelled, fate = .ends status cancelled ∧
          commandsOf answer = Command.cancelling cancelled ++
            (Command.cancelling job'.board.running.toList ++ [.ended (job'.closing status)]) ∧
          final = (scheduler.turned job' given).closed job' status) := by
  have hreported : task ∈ (Event.completed task result).reported := List.mem_singleton.mpr rfl
  obtain ⟨job, work, hattends, -, hrunning⟩ := hruns.attends hs hreported
  have hsound := hs.live hattends.2
  have houtcome {fate : Fate} {job' : LiveJob} {slots : Slots}
      (hdone : work ⟨job, scheduler.slots⟩ = .ok fate ⟨job', slots⟩) :
      job.Outcome (.completed task result) fate job' :=
    LiveJob.outcome_of_work? hsound hattends.1 rfl hdone
  cases h with
  | refused _ hrefused =>
      obtain ⟨fate, desk, haccepted⟩ :=
        LiveJob.accepts_report hsound hattends.1 hreported hrunning scheduler.slots
      obtain ⟨fault, herror⟩ := hrefused job work hattends
      rw [haccepted] at herror
      cases herror
  | ignored hignored =>
      exact absurd hrunning ((houtcome (hignored job work hattends)).not_running_of_untouched hreported)
  | joined hevent => cases hevent
  | @wentOn _ _ job' given cancelled hattends' hturn hdone =>
      obtain ⟨rfl, rfl⟩ := hattends.unique hattends'
      exact ⟨_, _, job', given, hattends.2, hrunning, hturn.advances, houtcome hdone,
        .inl ⟨cancelled, rfl, rfl, rfl⟩⟩
  | @ended _ _ job' given status cancelled hattends' hturn hdone =>
      obtain ⟨rfl, rfl⟩ := hattends.unique hattends'
      exact ⟨_, _, job', given, hattends.2, hrunning, hturn.advances, houtcome hdone,
        .inr ⟨status, cancelled, rfl, rfl, rfl⟩⟩

end Scheduler

namespace Batch

-- The executions that the tasks of a batch may use, all together.
def executions (batch : Batch) : Nat :=
  ((batch.jobs.flatMap Submission.tasks).map Submission.Task.maxExecutions).sum

-- How a job ends that runs undisturbed: the first failure cancels it if it asks for that.
def Fair (batch : Batch) (summary : Summary) : Prop :=
  ∀ submission, batch.jobs[summary.id.number.toNat]? = some submission →
    summary.status =
      if submission.cancelOnError ∧ .faulty ∈ summary.tasks.values then .canceled else .finished

-- The jobs of a batch when `count` executions have reported: some have ended, and the
-- others are on their course.
structure Underway (batch : Batch) (count : Nat) (summaries : List Summary) (scheduler : Scheduler) :
    Prop where
  orderly : scheduler.Orderly
  pending : scheduler.pending = []
  total : scheduler.slots.total = batch.limits.resources
  course : ∀ id job, scheduler.registry.find? id = some job →
    ∃ submission, batch.jobs[id.number.toNat]? = some submission ∧ job.OnCourse submission
  left : count + scheduler.registry.live.total LiveJob.executionsLeft ≤ batch.executions
  nodup : (summaries.map Summary.id).Nodup
  ended : ∀ id, id ∈ summaries.map Summary.id ↔
    id.number.toNat < batch.jobs.length ∧ scheduler.registry.find? id = none
  fair : ∀ summary ∈ summaries, batch.Fair summary

variable {batch : Batch} {count : Nat} {summaries : List Summary} {scheduler : Scheduler}

-- A job that is left alone ends as it should.
theorem fair_closing {job : LiveJob} (hs : job.Sound) {submission : Submission}
    (hsubmission : batch.jobs[job.id.number.toNat]? = some submission) (hsame : job.submission = submission) :
    batch.Fair (job.closing job.endStatus) := by
  intro declared hdeclared
  rw [job.closing_id, hsubmission, Option.some.injEq] at hdeclared
  subst hdeclared
  change job.endStatus = _
  rw [LiveJob.endStatus, hsame]
  simp only [LiveJob.faulty_mem_closing hs]

section Steps

variable (h : batch.Underway count summaries scheduler)
include h

theorem Underway.finishStep (policy : Policy) (commands : List Command) :
    batch.Underway count summaries (scheduler.finishStep policy commands).2 := by
  have horderly := Scheduler.orderly_finishStep h.orderly policy commands
  obtain ⟨assignments, final, hserves, hfinal, -⟩ :=
    Scheduler.finishStep_eq h.orderly.sound policy commands
  have hclear : ({ scheduler with pending := [] } : Scheduler).Sound := h.orderly.sound.cleared
  rw [hfinal] at horderly ⊢
  refine ⟨horderly, (hserves.starts policy.accepts hclear).pending, ?_, ?_, ?_, h.nodup, fun id => ?_,
    h.fair⟩
  · exact hserves.slots_total.trans h.total
  · refine hserves.live (motive := fun id job => ∃ submission,
      batch.jobs[id.number.toNat]? = some submission ∧ job.OnCourse submission) hclear ?_ h.course
    rintro id job hsound ⟨submission, hsubmission, hcourse⟩ budget
    exact ⟨submission, hsubmission, hcourse.served hsound policy.accepts budget⟩
  · rw [hserves.executionsLeft hclear]
    exact h.left
  · rw [h.ended, hserves.find?_eq_none_iff hclear]

section Report

variable {job job' : LiveJob} {submission : Submission} {final : Scheduler}
  (hjob : scheduler.registry.find? job.id = some job)
  (hsubmission : batch.jobs[job.id.number.toNat]? = some submission)
  (horderly : final.Orderly) (hpending : final.pending = scheduler.pending)
  (htotal : final.slots.total = scheduler.slots.total)
include hjob hsubmission horderly hpending htotal

-- A job has gone on and used an execution.
theorem Underway.goesOn (hlive : final.registry.live = scheduler.registry.live.insert job.id job')
    (hcourse : job'.OnCourse submission) (hless : job'.executionsLeft < job.executionsLeft) :
    batch.Underway (count + 1) summaries final := by
  have hfind (id : JobId) : final.registry.find? id =
      if id = job.id then some job' else scheduler.registry.find? id := by
    rw [Registry.find?, hlive]
    exact SortedMap.find?_insert _ _ _ _
  refine ⟨horderly, hpending.trans h.pending, htotal.trans h.total, fun id other hother => ?_, ?_,
    h.nodup, fun id => ?_, h.fair⟩
  · rw [hfind] at hother
    split at hother
    · rename_i hid
      cases hother
      exact ⟨submission, hid ▸ hsubmission, hcourse⟩
    · exact h.course id other hother
  · have hinsert := SortedMap.total_insert LiveJob.executionsLeft scheduler.registry.live job.id job'
    have hfound : scheduler.registry.live.find? job.id = some job := hjob
    rw [hfound, Option.map_some, Option.getD_some] at hinsert
    have hleft := h.left
    rw [hlive]
    omega
  · rw [h.ended, hfind]
    split
    · rename_i hid
      simp [hid, hjob]
    · exact Iff.rfl

-- A job has ended.
theorem Underway.ends (hlive : final.registry.live = scheduler.registry.live.erase job.id)
    (hless : 0 < job.executionsLeft) {summary : Summary} (hid : summary.id = job.id)
    (hfair : batch.Fair summary) : batch.Underway (count + 1) (summaries ++ [summary]) final := by
  have hfind (id : JobId) : final.registry.find? id =
      if id = job.id then none else scheduler.registry.find? id := by
    rw [Registry.find?, hlive]
    exact SortedMap.find?_erase _ _ _
  have hnew : job.id ∉ summaries.map Summary.id := fun hmem => by
    have hnone := ((h.ended job.id).mp hmem).2
    rw [hjob] at hnone
    cases hnone
  refine ⟨horderly, hpending.trans h.pending, htotal.trans h.total, fun id other hother => ?_, ?_, ?_,
    fun id => ?_, fun other hother => ?_⟩
  · rw [hfind] at hother
    split at hother
    · cases hother
    · exact h.course id other hother
  · have herase := SortedMap.total_erase LiveJob.executionsLeft scheduler.registry.live job.id
    have hfound : scheduler.registry.live.find? job.id = some job := hjob
    rw [hfound, Option.map_some, Option.getD_some] at herase
    have hleft := h.left
    rw [hlive]
    omega
  · rw [List.map_append, List.map_singleton, hid]
    refine List.nodup_append.mpr ⟨h.nodup, by simp, fun id hold other hother heq => ?_⟩
    rw [List.mem_singleton.mp hother] at heq
    exact hnew (heq ▸ hold)
  · rw [List.map_append, List.mem_append, h.ended, hfind]
    by_cases hsame : id = job.id
    · obtain ⟨hlt, -⟩ := List.getElem?_eq_some_iff.mp hsubmission
      simp [hsame, hid, hlt]
    · simp [hsame, hid]
  · rcases List.mem_append.mp hother with hold | hlast
    · exact h.fair other hold
    · rw [List.mem_singleton.mp hlast]
      exact hfair

end Report

-- A running task has been executed once more.
theorem Underway.reaction (hnone : ∀ submission ∈ batch.jobs, submission.pauseOnError = false)
    {task : TaskId} (hruns : scheduler.Runs task) {result : TaskResult}
    {answer : Except Fault (List Command)} {final : Scheduler}
    (hreaction : scheduler.Reaction (.completed task result) answer final) (horderly : final.Orderly)
    (htotal : final.slots.total = scheduler.slots.total) :
    batch.Underway (count + 1)
      (summaries ++ (Scheduler.commandsOf answer).filterMap Command.summary?) final := by
  have hs := h.orderly.sound
  have hpending := hreaction.pending_eq
  obtain ⟨job, fate, job', given, hjob, hrunning, hadvances, houtcome, hends⟩ :=
    hreaction.of_runs hs hruns
  obtain ⟨submission, hsubmission, hcourse⟩ := h.course _ job hjob
  have hcourse := hcourse.course (hs.live hjob) (hnone submission (List.mem_of_getElem? hsubmission))
    hrunning houtcome
  have hid := hadvances.id
  rcases hends with ⟨cancelled, rfl, hcommands, rfl⟩ | ⟨status, cancelled, rfl, hcommands, rfl⟩
  · cases hcourse with
    | goesOn hkept hless =>
        rw [hcommands, Command.filterMap_summary?_cancelling, List.append_nil]
        refine h.goesOn hjob hsubmission horderly hpending htotal ?_ hkept hless
        rw [← hid]
        rfl
  · cases hcourse with
    | ends hsame hless =>
        have hended : [Command.ended (job'.closing job'.endStatus)].filterMap Command.summary? =
            [job'.closing job'.endStatus] := rfl
        rw [hcommands, List.filterMap_append, List.filterMap_append,
          Command.filterMap_summary?_cancelling, Command.filterMap_summary?_cancelling, hended]
        refine h.ends hjob hsubmission horderly hpending htotal ?_ hless
          ((job'.closing_id job'.endStatus).trans hid)
          (fair_closing hadvances.sound (hid ▸ hsubmission) hsame)
        refine SortedMap.ext_find? fun id => ?_
        refine (Scheduler.find?_closed scheduler job' given job'.endStatus id).trans ?_
        rw [SortedMap.find?_erase, hid]
        rfl

theorem Underway.completed (hnone : ∀ submission ∈ batch.jobs, submission.pauseOnError = false)
    {task : TaskId} (hruns : scheduler.Runs task) (result : TaskResult) :
    let handled := scheduler.run (SchedulerM.handle (.completed task result))
    batch.Underway (count + 1)
      (summaries ++ (Scheduler.commandsOf handled.1).filterMap Command.summary?) handled.2 := by
  have hs := h.orderly.sound
  have hperforms := Scheduler.performs_any hs (.step (.acceptAll true) (.completed task result))
  exact h.reaction hnone hruns (SchedulerM.reacts_handle hs _) (Scheduler.orderly_handle h.orderly _)
    (hperforms.handled.sound hs).2

end Steps

section Joined

-- The first jobs of a batch have been handed in.
structure Joined (batch : Batch) (count : Nat) (scheduler : Scheduler) : Prop where
  orderly : scheduler.Orderly
  pending : scheduler.pending = []
  total : scheduler.slots.total = batch.limits.resources
  nextId : ⟨scheduler.registry.nextId⟩ = JobId.nth count
  live : ∀ id, (scheduler.registry.find? id).isSome ↔ id.number.toNat < count
  course : ∀ id job, scheduler.registry.find? id = some job →
    ∃ submission, batch.jobs[id.number.toNat]? = some submission ∧ job.OnCourse submission
  left : scheduler.registry.live.total LiveJob.executionsLeft =
    ((batch.jobs.take count).flatMap (·.tasks.map Submission.Task.maxExecutions)).sum

theorem joined_new (batch : Batch) : batch.Joined 0 (.new batch.limits.resources) where
  orderly := Scheduler.orderly_new _
  pending := rfl
  total := rfl
  nextId := rfl
  live _ := iff_of_false Bool.false_ne_true (Nat.not_lt_zero _)
  course _ _ hjob := by cases hjob
  left := rfl

-- The next job is accepted under the next id.
theorem Joined.submit {count : Nat} {scheduler : Scheduler} (h : batch.Joined count scheduler)
    (hcount : count < 2 ^ 64) {submission : Submission} (hnext : batch.jobs[count]? = some submission)
    (hrunnable : Config.Runnable batch.limits submission) :
    (scheduler.run (SchedulerM.submit submission)).1 = .ok (.nth count) ∧
      batch.Joined (count + 1) (scheduler.run (SchedulerM.submit submission)).2 := by
  obtain ⟨job, hnew⟩ := LiveJob.exists_new_of_resolve hrunnable.resolves ⟨scheduler.registry.nextId⟩
  have hrun := Scheduler.run_of_ok (SchedulerM.submit_of_new hnew)
  have horderly := Scheduler.orderly_perform h.orderly (.submit submission)
  obtain ⟨hcourse, hleft⟩ := LiveJob.onCourse_of_new hnew
  have hid := (LiveJob.fresh_of_new hnew).id
  rw [h.nextId] at hid
  have hlive : scheduler.registry.find? (.nth count) = none := by
    rw [← Option.not_isSome_iff_eq_none, h.live, JobId.toNat_nth hcount]
    exact Nat.lt_irrefl _
  rw [Scheduler.perform, hrun] at horderly
  rw [hrun]
  have hfind (id : JobId) : (scheduler.joined job).registry.find? id =
      if id = .nth count then some job else scheduler.registry.find? id := by
    rw [Scheduler.find?_joined, hid]
  have hafter : ⟨scheduler.registry.nextId + 1⟩ = JobId.nth (count + 1) := by
    rw [JobId.nth, UInt64.ofNat_add]
    exact congrArg (fun id : JobId => JobId.mk (id.number + 1)) h.nextId
  refine ⟨by rw [hid], horderly, h.pending, h.total, hafter, fun id => ?_, fun id other hother => ?_, ?_⟩
  · rw [hfind, Nat.lt_succ_iff_lt_or_eq, ← h.live]
    by_cases hsame : id = .nth count
    · rw [if_pos hsame]
      exact iff_of_true rfl (.inr ((JobId.eq_nth_iff hcount).mp hsame))
    · rw [if_neg hsame, or_iff_left fun heq => hsame ((JobId.eq_nth_iff hcount).mpr heq)]
  · rw [hfind] at hother
    split at hother
    · rename_i hsame
      cases hother
      exact ⟨submission, by rw [hsame, JobId.toNat_nth hcount]; exact hnext, hcourse⟩
    · exact h.course id other hother
  · have hinsert := SortedMap.total_insert LiveJob.executionsLeft scheduler.registry.live job.id job
    have hnone : scheduler.registry.live.find? job.id = none := hid ▸ hlive
    rw [hnone, Option.map_none, Option.getD_none] at hinsert
    obtain ⟨hlt, rfl⟩ := List.getElem?_eq_some_iff.mp hnext
    rw [List.take_succ_eq_append_getElem hlt, List.flatMap_append, List.sum_append, ← h.left]
    change (scheduler.registry.live.insert job.id job).total LiveJob.executionsLeft = _
    rw [Nat.add_zero] at hinsert
    rw [hinsert, hleft]
    simp

theorem joined_reached (hcount : batch.jobs.length < 2 ^ 64)
    (hall : ∀ submission ∈ batch.jobs, Config.Runnable batch.limits submission)
    (count : Nat) (hle : count ≤ batch.jobs.length) :
    batch.Joined count ((Scheduler.new batch.limits.resources).reached
      ((batch.jobs.take count).map .submit)) := by
  induction count with
  | zero => exact joined_new batch
  | succ count ih =>
      have hnext := List.getElem?_eq_getElem hle
      have hjoined := ((ih (Nat.le_of_succ_le hle)).submit (Nat.lt_trans hle hcount) hnext
        (hall _ (List.getElem_mem hle))).2
      rw [List.take_succ_eq_append_getElem hle, List.map_append, Scheduler.reached, List.foldl_append]
      exact hjoined

theorem Joined.underway {scheduler : Scheduler} (h : batch.Joined batch.jobs.length scheduler) :
    batch.Underway 0 [] scheduler where
  orderly := h.orderly
  pending := h.pending
  total := h.total
  course := h.course
  left := by
    rw [Nat.zero_add, h.left, List.take_length, executions, List.map_flatMap]
  nodup := List.nodup_nil
  ended id := by
    rw [← h.live]
    cases scheduler.registry.find? id <;> simp
  fair _ hsummary := by cases hsummary

end Joined

end Batch

end JobScheduler
