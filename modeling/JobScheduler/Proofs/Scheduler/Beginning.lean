import JobScheduler.Proofs.Scheduler.Coherence
import JobScheduler.Proofs.Scheduler.Greedy
import JobScheduler.Proofs.Scheduler.Journal

namespace JobScheduler

namespace LiveJob

-- Some task of the job runs, is done or is held in error. A task that was started and has
-- to run again does not show it.
def ShowsStart (job : LiveJob) : Prop :=
  job.hasTasksInError ∨ 0 < job.board.counts.running ∨ 0 < job.board.counts.done

theorem showsStart_resumePaused_iff {job : LiveJob} (hs : job.Sound) :
    job.resumePaused.1.ShowsStart ↔ job.ShowsStart := by
  have hback : job.SameJob job.resumePaused.1 := sameJob_restate (· == .paused) .pending
  have hboard : job.resumePaused.1.board.Sound := board_restate hs (· == .paused) .pending
  have hplace {place : Place} (h : place ≠ .eligible ∧ place ≠ .paused) (task : TaskId) :
      job.resumePaused.1.board.placeOf task = .ok place ↔ job.board.placeOf task = .ok place :=
    placeOf_restate_of_fixed (· == .paused) .pending h task
  have herror (task : TaskId) :
      job.resumePaused.1.statusOf? task = some .inError ↔ job.statusOf? task = some .inError := by
    rw [resumePaused, statusOf?_restate]
    cases job.statusOf? task with
    | none => simp
    | some status => cases status <;> simp
  simp only [ShowsStart, hasTasksInError_iff, hback.id, herror, hboard.running_pos_iff,
    hs.board.running_pos_iff, hboard.done_pos_iff, hs.board.done_pos_iff,
    hplace (show Place.running ≠ .eligible ∧ Place.running ≠ .paused by simp),
    hplace (show Place.done ≠ .eligible ∧ Place.done ≠ .paused by simp)]

theorem status_resumed_eq_pending_iff {job : LiveJob} (hs : job.Sound) :
    job.resumed.status = .pending ↔ ¬job.ShowsStart := by
  rw [← showsStart_resumePaused_iff hs, ShowsStart]
  change DeskM.statusAfterResume job.resumePaused.1 = .pending ↔ _
  rw [DeskM.statusAfterResume]
  by_cases herror : job.resumePaused.1.hasTasksInError
  · simp [herror]
  · by_cases hcount : 0 < job.resumePaused.1.board.counts.running ∨ 0 < job.resumePaused.1.board.counts.done <;>
      simp [herror, hcount]

-- No event but a resumption sets a job going or takes it back to where it has not begun.
theorem Outcome.pending_iff {job job' : LiveJob} (hc : job.Coherent) {event : Event} {fate : Fate}
    (h : job.Outcome event fate job') (hevent : ∀ id, event ≠ .resume id) (hopen : job'.status ≠ .paused) :
    job.status ≠ .paused ∧ (job'.status = .pending ↔ job.status = .pending) := by
  have hsame {other : LiveJob} (heq : other.status = job.status) (hother : other.status ≠ .paused) :
      job.status ≠ .paused ∧ (other.status = .pending ↔ job.status = .pending) := by
    rw [heq] at hother ⊢
    exact ⟨hother, Iff.rfl⟩
  have hcleared {other : LiveJob} (heq : other.status = job.status)
      (hother : other.errorCleared.status ≠ .paused) :
      job.status ≠ .paused ∧ (other.errorCleared.status = .pending ↔ job.status = .pending) := by
    obtain ⟨status, hclear, hpaused, hpending, -⟩ := other.errorCleared_eq
    rw [hclear] at hother ⊢
    rw [heq] at hpaused hpending
    exact ⟨mt hpaused.mpr hother, hpending⟩
  cases h with
  | untouched => exact hsame rfl hopen
  | retried => exact hsame (requeued_status _ _ _) hopen
  | @heldInError task result card hcard hrunning =>
      have hstatus : _ = if job.status = .paused then _ else _ :=
        (job.consumeExecution task).heldInError_status task card result
      rw [hstatus] at hopen ⊢
      split at hopen
      · exact absurd rfl hopen
      · rename_i hnot
        -- A job that is pending has no running task.
        have hbegun : job.status ≠ .pending := fun hpending =>
          hc.pending hpending task ((Board.placeOf_of_card hcard).trans (congrArg Except.ok hrunning))
        rw [if_neg hnot]
        exact ⟨hnot, iff_of_false (by simp) hbegun⟩
  | canceled => exact hsame (terminated_status _ _ _ _ _) hopen
  | concluded => exact hsame (terminated_status _ _ _ _ _) hopen
  | lost => exact hsame (requeued_status _ _ _) hopen
  | held => exact absurd rfl hopen
  | resumed => exact absurd rfl (hevent _)
  | dropped => exact hsame rfl hopen
  | killed => exact hcleared (terminated_status _ _ _ _ _) hopen
  | restarted => exact hcleared (restarted_status _ _) hopen
  | finished => exact hcleared (terminated_status _ _ _ _ _) hopen
  | reprioritized => exact hsame rfl hopen

end LiveJob

-- What bears on whether a job counts as begun: one of its tasks is started, or it is held
-- and resumed.
inductive Sign
  | started (assignment : Assignment)
  | resumed (held : LiveJob)

namespace Sign

def Tells : Sign → Prop
  | .started _ => True
  | .resumed held => held.ShowsStart

-- The last sign decides.
def Told (signs : List Sign) : Prop := ∃ sign ∈ signs.getLast?, sign.Tells

theorem not_told_nil : ¬Told [] := by
  rintro ⟨sign, hsign, -⟩
  cases hsign

theorem told_concat_iff (signs : List Sign) (sign : Sign) : Told (signs ++ [sign]) ↔ sign.Tells := by
  simp [Told]

theorem told_append_started_iff (signs : List Sign) (assignments : List Assignment) :
    Told (signs ++ assignments.map .started) ↔ Told signs ∨ assignments ≠ [] := by
  rcases List.eq_nil_or_concat assignments with rfl | ⟨first, last, rfl⟩
  · simp
  · rw [List.concat_eq_append, List.map_append, ← List.append_assoc]
    exact iff_of_true ((told_concat_iff _ _).mpr trivial) (.inr (by simp))

end Sign

namespace Scheduler

-- All tasks that a run starts.
def assigned (scheduler : Scheduler) (operations : List Operation) : List Assignment :=
  scheduler.gathered (fun scheduler operation => Command.started (scheduler.perform operation).1) operations

-- The sign that an operation gives by resuming a job.
def resumption (scheduler : Scheduler) (id : JobId) (operation : Operation) : List Sign :=
  match scheduler.registry.find? id with
  | some job => if operation.resumes id ∧ job.status = .paused then [.resumed job] else []
  | none => []

-- All signs of a job that a run gives.
def signs (scheduler : Scheduler) (id : JobId) (operations : List Operation) : List Sign :=
  scheduler.gathered (fun scheduler operation => scheduler.resumption id operation ++
    ((Command.started (scheduler.perform operation).1).filter (·.task.job = id)).map .started) operations

theorem resumption_of_gone {scheduler : Scheduler} {id : JobId} (h : scheduler.registry.find? id = none)
    (operation : Operation) : scheduler.resumption id operation = [] := by
  simp only [resumption, h]

theorem resumption_of_open {scheduler : Scheduler} {id : JobId} {job : LiveJob}
    (hjob : scheduler.registry.find? id = some job) (hopen : job.status ≠ .paused) (operation : Operation) :
    scheduler.resumption id operation = [] := by
  simp [resumption, hjob, hopen]

-- Every start of one of its tasks is a sign of a job.
theorem exists_started_mem_signs_iff (scheduler : Scheduler) (id : JobId) (operations : List Operation) :
    (∃ assignment, .started assignment ∈ scheduler.signs id operations) ↔
      ∃ assignment ∈ scheduler.assigned operations, assignment.task.job = id := by
  have hresumed (scheduler : Scheduler) (operation : Operation) (assignment : Assignment) :
      .started assignment ∉ scheduler.resumption id operation := by
    unfold resumption
    split
    · split <;> simp
    · exact List.not_mem_nil
  refine exists_congr fun assignment => ?_
  rw [signs, assigned]
  induction operations generalizing scheduler with
  | nil => simp [gathered]
  | cons operation rest ih =>
      simp only [gathered, List.mem_append, hresumed, false_or, ih]
      simp [or_and_right]

section Steps

variable {scheduler : Scheduler} (horderly : scheduler.Orderly)
include horderly

-- The first start sets a job going.
theorem status_finishStep (policy : Policy) {commands : List Command}
    (hquiet : ∀ command ∈ commands, command.assignments = []) {id : JobId} {job' : LiveJob}
    (hjob' : (scheduler.finishStep policy commands).2.registry.find? id = some job') :
    ∃ job, scheduler.registry.find? id = some job ∧ job'.status =
      if job.status = .pending ∧
          ∃ assignment ∈ Command.started (scheduler.finishStep policy commands).1.commands,
            assignment.task.job = id
        then .running else job.status := by
  have hserves := serves_finishStep horderly.sound policy hquiet
  have hcleared : ({ scheduler with pending := [] } : Scheduler).Orderly :=
    ⟨horderly.sound.cleared, horderly.ordered⟩
  obtain ⟨hstarted, hwalked⟩ := hserves.walks_agenda hcleared
  have hlive : scheduler.registry.find? id ≠ none := fun hnone => by
    rw [(hserves.find?_eq_none_iff hcleared.sound id).mpr hnone] at hjob'
    cases hjob'
  obtain ⟨job, hjob⟩ := Option.ne_none_iff_exists'.mp hlive
  obtain ⟨rfl, -⟩ := horderly.sound.jobs id job hjob
  obtain ⟨other, hother, hmarked⟩ := hwalked.marked job ((mem_ranked_iff hcleared.sound).mpr hjob)
  rw [hjob', Option.some.injEq] at hother
  rw [hstarted, hother]
  exact ⟨job, hjob, hmarked.status⟩

theorem status_perform (operation : Operation) {id : JobId} {job' : LiveJob}
    (hjob' : (scheduler.perform operation).2.registry.find? id = some job') :
    ∃ job, (scheduler.handled operation).registry.find? id = some job ∧ job'.status =
      if job.status = .pending ∧
          ∃ assignment ∈ Command.started (scheduler.perform operation).1, assignment.task.job = id
        then .running else job.status := by
  have hnothing {job : LiveJob} {assignments : List Assignment} (hnone : assignments = []) :
      job.status = if job.status = .pending ∧ ∃ assignment ∈ assignments, assignment.task.job = id
        then .running else job.status := by
    simp [hnone]
  cases operation with
  | submit submission => exact ⟨job', hjob', hnothing rfl⟩
  | recover jobs => exact ⟨job', hjob', hnothing rfl⟩
  | kickoff policy => exact status_finishStep horderly policy (List.forall_mem_nil _) hjob'
  | step policy event =>
      by_cases hshutdown : event = .shutdown
      · subst hshutdown
        exact ⟨job', hjob', hnothing (started_of_none horderly.sound.pending)⟩
      · rw [perform, step_of_ne_shutdown policy hshutdown] at hjob' ⊢
        exact status_finishStep (orderly_handle horderly event) policy
          (SchedulerM.reacts_handle horderly.sound event).quiet hjob'

end Steps

-- Of a live job that is not held the signs tell whether it is pending. Of a job that there
-- never was there are none.
structure Signaled (scheduler : Scheduler) (history : JobId → List Sign) : Prop where
  live : ∀ id job, scheduler.registry.find? id = some job → job.status ≠ .paused →
    (job.status = .pending ↔ ¬Sign.Told (history id))
  silent : ∀ id, scheduler.registry.find? id = none → scheduler.registry.ended? id = none → history id = []

theorem signaled_new (total : Nat) : (Scheduler.new total).Signaled fun _ => [] :=
  ⟨fun _ _ hjob => (by cases hjob), fun _ _ _ => rfl⟩

section Operation

variable {scheduler : Scheduler} (hs : scheduler.Sound) (hc : scheduler.Coherent)
  {history : JobId → List Sign} (h : scheduler.Signaled history)
include h

theorem Signaled.unresumed {id : JobId} {job : LiveJob} (hjob : scheduler.registry.find? id = some job)
    (hopen : job.status ≠ .paused) (operation : Operation) :
    job.status = .pending ↔ ¬Sign.Told (history id ++ scheduler.resumption id operation) := by
  rw [resumption_of_open hjob hopen, List.append_nil]
  exact h.live id job hjob hopen

include hs hc

theorem Signaled.taken {event : Event} {job job' : LiveJob} {work : DeskM Fate} {given : Nat}
    {cancelled : List TaskId} (hattends : scheduler.Attends event job work)
    (hwork : work ⟨job, scheduler.slots⟩ = .ok (.goesOn cancelled) ⟨job', scheduler.slots.regain given⟩)
    (hopen : job'.status ≠ .paused) (policy : Policy) :
    job'.status = .pending ↔
      ¬Sign.Told (history job.id ++ scheduler.resumption job.id (.step policy event)) := by
  obtain ⟨hevent, hjob⟩ := hattends
  have hsound := hs.live hjob
  have houtcome := LiveJob.outcome_of_work? hsound hevent rfl hwork
  by_cases hresume : event = .resume job.id
  · subst hresume
    cases hevent
    have hheld : job.status = .paused := by
      by_contra hnot
      rw [DeskM.resumeJob_of_not_held _ hnot] at hwork
      cases hwork
    rw [DeskM.resumeJob_of_held _ hheld] at hwork
    injection hwork with _ hdesk
    obtain rfl : job.resumed = job' := congrArg Desk.job hdesk
    have hsign : scheduler.resumption job.id (.step policy (.resume job.id)) = [.resumed job] := by
      simp [resumption, hjob, hheld, Operation.resumes]
    rw [hsign, Sign.told_concat_iff, LiveJob.status_resumed_eq_pending_iff hsound]
    rfl
  · have hother (id : JobId) : event ≠ .resume id := by
      rintro rfl
      cases hevent
      exact hresume rfl
    obtain ⟨hbefore, hpending⟩ := houtcome.pending_iff (hc job.id job hjob) hother hopen
    rw [hpending]
    exact h.unresumed hjob hbefore _

theorem Reaction.signaled (hfree : scheduler.Counted) {event : Event} {answer : Except Fault (List Command)}
    {final : Scheduler} (hreaction : scheduler.Reaction event answer final) (policy : Policy) {id : JobId}
    {job : LiveJob} (hjob : final.registry.find? id = some job) (hopen : job.status ≠ .paused) :
    job.status = .pending ↔ ¬Sign.Told (history id ++ scheduler.resumption id (.step policy event)) := by
  cases hreaction.origin hs hjob with
  | stayed hjob => exact h.unresumed hjob hopen _
  | joined hevent hnew hid =>
      obtain ⟨tasks, board, -, hbuild, rfl⟩ := LiveJob.new_eq_ok hnew
      have hnext : id = ⟨scheduler.registry.nextId⟩ := hid.symm.trans (Board.job_of_build hbuild)
      obtain ⟨hgone, hended⟩ := hfree.free
      rw [← hnext] at hgone hended
      rw [h.silent id hgone hended, resumption_of_gone hgone]
      exact iff_of_true rfl Sign.not_told_nil
  | wentOn hattends hid hturn hwork =>
      subst hid
      exact h.taken hs hc hattends hwork hopen policy

theorem Signaled.handled (hfree : scheduler.Counted) {operation : Operation}
    (hkind : operation.isRecovery = false) {id : JobId} {job : LiveJob}
    (hjob : (scheduler.handled operation).registry.find? id = some job)
    (hopen : job.status ≠ .paused) :
    job.status = .pending ↔ ¬Sign.Told (history id ++ scheduler.resumption id operation) := by
  cases operation with
  | submit submission =>
      have hreaction := SchedulerM.reacts_handle hs (.submitted submission)
      rw [Scheduler.handled, run_submit] at hjob
      exact hreaction.signaled hs hc h hfree (.acceptAll false) hjob hopen
  | recover jobs => cases hkind
  | kickoff policy => exact h.unresumed hjob hopen _
  | step policy event => exact (SchedulerM.reacts_handle hs event).signaled hs hc h hfree policy hjob hopen

end Operation

-- An operation gives its signs in this order: it resumes a job, and then it starts tasks.
theorem Signaled.perform {scheduler : Scheduler} (horderly : scheduler.Orderly) (hs : scheduler.Counted)
    (hc : scheduler.Coherent) {history : JobId → List Sign} (h : scheduler.Signaled history)
    {operation : Operation} (hkind : operation.isRecovery = false)
    (hlast : .last ∉ scheduler.gives operation) :
    (scheduler.perform operation).2.Signaled fun id => history id ++ (scheduler.resumption id operation ++
      ((Command.started (scheduler.perform operation).1).filter (·.task.job = id)).map .started) := by
  have hperforms := performs_any hs.toSound operation
  constructor
  case live =>
    intro id job' hjob' hopen
    obtain ⟨job, hjob, hstatus⟩ := status_perform horderly operation hjob'
    have hbefore : job.status ≠ .paused := fun hpaused => hopen (by simp [hstatus, hpaused])
    have hstarted : (Command.started (scheduler.perform operation).1).filter (·.task.job = id) ≠ [] ↔
        ∃ assignment ∈ Command.started (scheduler.perform operation).1, assignment.task.job = id := by
      simp [List.filter_eq_nil_iff]
    rw [← List.append_assoc, Sign.told_append_started_iff, hstarted, not_or,
      ← h.handled hs.toSound hc hs hkind hjob hbefore, hstatus]
    split
    · rename_i hboth
      exact iff_of_false (by simp) fun hneither => hneither.2 hboth.2
    · rename_i hnot
      exact ⟨fun hpending => ⟨hpending, fun hsome => hnot ⟨hpending, hsome⟩⟩, And.left⟩
  case silent =>
    intro id hgone hopen
    obtain ⟨hnever, hended⟩ := unknown_of_perform hs hlast hgone hopen
    have hnothing : (Command.started (scheduler.perform operation).1).filter (·.task.job = id) = [] := by
      rw [List.filter_eq_nil_iff]
      intro assignment hassignment hid
      obtain ⟨now, job, -, hkeeps, hjob, -⟩ := hperforms.passes.eligible assignment hassignment
      obtain ⟨job', hjob', -⟩ := hkeeps _ job hjob
      rw [decide_eq_true_eq.mp hid, hgone] at hjob'
      cases hjob'
    rw [h.silent id hnever hended, resumption_of_gone hnever, hnothing]
    rfl

theorem signaled_reached {total : Nat} {operations : List Operation}
    (hkinds : ∀ operation ∈ operations, operation.isRecovery = false)
    (hlast : .last ∉ (Scheduler.new total).ids operations) :
    ((Scheduler.new total).reached operations).Signaled fun id => (Scheduler.new total).signs id operations := by
  induction operations using List.reverseRecOn with
  | nil => exact signaled_new total
  | append_singleton operations operation ih =>
      have hbefore (other : Operation) (hother : other ∈ operations) :=
        hkinds other (List.mem_append_left _ hother)
      obtain ⟨hearlier, hgives⟩ := not_mem_ids_concat.mp hlast
      have hnow := hkinds operation (List.mem_append_right _ (List.mem_singleton.mpr rfl))
      have hafter := (ih hbefore hearlier).perform (orderly_reached total operations)
        (counted_reached hearlier) (coherent_reached total hbefore) hnow hgives
      simpa only [reached_concat, signs, gathered_concat] using hafter

-- In a run without recoveries, a job that is not held is pending if nothing tells that it
-- has begun: none of its tasks has been started since it was last resumed, and when it was,
-- none ran, was done or was held in error. It is then pending just until its first task
-- starts if the last resumption is right about that. No job may have been given the last id.
theorem pending_iff_last_sign (total : Nat) {operations : List Operation}
    (hkinds : ∀ operation ∈ operations, operation.isRecovery = false)
    (hlast : .last ∉ (Scheduler.new total).ids operations) :
    ∀ id job, ((Scheduler.new total).reached operations).registry.find? id = some job →
      job.status ≠ .paused →
      let signs := (Scheduler.new total).signs id operations
      let begun := ∃ assignment ∈ (Scheduler.new total).assigned operations, assignment.task.job = id
      (job.status = .pending ↔ ∀ sign ∈ signs.getLast?, ¬sign.Tells) ∧
      ((job.status = .pending ↔ ¬begun) ↔
        ∀ held, signs.getLast? = some (.resumed held) → (held.ShowsStart ↔ begun)) := by
  intro id job hjob hopen signs begun
  have htold : job.status = .pending ↔ ∀ sign ∈ signs.getLast?, ¬sign.Tells := by
    rw [(signaled_reached hkinds hlast).live id job hjob hopen, Sign.Told]
    simp only [not_exists, not_and]
    rfl
  have hbegun : (∃ assignment, .started assignment ∈ signs) ↔ begun :=
    exists_started_mem_signs_iff _ id operations
  refine ⟨htold, ?_⟩
  rw [htold]
  rcases List.eq_nil_or_concat signs with hnil | ⟨earlier, last, hsigns⟩
  · rw [hnil] at hbegun ⊢
    have hnot : ¬begun := fun hbegan => by
      obtain ⟨_, hmem⟩ := hbegun.mpr hbegan
      cases hmem
    simp [hnot]
  · rw [List.concat_eq_append] at hsigns
    have hmem : last ∈ signs := by simp [hsigns]
    rw [hsigns, List.getLast?_concat]
    cases last with
    | started assignment =>
        have hbegan : begun := hbegun.mp ⟨assignment, hmem⟩
        simp [hbegan, Sign.Tells]
    | resumed held =>
        simp only [Option.mem_some, forall_eq', Option.some.injEq, Sign.resumed.injEq, Sign.Tells]
        exact not_iff_not

-- The release is paused, its first task is lost, and the resumption finds nothing of it.
-- The task is then started again.
theorem pending_iff_last_sign_release :
    let policy := Policy.acceptAll false
    let operations : List Operation := [.submit release, .kickoff policy, .step policy (.pause ⟨0⟩),
      .step policy (.lost ⟨⟨0⟩, 0⟩), .step policy (.resume ⟨0⟩)]
    let signs := (Scheduler.new 1).signs ⟨0⟩ operations
    let begun := ∃ assignment ∈ (Scheduler.new 1).assigned operations, assignment.task.job = ⟨0⟩
    (∀ operation ∈ operations, operation.isRecovery = false) ∧ signs.length = 3 ∧
    ∃ job, ((Scheduler.new 1).reached operations).registry.find? ⟨0⟩ = some job ∧ job.status = .running ∧
      (job.status = .pending ↔ ∀ sign ∈ signs.getLast?, ¬sign.Tells) ∧
      ((job.status = .pending ↔ ¬begun) ↔
        ∀ held, signs.getLast? = some (.resumed held) → (held.ShowsStart ↔ begun)) := by
  intro policy operations signs begun
  have hkinds : ∀ operation ∈ operations, operation.isRecovery = false := by decide
  have hsigns : signs.length = 3 := by
    simp only [signs, operations, Scheduler.signs]
    rw [gathered_submit (.new 1) resolve_release rfl]
    decide +kernel
  have hshown : (((Scheduler.new 1).reached operations).registry.find? ⟨0⟩).map LiveJob.status =
      some .running := by
    rw [reached_submit (.new 1) resolve_release]
    decide +kernel
  obtain ⟨job, hjob, hrunning⟩ := Option.map_eq_some_iff.mp hshown
  have hlast : .last ∉ (Scheduler.new 1).ids operations :=
    last_not_mem_ids 1 0 (by simp [operations]) (by decide)
  exact ⟨hkinds, hsigns, job, hjob, hrunning,
    pending_iff_last_sign 1 hkinds hlast ⟨0⟩ job hjob (by simp [hrunning])⟩

-- With the slot taken by another job, the release counts as not begun although a task of
-- it has been started.
theorem pending_of_started_release :
    let policy := Policy.acceptAll false
    let operations : List Operation := [.submit release, .submit release, .kickoff policy,
      .step policy (.pause ⟨0⟩), .step policy (.lost ⟨⟨0⟩, 0⟩), .step policy (.resume ⟨0⟩)]
    (∀ operation ∈ operations, operation.isRecovery = false) ∧
    ∃ job, ((Scheduler.new 1).reached operations).registry.find? ⟨0⟩ = some job ∧ job.status = .pending ∧
      ∃ assignment ∈ (Scheduler.new 1).assigned operations, assignment.task.job = ⟨0⟩ := by
  intro policy operations
  have hkinds : ∀ operation ∈ operations, operation.isRecovery = false := by decide
  have hshown : (((Scheduler.new 1).reached operations).registry.find? ⟨0⟩).map LiveJob.status =
      some .pending := by
    rw [reached_submit (.new 1) resolve_release, reached_submit _ (resolve_of_graph release rfl rfl rfl rfl _)]
    decide +kernel
  have hassigned : (Scheduler.new 1).assigned operations =
      [⟨⟨⟨0⟩, 0⟩, "release", "a", "make", 1, 1⟩, ⟨⟨⟨1⟩, 0⟩, "release", "a", "make", 1, 1⟩] := by
    rw [assigned, gathered_submit (.new 1) resolve_release rfl,
      gathered_submit _ (resolve_of_graph release rfl rfl rfl rfl _) rfl]
    decide +kernel
  obtain ⟨job, hjob, hpending⟩ := Option.map_eq_some_iff.mp hshown
  exact ⟨hkinds, job, hjob, hpending, _, hassigned ▸ List.mem_cons_self, rfl⟩

end Scheduler

end JobScheduler
