import JobScheduler.Proofs.Board.Likeness
import JobScheduler.Proofs.Desk.Stops
import JobScheduler.Proofs.Job.Books
import JobScheduler.Proofs.Scheduler.Order
import JobScheduler.Proofs.Scheduler.Orderly

namespace JobScheduler

namespace Place

variable {held : Bool} {status : TaskStatus}

theorem shown_of_blocked (h : Place.blocked.fits held status) :
    status ∈ [.submitted, .pending, .paused] := by
  cases status <;> simp [Place.fits] at h ⊢

theorem shown_of_eligible (h : Place.eligible.fits held status) :
    status ∈ [.submitted, .pending, .waitingOnError] := by
  cases status <;> simp [Place.fits] at h ⊢

theorem shown_of_paused (h : Place.paused.fits held status) : status ∈ [.paused, .inError] := by
  cases status <;> simp [Place.fits] at h ⊢

end Place

namespace LiveJob

-- What is shown of a job and its tasks is what they do.
structure Truthful (job : LiveJob) : Prop where
  running : ∀ id, id.job = job.id →
    (job.statusOf? id = some .running ↔ id ∈ job.board.running.toList)
  terminated : ∀ id, id.job = job.id →
    ((∃ status, job.statusOf? id = some status ∧ status.isTerminated) ↔
      job.board.placeOf id = .ok .done)
  blocked : ∀ id, job.board.placeOf id = .ok .blocked →
    ∃ status ∈ [.submitted, .pending, .paused], job.statusOf? id = some status
  eligible : ∀ id ∈ job.board.eligible.toList,
    ∃ status ∈ [.submitted, .pending, .waitingOnError], job.statusOf? id = some status
  paused : ∀ id ∈ job.board.paused.toList,
    ∃ status ∈ [.paused, .inError], job.statusOf? id = some status
  inError : ∀ id, id.job = job.id → job.statusOf? id = some .inError →
    id ∈ job.board.paused.toList
  notAborted : ∀ id, id.job = job.id → job.statusOf? id ≠ some .aborted
  ongoing : job.status ∈ [.pending, .running, .paused, .inError]
  held : job.status = .paused → job.board.eligible.toList = [] ∧
    ∀ id, job.board.placeOf id = .ok .blocked → job.statusOf? id = some .paused
  notHeld : job.status ≠ .paused → ∀ id, id.job = job.id → job.statusOf? id ≠ some .paused
  jobInError : job.status = .inError ↔
    job.status ≠ .paused ∧ ∃ id, id.job = job.id ∧ job.statusOf? id = some .inError
  jobPending : job.status = .pending → job.board.running.toList = []

section Coherent

variable {job : LiveJob} (hs : job.Sound) (hc : job.Coherent)
include hs hc

theorem truthful_of_coherent : job.Truthful := by
  have hp := hs.board.partitioned
  have hshown {id : TaskId} {status : TaskStatus} (hjob : id.job = job.id)
      (h : job.statusOf? id = some status) := fits_of_statusOf? hs hc hjob h
  constructor
  case running =>
    intro id hjob
    rw [hp.mem_running_iff, statusOf?_eq_running_iff hs hc hjob]
  case terminated =>
    intro id hjob
    constructor
    · rintro ⟨status, hstatus, hterminated⟩
      exact hs.placeOf_of_terminated hjob hstatus hterminated
    · exact hs.statusOf?_of_done
  case blocked =>
    intro id h
    obtain ⟨status, hstatus, hfits⟩ := hc.fits id .blocked h
    exact ⟨status, Place.shown_of_blocked hfits, hstatus⟩
  case eligible =>
    intro id h
    obtain ⟨status, hstatus, hfits⟩ := hc.fits id .eligible (hp.mem_eligible_iff.mp h)
    exact ⟨status, Place.shown_of_eligible hfits, hstatus⟩
  case paused =>
    intro id h
    obtain ⟨status, hstatus, hfits⟩ := hc.fits id .paused (hp.mem_paused_iff.mp h)
    exact ⟨status, Place.shown_of_paused hfits, hstatus⟩
  case inError =>
    intro id hjob h
    exact hp.mem_paused_iff.mpr (hs.placeOf_of_inError hjob h)
  case notAborted =>
    intro id hjob h
    obtain ⟨place, -, hfits⟩ := hshown hjob h
    cases place <;> cases hfits
  case ongoing =>
    have hlive := hc.live
    cases hstatus : job.status <;> simp [hstatus, JobStatus.isTerminal] at hlive ⊢
  case held =>
    intro h
    have hheld : job.isHeld = true := isHeld_iff.mpr h
    refine ⟨List.eq_nil_iff_forall_not_mem.mpr fun id hid => ?_, fun id hid => ?_⟩
    · obtain ⟨status, -, hfits⟩ := hc.fits id .eligible (hp.mem_eligible_iff.mp hid)
      rw [hheld] at hfits
      cases status <;> cases hfits
    · obtain ⟨status, hstatus, hfits⟩ := hc.fits id .blocked hid
      rw [hheld] at hfits
      cases status <;> first | exact hstatus | cases hfits
  case notHeld =>
    intro h id hjob hstatus
    have hheld : job.isHeld = false := by simpa [isHeld] using h
    obtain ⟨place, -, hfits⟩ := hshown hjob hstatus
    rw [hheld] at hfits
    cases place <;> cases hfits
  case jobInError =>
    rw [hc.inError, hasTasksInError_iff]
  case jobPending =>
    intro h
    refine List.eq_nil_iff_forall_not_mem.mpr fun id hid => ?_
    exact hc.pending h id (hp.mem_running_iff.mp hid)

end Coherent

section Released

-- What a pause that is taken back makes of the status of a task: it waits again unless it
-- has been started and was not sent back.
def letGo (status : TaskStatus) : TaskStatus :=
  if status ∈ [.running, .inError, .finished, .faulty, .killed] then status else .pending

variable {job : LiveJob} (hs : job.Sound) (hc : job.Coherent) (hopen : job.status ≠ .paused)
include hs hc hopen

omit hs in
theorem fits_of_open (id : TaskId) (place : Place) (hplace : job.board.placeOf id = .ok place) :
    ∃ status, job.statusOf? id = some status ∧ place.fits false status := by
  have hheld : job.isHeld = false := by simpa [isHeld] using hopen
  exact hheld ▸ hc.fits id place hplace

-- Of a job that is not held no task is paused, so that those which are let go are those
-- which were held.
theorem statusOf?_resumed_held (id : TaskId) :
    job.held.resumed.statusOf? id = (job.statusOf? id).map letGo := by
  rw [statusOf?_resumed, resumePaused, statusOf?_restate, statusOf?_held, pausePending,
    statusOf?_restate]
  cases hstatus : job.statusOf? id with
  | none => rfl
  | some status =>
      have hself : (⟨job.id, id.index⟩ : TaskId).job = job.id := rfl
      obtain ⟨place, hplace, -⟩ := fits_of_statusOf? hs hc hself hstatus
      obtain ⟨shown, hshown, hfits⟩ := fits_of_open hc hopen _ place hplace
      obtain rfl : status = shown := Option.some.inj (hstatus.symm.trans hshown)
      cases place <;> cases status <;> simp_all [Place.fits, awaitsStart, letGo, TaskStatus.isTerminated]

theorem statuses_resumed_held : job.held.resumed.statuses = job.statuses.map letGo := by
  apply List.ext_getElem?
  intro index
  rw [List.getElem?_map]
  exact statusOf?_resumed_held hs hc hopen ⟨job.id, index⟩

-- The eligible tasks go to the paused partition and come back. Blocked ones are marked
-- alone, and those in error are not.
theorem placeOf_resumed_held {id : TaskId} {place : Place} (hplace : job.board.placeOf id = .ok place) :
    job.held.resumed.board.placeOf id = .ok place := by
  obtain ⟨status, hstatus, hfits⟩ := fits_of_open hc hopen id place hplace
  have hheld : job.held.board.placeOf id =
      .ok (if awaitsStart status then Place.follow false .paused place else place) := by
    rw [held_board, pausePending, placeOf_restate, hplace, hstatus, hs.goesOn]
    rfl
  have hmarked : job.held.statusOf? id = some (if awaitsStart status then .paused else status) := by
    rw [statusOf?_held, pausePending, statusOf?_restate, hstatus]
    rfl
  have hturn : Turn true job job.held 0 := turn_held hs
  have hgoesOn := hturn.advances.sound.goesOn
  rw [resumed_board, resumePaused, placeOf_restate, hheld, hmarked, hgoesOn]
  cases place <;> cases status <;>
    simp_all [Place.fits, Place.follow, Except.map, awaitsStart, TaskStatus.isTerminated]

-- As every task stands where it stood, the counters count what they counted.
theorem board_resumed_held : job.held.resumed.board = job.board := by
  have hturn : Turn true job job.held 0 := turn_held hs
  have hheld := hturn.advances.sound
  have hresumed := (turn_resumed hheld rfl).advances.sound
  have hsame := job.sameTasks_held.trans job.held.sameTasks_resumed
  apply hsame.eq_of_placeOf hs.board hresumed.board hs.goesOn hresumed.goesOn
  · exact hsame.placeOf_eq fun id place hplace => placeOf_resumed_held hs hc hopen hplace
  · exact (job.keepsBooks_held.trans job.held.keepsBooks_resumed).priority
  · rw [resumed_board, resumePaused, attempts_restate, held_board, pausePending, attempts_restate]

theorem status_resumed_held_eq_inError_iff :
    job.held.resumed.status = .inError ↔ job.status = .inError := by
  have hid : job.held.resumed.id = job.id := congrArg Board.job (board_resumed_held hs hc hopen)
  rw [status_resumed_eq_inError_iff, hc.inError, and_iff_right hopen, hasTasksInError_iff,
    hasTasksInError_iff, hid]
  refine exists_congr fun id => and_congr_right fun _ => ?_
  rw [statusOf?_resumed_held hs hc hopen]
  cases job.statusOf? id with
  | none => simp
  | some status => cases status <;> simp [letGo]

-- Nothing else of the job is any different.
theorem resumed_held_eq : ∃ status,
    job.held.resumed = { job with status, statuses := job.statuses.map letGo } ∧
      (status = .inError ↔ job.status = .inError) := by
  refine ⟨job.held.resumed.status, ?_, status_resumed_held_eq_inError_iff hs hc hopen⟩
  have hbooks := job.keepsBooks_held.trans job.held.keepsBooks_resumed
  have hboard := board_resumed_held hs hc hopen
  have hstatuses := statuses_resumed_held hs hc hopen
  have hresults : job.held.resumed.results = job.results := by
    rw [resumed_results, resumePaused, restate_results, held_results, pausePending, restate_results]
  rw [LiveJob.mk.injEq]
  exact ⟨hbooks.submitted, hboard, rfl, hresults, hstatuses, hbooks.executions⟩

end Released

end LiveJob

namespace Scheduler

-- Jobs come from submissions alone.
def Terms.ofSubmissions (given : JobId → Prop) (resumed : JobId → Bool) : Terms :=
  ⟨LiveJob.Coherent, given, resumed⟩

theorem Terms.ofSubmissions_allows {given : JobId → Prop} {resumed : JobId → Bool} {operation : Operation}
    (hrecovery : operation.isRecovery = false)
    (hresumed : ∀ id, operation.resumes id → resumed id) :
    (Terms.ofSubmissions given resumed).Allows operation :=
  ⟨fun _ h => h, fun h => absurd (hrecovery.symm.trans h) (by simp), hresumed⟩

theorem coherent_new (total : Nat) : (Scheduler.new total).Coherent := by
  intro id job hjob
  cases hjob

-- Whatever else drives a new scheduler, without recovery its jobs are shown as they are.
theorem coherent_reached (total : Nat) {operations : List Operation}
    (h : ∀ operation ∈ operations, operation.isRecovery = false) :
    ((Scheduler.new total).reached operations).Coherent := by
  have hleads : Leads (Terms.ofSubmissions (fun _ => True) fun _ => true) (Scheduler.new total)
      ((Scheduler.new total).reached operations) :=
    leads_reached (sound_new total) (fun operation hmem =>
      Terms.ofSubmissions_allows (h operation hmem) fun _ _ => rfl) fun _ _ => trivial
  exact hleads.coherent (fun _ h => h) (coherent_new total)

section Started

variable {scheduler : Scheduler} (hs : scheduler.Sound) (hc : scheduler.Coherent) {id : JobId}
  {rest : List Operation} {operation : Operation}
  (hquiet : ∀ other ∈ rest ++ [operation], other.isRecovery = false ∧ other.resumes id = false)
  (hgone : id ∉ scheduler.ids (rest ++ [operation]))
include hs hc hquiet hgone

-- No task of a held job is started until the job is resumed.
theorem job_ne_of_holds (hheld : scheduler.Holds id) {assignment : Assignment}
    (h : assignment ∈ Command.started ((scheduler.reached rest).perform operation).1) :
    assignment.task.job ≠ id := by
  have hallows (other : Operation) (hmem : other ∈ rest ++ [operation]) :
      (Terms.ofSubmissions (· ≠ id) (· != id)).Allows other := by
    obtain ⟨hrecovery, hresumes⟩ := hquiet other hmem
    refine Terms.ofSubmissions_allows hrecovery fun job hjob => ?_
    rw [bne_iff_ne]
    rintro rfl
    rw [hresumes] at hjob
    cases hjob
  obtain ⟨hbefore, hgives⟩ := not_mem_ids_concat.mp hgone
  have hreached := leads_reached hs (fun other hmem => hallows other (List.mem_append_left _ hmem))
    fun _ hid => ne_of_mem_of_not_mem hid hbefore
  have hmid := (hreached.sound hs).1
  have hperforms := performs hmid (hallows operation (by simp)) fun _ hid => ne_of_mem_of_not_mem hid hgives
  obtain ⟨now, job, hleads, -, hjob, heligible⟩ := hperforms.passes.eligible assignment h
  have hall := hreached.trans (hperforms.handled.trans hleads)
  rintro rfl
  have hisHeld := hall.holds (by simp [Terms.ofSubmissions]) (by simp [Terms.ofSubmissions]) hheld job hjob
  have hcoherent := hall.coherent (fun _ h => h) hc assignment.task.job job hjob
  obtain ⟨status, -, hfits⟩ := hcoherent.fits assignment.task .eligible heligible
  rw [hisHeld] at hfits
  cases status <;> cases hfits

end Started

-- In a scheduler to which jobs have only been submitted, every live job is shown as it is,
-- and no task of a paused job is started until the job is resumed, as long as its id is not
-- given again, for which all ids would have to be used up first.
theorem truthful_of_reached (total : Nat) {operations : List Operation}
    (h : ∀ operation ∈ operations, operation.isRecovery = false) :
    let scheduler := (Scheduler.new total).reached operations
    ∀ id job, scheduler.registry.find? id = some job → job.Truthful ∧
      (job.status = .paused → ∀ rest operation,
        (∀ other ∈ rest ++ [operation], other.isRecovery = false ∧ other.resumes id = false) →
        id ∉ scheduler.ids (rest ++ [operation]) →
        ∀ assignment ∈ Command.started ((scheduler.reached rest).perform operation).1,
          assignment.task.job ≠ id) := by
  intro scheduler id job hjob
  have hs : scheduler.Sound := sound_reached total operations
  have hc : scheduler.Coherent := coherent_reached total h
  refine ⟨LiveJob.truthful_of_coherent (hs.jobs id job hjob).2 (hc id job hjob), ?_⟩
  intro hpaused rest operation hquiet hgone assignment hmem
  refine job_ne_of_holds hs hc hquiet hgone (fun held hheld => ?_) hmem
  rw [hjob, Option.some.injEq] at hheld
  exact hheld ▸ LiveJob.isHeld_iff.mpr hpaused

theorem truthful_release :
    let operations : List Operation :=
      [.submit release, .kickoff (.acceptAll false), .step (.acceptAll false) (.pause ⟨0⟩)]
    let scheduler := (Scheduler.new 2).reached operations
    ∃ job, scheduler.registry.find? ⟨0⟩ = some job ∧ job.status = .paused ∧
      job.statuses = [.running, .paused] ∧ job.Truthful ∧ ∀ rest operation,
        (∀ other ∈ rest ++ [operation], other.isRecovery = false ∧ other.resumes ⟨0⟩ = false) →
        ⟨0⟩ ∉ scheduler.ids (rest ++ [operation]) →
        ∀ assignment ∈ Command.started ((scheduler.reached rest).perform operation).1,
          assignment.task.job ≠ ⟨0⟩ := by
  intro operations scheduler
  have hreached : scheduler = ((Scheduler.new 2).planned release (release.plan ⟨0⟩)).reached
      [.kickoff (.acceptAll false), .step (.acceptAll false) (.pause ⟨0⟩)] :=
    reached_submit (.new 2) resolve_release _
  have hshown : (scheduler.registry.find? ⟨0⟩).map (fun job => (job.status, job.statuses)) =
      some (.paused, [.running, .paused]) := by
    rw [hreached]
    decide +kernel
  obtain ⟨job, hjob, hstatus⟩ := Option.map_eq_some_iff.mp hshown
  obtain ⟨hpaused, hstatuses⟩ := Prod.mk.inj hstatus
  have hnone : ∀ operation ∈ operations, operation.isRecovery = false := by
    simp [operations, Operation.isRecovery]
  obtain ⟨htruthful, hquiet⟩ := truthful_of_reached 2 hnone ⟨0⟩ job hjob
  exact ⟨job, hjob, hpaused, hstatuses, htruthful, hquiet hpaused⟩

-- A pause that is taken back at once.
section Restored

variable {scheduler : Scheduler} (hs : scheduler.Sound) {job : LiveJob}
  (hjob : scheduler.registry.find? job.id = some job)
include hs hjob

theorem run_handle_pause (hopen : job.status ≠ .paused) :
    scheduler.run (SchedulerM.handle (.pause job.id)) = (.ok [], scheduler.wentOn job.held 0) := by
  have hturn : LiveJob.Turn true job job.held 0 := LiveJob.turn_held (hs.live hjob)
  have hdesk : DeskM.pauseJob ⟨job, scheduler.slots⟩ =
      .ok (.goesOn []) ⟨job.held, scheduler.slots.regain 0⟩ := DeskM.pauseJob_of_not_held _ hopen
  exact (SchedulerM.run_request_of_find? hjob).trans
    (SchedulerM.run_conclude_of_goesOn hturn.advances.id hdesk)

theorem run_handle_resume (hheld : job.status = .paused) :
    scheduler.run (SchedulerM.handle (.resume job.id)) = (.ok [], scheduler.wentOn job.resumed 0) := by
  have hturn := LiveJob.turn_resumed (hs.live hjob) (LiveJob.isHeld_iff.mpr hheld)
  have hdesk : DeskM.resumeJob ⟨job, scheduler.slots⟩ =
      .ok (.goesOn []) ⟨job.resumed, scheduler.slots.regain 0⟩ := DeskM.resumeJob_of_held _ hheld
  exact (SchedulerM.run_request_of_find? hjob).trans
    (SchedulerM.run_conclude_of_goesOn hturn.advances.id hdesk)

end Restored

-- A job that gets its own board back in the second of two turns stands in the queue as it did.
theorem wentOn_wentOn {scheduler : Scheduler} (horderly : scheduler.Orderly) {job mid last : LiveJob}
    (hjob : scheduler.registry.find? job.id = some job) (hmid : mid.id = job.id)
    (hlast : last.board = job.board) :
    (scheduler.wentOn mid 0).wentOn last 0 =
      { scheduler with registry := scheduler.registry.put last } := by
  have hid : last.id = mid.id := (congrArg Board.job hlast).trans hmid.symm
  simp only [wentOn, turned, hlast, Registry.put_put _ hid, horderly.ordered.refresh_back hjob hmid]
  rfl

-- In a scheduler to which jobs have only been submitted, a job that is paused and resumed at
-- once is as before but for the statuses of its tasks and its own, and so is all else.
theorem restored_by_resume (total : Nat) {operations : List Operation}
    (h : ∀ operation ∈ operations, operation.isRecovery = false) :
    let scheduler := (Scheduler.new total).reached operations
    ∀ id job, scheduler.registry.find? id = some job → job.status ≠ .paused →
      let paused := scheduler.run (SchedulerM.handle (.pause id))
      let resumed := paused.2.run (SchedulerM.handle (.resume id))
      paused.1 = .ok [] ∧ resumed.1 = .ok [] ∧ ∃ status,
        resumed.2 = { scheduler with
          registry := scheduler.registry.put
            { job with status, statuses := job.statuses.map LiveJob.letGo } } ∧
        (status = .inError ↔ job.status = .inError) := by
  intro scheduler id job hjob hopen
  have hs : scheduler.Sound := sound_reached total operations
  have horderly : scheduler.Orderly := orderly_reached total operations
  obtain ⟨rfl, hsound⟩ := hs.jobs id job hjob
  have hturn : LiveJob.Turn true job job.held 0 := LiveJob.turn_held hsound
  have hadvance : Advance .any scheduler (scheduler.turned job.held 0) := .turn hjob hturn
  have hpaused : (scheduler.wentOn job.held 0).Sound := ((hadvance.sound hs).1).queued _
  have hfind : (scheduler.wentOn job.held 0).registry.find? job.held.id = some job.held := by
    rw [find?_wentOn, if_pos rfl]
  obtain ⟨status, hstatusEq, hstatus⟩ :=
    LiveJob.resumed_held_eq hsound (coherent_reached total h job.id job hjob) hopen
  have hpause := run_handle_pause hs hjob hopen
  have hresume := run_handle_resume hpaused hfind rfl
  rw [hturn.advances.id] at hresume
  intro paused resumed
  simp only [resumed, paused, hpause, hresume, true_and]
  refine ⟨status, ?_, hstatus⟩
  rw [hstatusEq]
  exact wentOn_wentOn horderly hjob hturn.advances.id rfl

-- The first task of the release is running and the second waits for it.
theorem restored_by_resume_release :
    let operations : List Operation := [.submit release, .kickoff (.acceptAll false)]
    let scheduler := (Scheduler.new 2).reached operations
    ∃ job, scheduler.registry.find? ⟨0⟩ = some job ∧ job.status = .running ∧
      job.statuses = [.running, .submitted] ∧
      let paused := scheduler.run (SchedulerM.handle (.pause ⟨0⟩))
      let resumed := paused.2.run (SchedulerM.handle (.resume ⟨0⟩))
      paused.1 = .ok [] ∧ resumed.1 = .ok [] ∧ ∃ status,
        resumed.2 = { scheduler with
          registry := scheduler.registry.put { job with status, statuses := [.running, .pending] } } ∧
        status ≠ .inError := by
  intro operations scheduler
  have hreached : scheduler = ((Scheduler.new 2).planned release (release.plan ⟨0⟩)).reached
      [.kickoff (.acceptAll false)] :=
    reached_submit (.new 2) resolve_release _
  have hshown : (scheduler.registry.find? ⟨0⟩).map (fun job => (job.status, job.statuses)) =
      some (.running, [.running, .submitted]) := by
    rw [hreached]
    decide +kernel
  obtain ⟨job, hjob, hstatus⟩ := Option.map_eq_some_iff.mp hshown
  obtain ⟨hrunning, hstatuses⟩ := Prod.mk.inj hstatus
  have hnone : ∀ operation ∈ operations, operation.isRecovery = false := by
    simp [operations, Operation.isRecovery]
  obtain ⟨hpaused, hresumed, status, hback, herror⟩ :=
    restored_by_resume 2 hnone ⟨0⟩ job hjob (by simp [hrunning])
  have hletGo : job.statuses.map LiveJob.letGo = [.running, .pending] := by
    rw [hstatuses]
    rfl
  rw [hletGo] at hback
  refine ⟨job, hjob, hrunning, hstatuses, hpaused, hresumed, status, hback, ?_⟩
  rw [Ne, herror, hrunning]
  simp

end Scheduler

end JobScheduler
