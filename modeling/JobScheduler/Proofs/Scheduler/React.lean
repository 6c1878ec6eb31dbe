import JobScheduler.Proofs.Desk.Outcomes
import JobScheduler.Proofs.Job.Refusal
import JobScheduler.Proofs.Scheduler.Answer

namespace JobScheduler

namespace Scheduler

-- The event is about a live job, and this is what it does there.
def Attends (scheduler : Scheduler) (event : Event) (job : LiveJob) (work : DeskM Fate) : Prop :=
  event.work? = some (job.id, work) ∧ scheduler.registry.find? job.id = some job

def wentOn (scheduler : Scheduler) (job : LiveJob) (given : Nat) : Scheduler :=
  { scheduler.turned job given with queue := scheduler.queue.refresh job.board }

def closed (scheduler : Scheduler) (job : LiveJob) (status : JobStatus) : Scheduler :=
  { scheduler.retired job (job.closing status) with queue := scheduler.queue.remove job.id }

-- All that handling an event may come to. What refuses or ignores the event changes
-- nothing.
inductive Reaction (scheduler : Scheduler) (event : Event) :
    Except Fault (List Command) → Scheduler → Prop
  | refused {fault} : fault.kind.isRefusal →
      (∀ job work, scheduler.Attends event job work →
        ∃ fault, work ⟨job, scheduler.slots⟩ = .error fault ⟨job, scheduler.slots⟩) →
      Reaction scheduler event (.error fault) scheduler
  | ignored : (∀ job work, scheduler.Attends event job work →
        work ⟨job, scheduler.slots⟩ = .ok .untouched ⟨job, scheduler.slots⟩) →
      Reaction scheduler event (.ok []) scheduler
  | joined {submission job} : event = .submitted submission →
      LiveJob.new ⟨scheduler.registry.nextId⟩ submission = .ok job →
      Reaction scheduler event (.ok []) (scheduler.joined job)
  | wentOn {job work job' given cancelled} : scheduler.Attends event job work →
      LiveJob.Turn true job job' given →
      work ⟨job, scheduler.slots⟩ = .ok (.goesOn cancelled) ⟨job', scheduler.slots.regain given⟩ →
      Reaction scheduler event (.ok (Command.cancelling cancelled)) (scheduler.wentOn job' given)
  | ended {job work job' given status cancelled} : scheduler.Attends event job work →
      LiveJob.Turn true job job' given →
      work ⟨job, scheduler.slots⟩ =
        .ok (.ends status cancelled) ⟨job', scheduler.slots.regain given⟩ →
      Reaction scheduler event
        (.ok (Command.cancelling cancelled ++
          (Command.cancelling job'.board.running.toList ++ [.ended (job'.closing status)])))
        ((scheduler.turned job' given).closed job' status)

theorem Reaction.pending_eq {scheduler final : Scheduler} {event : Event}
    {answer : Except Fault (List Command)} (h : scheduler.Reaction event answer final) :
    final.pending = scheduler.pending := by
  cases h <;> rfl

theorem find?_wentOn (scheduler : Scheduler) (job : LiveJob) (given : Nat) (id : JobId) :
    (scheduler.wentOn job given).registry.find? id =
      if id = job.id then some job else scheduler.registry.find? id :=
  Registry.find?_put scheduler.registry job id

theorem find?_closed (scheduler : Scheduler) (job : LiveJob) (given : Nat) (status : JobStatus)
    (id : JobId) :
    ((scheduler.turned job given).closed job status).registry.find? id =
      if id = job.id then none else scheduler.registry.find? id := by
  simp only [closed, retired, turned, Registry.find?_drop_record, Registry.find?_put]
  split <;> rfl

theorem ended?_closed (scheduler : Scheduler) (job : LiveJob) (given : Nat) (status : JobStatus)
    (id : JobId) :
    ((scheduler.turned job given).closed job status).registry.ended? id =
      if id = job.id then some (job.closing status) else scheduler.registry.ended? id :=
  (scheduler.turned job given).ended?_retired job status id

-- Where a live job comes from once an event has been handled: it was there and did not take
-- up the event, it is new, or it took up the event and went on.
inductive Origin (scheduler : Scheduler) (event : Event) (id : JobId) (job' : LiveJob) : Prop
  | stayed : scheduler.registry.find? id = some job' →
      (∀ work, event.work? = some (id, work) →
        ∀ fate desk, work ⟨job', scheduler.slots⟩ = .ok fate desk → fate = .untouched) →
      Origin scheduler event id job'
  | joined {submission} : event = .submitted submission →
      LiveJob.new ⟨scheduler.registry.nextId⟩ submission = .ok job' → job'.id = id →
      Origin scheduler event id job'
  | wentOn {job work given cancelled} : scheduler.Attends event job work → job.id = id →
      LiveJob.Turn true job job' given →
      work ⟨job, scheduler.slots⟩ = .ok (.goesOn cancelled) ⟨job', scheduler.slots.regain given⟩ →
      Origin scheduler event id job'

theorem Reaction.origin {scheduler final : Scheduler} (hs : scheduler.Sound) {event : Event}
    {answer : Except Fault (List Command)} (h : scheduler.Reaction event answer final) {id : JobId}
    {job' : LiveJob} (hjob' : final.registry.find? id = some job') :
    scheduler.Origin event id job' := by
  -- The event is about another job.
  have hother {job : LiveJob} {work : DeskM Fate} (hattends : scheduler.Attends event job work)
      (hne : id ≠ job.id) (hjob' : scheduler.registry.find? id = some job') :
      scheduler.Origin event id job' := by
    refine .stayed hjob' fun work' hwork' => ?_
    rw [hattends.1, Option.some.injEq, Prod.mk.injEq] at hwork'
    exact absurd hwork'.1.symm hne
  cases h with
  | refused _ hrefused =>
      obtain ⟨rfl, -⟩ := hs.jobs id job' hjob'
      refine .stayed hjob' fun work hwork fate desk hok => ?_
      obtain ⟨fault, herror⟩ := hrefused job' work ⟨hwork, hjob'⟩
      rw [herror] at hok
      cases hok
  | ignored hignored =>
      obtain ⟨rfl, -⟩ := hs.jobs id job' hjob'
      refine .stayed hjob' fun work hwork fate desk hok => ?_
      rw [hignored job' work ⟨hwork, hjob'⟩] at hok
      cases hok
      rfl
  | @joined submission job hevent hnew =>
      rw [find?_joined] at hjob'
      split at hjob'
      · rename_i hid
        cases hjob'
        exact .joined hevent hnew hid.symm
      · refine .stayed hjob' fun work hwork => ?_
        rw [hevent] at hwork
        cases hwork
  | @wentOn job work after given cancelled hattends hturn hwork =>
      rw [find?_wentOn, hturn.advances.id] at hjob'
      split at hjob'
      · rename_i hid
        cases hjob'
        exact .wentOn hattends hid.symm hturn hwork
      · rename_i hne
        exact hother hattends hne hjob'
  | @ended job work after given status cancelled hattends hturn hwork =>
      rw [find?_closed, hturn.advances.id] at hjob'
      split at hjob'
      · cases hjob'
      · rename_i hne
        exact hother hattends hne hjob'

section Attends

variable {scheduler : Scheduler} {event : Event} {job other : LiveJob} {work work' : DeskM Fate}

-- An event is about one job, and asks for one thing.
theorem Attends.unique (h : scheduler.Attends event job work) (h' : scheduler.Attends event other work') :
    other = job ∧ work' = work := by
  have hpair := h.1.symm.trans h'.1
  rw [Option.some.injEq, Prod.mk.injEq] at hpair
  have hfind := h'.2
  rw [← hpair.1, h.2] at hfind
  exact ⟨(Option.some.inj hfind).symm, hpair.2.symm⟩

theorem not_attends {id : JobId} (hwork : event.work? = some (id, work))
    (hfind : scheduler.registry.find? id = none) : ¬scheduler.Attends event other work' := by
  rintro ⟨hwork', hother⟩
  rw [hwork, Option.some.injEq, Prod.mk.injEq] at hwork'
  rw [← hwork'.1, hfind] at hother
  cases hother

end Attends

end Scheduler

namespace SchedulerM

open Scheduler

theorem reacts_submit (scheduler : Scheduler) (submission : Submission) :
    Reaction scheduler (.submitted submission)
      (scheduler.run (handle (.submitted submission))).1
      (scheduler.run (handle (.submitted submission))).2 := by
  cases hjob : LiveJob.new ⟨scheduler.registry.nextId⟩ submission with
  | error fault =>
      have hrun : scheduler.run (handle (.submitted submission)) = (.error fault, scheduler) := by
        apply run_of_error
        simp only [handle, run_bind, submit_of_refused hjob]
      rw [hrun]
      exact .refused (LiveJob.refusesOnly_new _ _ fault hjob) fun job work h => by cases h.1
  | ok job =>
      have hrun : scheduler.run (handle (.submitted submission)) = (.ok [], scheduler.joined job) := by
        apply run_of_ok
        simp only [handle, run_bind, submit_of_new hjob, run_pure]
      rw [hrun]
      exact .joined rfl hjob

-- The conclusions that the scheduler draws from work at the desk of a live job.
section Conclude

variable {scheduler : Scheduler} {job job' : LiveJob} {work : DeskM Fate} {given : Nat}

section Unchanged

variable (hjob : scheduler.registry.find? job.id = some job)
include hjob

theorem run_conclude_of_error {fault : Fault}
    (h : work ⟨job, scheduler.slots⟩ = .error fault ⟨job, scheduler.slots⟩) :
    scheduler.run (do conclude job.id (← atDesk job work)) = (.error fault, scheduler) := by
  apply run_of_error
  rw [run_bind, atDesk, h]
  exact congrArg _ (withDesk_self hjob 0)

theorem run_conclude_of_untouched
    (h : work ⟨job, scheduler.slots⟩ = .ok .untouched ⟨job, scheduler.slots⟩) :
    scheduler.run (do conclude job.id (← atDesk job work)) = (.ok [], scheduler) := by
  apply run_of_ok
  rw [run_bind, atDesk, h]
  exact congrArg _ (withDesk_self hjob 0)

end Unchanged

variable (hid : job'.id = job.id)
include hid

theorem run_conclude_of_goesOn {cancelled : List TaskId}
    (h : work ⟨job, scheduler.slots⟩ = .ok (.goesOn cancelled) ⟨job', scheduler.slots.regain given⟩) :
    scheduler.run (do conclude job.id (← atDesk job work)) =
      (.ok (Command.cancelling cancelled), scheduler.wentOn job' given) := by
  have hfind : (scheduler.turned job' given).registry.find? job'.id = some job' := by
    simp [turned, Registry.find?_put]
  have hdesk : atDesk job work scheduler = .ok (.goesOn cancelled) (scheduler.turned job' given) := by
    rw [atDesk, h]
    rfl
  apply run_of_ok
  simp only [run_bind, hdesk, conclude, run_modify, run_pure, refreshQueue, ← hid, hfind]
  rfl

theorem run_conclude_of_ends (hturned : (scheduler.turned job' given).Sound) {status : JobStatus}
    {cancelled : List TaskId}
    (h : work ⟨job, scheduler.slots⟩ =
      .ok (.ends status cancelled) ⟨job', scheduler.slots.regain given⟩) :
    scheduler.run (do conclude job.id (← atDesk job work)) =
      (.ok (Command.cancelling cancelled ++
        (Command.cancelling job'.board.running.toList ++ [.ended (job'.closing status)])),
        (scheduler.turned job' given).closed job' status) := by
  have hfind : (scheduler.turned job' given).registry.find? job'.id = some job' := by
    simp [turned, Registry.find?_put]
  have hdesk : atDesk job work scheduler =
      .ok (.ends status cancelled) (scheduler.turned job' given) := by
    rw [atDesk, h]
    rfl
  have hend := endJob_eq hfind status hturned 0
  rw [raise_zero, raise_zero] at hend
  apply run_of_ok
  simp only [run_bind, hdesk, conclude, run_endJob, ← hid, hend, run_pure]
  rfl

end Conclude

theorem run_report_of_none {scheduler : Scheduler} {id : JobId} {work : DeskM Fate}
    (h : scheduler.registry.find? id = none) : scheduler.run (report id work) = (.ok [], scheduler) := by
  apply run_of_ok
  simp only [report, run_bind, run_get, h, run_pure]

theorem run_report_of_find? {scheduler : Scheduler} {id : JobId} {job : LiveJob} {work : DeskM Fate}
    (h : scheduler.registry.find? id = some job) :
    scheduler.run (report id work) = scheduler.run (do conclude id (← atDesk job work)) := by
  simp only [Scheduler.run, report, run_bind, run_get, h]

theorem run_request_of_find? {scheduler : Scheduler} {id : JobId} {job : LiveJob} {work : DeskM Fate}
    (h : scheduler.registry.find? id = some job) :
    scheduler.run (request id work) = scheduler.run (do conclude id (← atDesk job work)) := by
  simp only [Scheduler.run, request, run_bind, run_get, h]

variable {scheduler : Scheduler} (hs : scheduler.Sound)
include hs

theorem reacts_conclude {event : Event} {job : LiveJob} {work : DeskM Fate}
    (hattends : scheduler.Attends event job work) :
    Reaction scheduler event
      (scheduler.run (do conclude job.id (← atDesk job work))).1
      (scheduler.run (do conclude job.id (← atDesk job work))).2 := by
  obtain ⟨hwork, hjob⟩ := id hattends
  rcases Event.turns_of_work? hwork (hs.live hjob) rfl with
    ⟨task, herror⟩ | ⟨fate, job', given, hturn, huntouched, hok⟩
  · rw [run_conclude_of_error hjob (herror scheduler.slots)]
    refine .refused rfl fun other work' h => ?_
    obtain ⟨rfl, rfl⟩ := hattends.unique h
    exact ⟨_, herror scheduler.slots⟩
  · have hload := hturn.load
    have hbound := hs.load_le hjob
    have hslots := hok scheduler.slots (by omega)
    cases fate with
    | untouched =>
        obtain ⟨rfl, rfl⟩ := huntouched rfl
        rw [run_conclude_of_untouched hjob hslots]
        refine .ignored fun other work' h => ?_
        obtain ⟨rfl, rfl⟩ := hattends.unique h
        exact hslots
    | goesOn cancelled =>
        rw [run_conclude_of_goesOn hturn.advances.id hslots]
        exact .wentOn hattends hturn hslots
    | ends status cancelled =>
        have hadvance : Advance .any scheduler (scheduler.turned job' given) :=
          .turn hjob hturn
        rw [run_conclude_of_ends hturn.advances.id (hadvance.sound hs).1 hslots]
        exact .ended hattends hturn hslots

section Address

variable {event : Event} {id : JobId} {work : DeskM Fate} (hwork : event.work? = some (id, work))
include hwork

theorem reacts_report (hreport : handle event = report id work) :
    Reaction scheduler event (scheduler.run (handle event)).1 (scheduler.run (handle event)).2 := by
  rw [hreport]
  cases hfind : scheduler.registry.find? id with
  | none =>
      rw [run_report_of_none hfind]
      exact .ignored fun _ _ h => absurd h (not_attends hwork hfind)
  | some job =>
      obtain ⟨rfl, -⟩ := hs.jobs id job hfind
      rw [run_report_of_find? hfind]
      exact reacts_conclude hs ⟨hwork, hfind⟩

theorem reacts_request (hrequest : handle event = request id work) :
    Reaction scheduler event (scheduler.run (handle event)).1 (scheduler.run (handle event)).2 := by
  cases hfind : scheduler.registry.find? id with
  | none =>
      have hrun : scheduler.run (handle event) = (.error (.jobNotFound id), scheduler) := by
        apply run_of_error
        simp only [hrequest, request, run_bind, run_get, hfind, run_throw]
      rw [hrun]
      exact .refused rfl fun _ _ h => absurd h (not_attends hwork hfind)
  | some job =>
      obtain ⟨rfl, -⟩ := hs.jobs id job hfind
      rw [hrequest, run_request_of_find? hfind]
      exact reacts_conclude hs ⟨hwork, hfind⟩

end Address

-- Every event is refused or ignored, or the one job that it is about takes it up.
theorem reacts_handle (event : Event) :
    Reaction scheduler event (scheduler.run (handle event)).1 (scheduler.run (handle event)).2 := by
  cases event with
  | submitted submission => exact reacts_submit scheduler submission
  | completed task result => exact reacts_report hs rfl rfl
  | lost task => exact reacts_report hs rfl rfl
  | pause id => exact reacts_request hs rfl rfl
  | resume id => exact reacts_request hs rfl rfl
  | kill id => exact reacts_request hs rfl rfl
  | killTask task => exact reacts_request hs rfl rfl
  | restart task => exact reacts_request hs rfl rfl
  | finish task => exact reacts_request hs rfl rfl
  | priority id wanted => exact reacts_request hs rfl rfl
  | shutdown => exact .ignored fun job work h => by cases h.1

end SchedulerM

end JobScheduler
