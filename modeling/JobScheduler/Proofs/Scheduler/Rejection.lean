import JobScheduler.Proofs.Scheduler.React
import JobScheduler.Proofs.Scheduler.Order

namespace JobScheduler

theorem Fault.Kind.mem_of_isRefusal {kind : Fault.Kind} (h : kind.isRefusal) :
    kind ∈ [.configuration, .cycle, .jobNotFound, .taskNotFound] := by
  cases kind <;> first | decide | cases h

-- The job that an event is about.
def Event.job? (event : Event) : Option JobId := event.work?.map (·.1)

-- An event comes too late for a job, or asks for what is so already.
def LiveJob.Overlooks (job : LiveJob) : Event → Prop
  | .completed task _ | .lost task => job.board.placeOf task ≠ .ok .running
  | .pause _ => job.status = .paused
  | .resume _ => job.status ≠ .paused
  | .killTask task => job.board.placeOf task = .ok .blocked ∨ job.board.placeOf task = .ok .done
  | .restart task | .finish task => job.statusOf? task ≠ some .inError
  | .submitted _ | .kill _ | .priority .. | .shutdown => False

-- What is overlooked changes nothing at the desk.
theorem LiveJob.unchanged_of_overlooks {job : LiveJob} {event : Event} (h : job.Overlooks event)
    {id : JobId} {work : DeskM Fate} (hwork : event.work? = some (id, work)) (slots : Slots) :
    work ⟨job, slots⟩ = .ok .untouched ⟨job, slots⟩ ∨
      ∃ fault, work ⟨job, slots⟩ = .error fault ⟨job, slots⟩ := by
  cases event with
  | submitted submission => cases h
  | completed task result =>
      cases hwork
      cases hcard : job.board.card task with
      | error fault => exact .inr ⟨fault, DeskM.taskCompleted_of_unknown slots result hcard⟩
      | ok card =>
          refine .inl (DeskM.taskCompleted_of_late slots result hcard fun hrunning => h ?_)
          rw [Board.placeOf_of_card hcard, hrunning]
  | lost task =>
      cases hwork
      cases hcard : job.board.card task with
      | error fault => exact .inr ⟨fault, DeskM.taskLost_of_unknown slots hcard⟩
      | ok card =>
          refine .inl (DeskM.taskLost_of_late slots hcard fun hrunning => h ?_)
          rw [Board.placeOf_of_card hcard, hrunning]
  | pause id => cases hwork; exact .inl (DeskM.pauseJob_of_held slots h)
  | resume id => cases hwork; exact .inl (DeskM.resumeJob_of_not_held slots h)
  | kill id => cases h
  | killTask task =>
      cases hwork
      have hcard {place : Place} (hplace : job.board.placeOf task = .ok place)
          (hopen : place = .blocked ∨ place = .done) :
          DeskM.killTask task ⟨job, slots⟩ = .ok .untouched ⟨job, slots⟩ := by
        obtain ⟨card, hcard, rfl⟩ := Board.placeOf_eq_ok_iff.mp hplace
        exact DeskM.killTask_of_blocked_or_done slots hcard hopen
      exact .inl (h.elim (hcard · (.inl rfl)) (hcard · (.inr rfl)))
  | restart task => cases hwork; exact .inl (DeskM.restartInError_of_other slots h)
  | finish task => cases hwork; exact .inl (DeskM.finishInError_of_other slots h)
  | priority id wanted => cases h
  | shutdown => cases h

namespace Scheduler

-- The event is about a job that is unknown, has ended or overlooks it.
def Overlooks (scheduler : Scheduler) (event : Event) : Prop :=
  ∃ id, event.job? = some id ∧ ∀ job, scheduler.registry.find? id = some job → job.Overlooks event

section Reaction

variable {scheduler scheduler' : Scheduler} {event : Event} {answer : Except Fault (List Command)}
  (hreaction : scheduler.Reaction event answer scheduler')
include hreaction

-- An error is a refusal, and nothing has changed.
theorem Reaction.of_error {fault : Fault} (h : answer = .error fault) :
    fault.kind.isRefusal ∧ scheduler' = scheduler := by
  cases hreaction with
  | refused hrefusal =>
      cases h
      exact ⟨hrefusal, rfl⟩
  | ignored | joined | wentOn | ended => cases h

theorem Reaction.of_overlooks (h : scheduler.Overlooks event) : scheduler' = scheduler := by
  obtain ⟨id, hid, hoverlooks⟩ := h
  -- Work that is overlooked ends in neither of the ways in which a job goes on or ends.
  have hnot {job : LiveJob} {work : DeskM Fate} (hattends : scheduler.Attends event job work)
      {fate : Fate} {desk : Desk} (hdone : work ⟨job, scheduler.slots⟩ = .ok fate desk) :
      fate = .untouched := by
    rw [Event.job?, hattends.1, Option.map_some, Option.some.injEq] at hid
    have hjob : job.Overlooks event := hoverlooks job (hid ▸ hattends.2)
    rcases LiveJob.unchanged_of_overlooks hjob hattends.1 scheduler.slots with
      hsame | ⟨fault, herror⟩
    · rw [hdone] at hsame
      cases hsame
      rfl
    · rw [hdone] at herror
      cases herror
  cases hreaction with
  | refused | ignored => rfl
  | joined hevent =>
      rw [hevent] at hid
      cases hid
  | wentOn hattends _ hdone => cases hnot hattends hdone
  | ended hattends _ hdone => cases hnot hattends hdone

end Reaction

-- At no moment of a run does an event meet a broken contract or a dispatch pass fail, and
-- an event that is refused or overlooked leaves everything as it was.
theorem unchanged_of_rejected (total : Nat) (operations : List Operation) (moment : Scheduler)
    (hmoment : moment ∈ (Scheduler.new total).moments operations) (event : Event) :
    (∀ fault scheduler', SchedulerM.handle event moment = .error fault scheduler' →
      fault.kind ∈ [.configuration, .cycle, .jobNotFound, .taskNotFound] ∧ scheduler' = moment) ∧
    (moment.Overlooks event → (moment.run (SchedulerM.handle event)).2 = moment) ∧
    ∀ accepts, ∃ assignments scheduler',
      SchedulerM.dispatch accepts { moment with pending := [] } = .ok assignments scheduler' := by
  obtain ⟨hs, -⟩ := sound_of_moment hmoment
  have hreaction := SchedulerM.reacts_handle hs event
  refine ⟨fun fault scheduler' herror => ?_, hreaction.of_overlooks, fun accepts => ?_⟩
  · rw [run_of_error herror] at hreaction
    obtain ⟨hrefusal, hsame⟩ := hreaction.of_error rfl
    exact ⟨Fault.Kind.mem_of_isRefusal hrefusal, hsame⟩
  · obtain ⟨assignments, scheduler', -, hrun⟩ :=
      SchedulerM.passes_dispatch hs.cleared .any accepts
    exact ⟨assignments, scheduler', hrun 0⟩

-- The second task has not started, so nothing that is lost can be an execution of it.
theorem unchanged_of_rejected_release :
    let operations : List Operation := [.submit release, .kickoff (.acceptAll false)]
    let moment := (Scheduler.new 2).reached operations
    let event : Event := .lost ⟨⟨0⟩, 1⟩
    moment ∈ (Scheduler.new 2).moments operations ∧ moment.Overlooks event ∧
      (moment.registry.find? ⟨0⟩).isSome ∧ (moment.run (SchedulerM.handle event)).2 = moment ∧
      ∃ fault, SchedulerM.handle (.lost ⟨⟨0⟩, 2⟩) moment = .error fault moment ∧
        fault.kind ∈ [.configuration, .cycle, .jobNotFound, .taskNotFound] := by
  intro operations moment event
  have hmoment : moment ∈ (Scheduler.new 2).moments operations := reached_mem_moments _ _
  have hreached : moment = ((Scheduler.new 2).planned release (release.plan ⟨0⟩)).reached
      [.kickoff (.acceptAll false)] := reached_submit (.new 2) resolve_release _
  have hplace : (moment.registry.find? ⟨0⟩).map (fun job => (job.board.placeOf ⟨⟨0⟩, 1⟩).toOption) =
      some (some .blocked) := by
    rw [hreached]
    decide +kernel
  obtain ⟨job, hjob, hblocked⟩ := Option.map_eq_some_iff.mp hplace
  have hoverlooks : moment.Overlooks event := by
    refine ⟨⟨0⟩, rfl, fun other hother => ?_⟩
    rw [hjob, Option.some.injEq] at hother
    subst hother
    intro hrunning
    rw [hrunning] at hblocked
    cases hblocked
  have hfault : (moment.run (SchedulerM.handle (.lost ⟨⟨0⟩, 2⟩))).1.toOption.isNone := by
    rw [hreached]
    decide +kernel
  refine ⟨hmoment, hoverlooks, by rw [hjob]; rfl,
    (unchanged_of_rejected 2 operations moment hmoment event).2.1 hoverlooks, ?_⟩
  cases hrun : SchedulerM.handle (.lost ⟨⟨0⟩, 2⟩) moment with
  | ok commands final =>
      rw [run_of_ok hrun] at hfault
      cases hfault
  | error fault final =>
      obtain ⟨hkind, rfl⟩ :=
        (unchanged_of_rejected 2 operations moment hmoment (.lost ⟨⟨0⟩, 2⟩)).1 fault final hrun
      exact ⟨fault, rfl, hkind⟩

end Scheduler

end JobScheduler
