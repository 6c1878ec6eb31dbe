import JobScheduler.Proofs.Scheduler.Order
import JobScheduler.Proofs.Scheduler.Orderly
import JobScheduler.Proofs.Scheduler.Rejection

namespace JobScheduler

namespace Scheduler

-- What an event writes on the books: how it leaves its job, the summary if the job ends,
-- and the slots that it gives back.
structure Patch where
  job : JobId
  left : Option LiveJob
  summary : Option Summary
  freed : Nat

-- The patch is all that has changed on the books. The queue is not told apart: it follows
-- from the live jobs.
structure Patch.Applied (patch : Patch) (before after : Scheduler) : Prop where
  live : ∀ id, after.registry.find? id =
    if id = patch.job then patch.left else before.registry.find? id
  ended : ∀ id, after.registry.ended? id =
    if id = patch.job then patch.summary.or (before.registry.ended? id)
    else before.registry.ended? id
  nextId : after.registry.nextId = before.registry.nextId
  slots : after.slots = before.slots.regain patch.freed
  pending : after.pending = before.pending

theorem Patch.applied_self {scheduler : Scheduler} {job : LiveJob}
    (hjob : scheduler.registry.find? job.id = some job) :
    Patch.Applied ⟨job.id, some job, none, 0⟩ scheduler scheduler where
  live id := by
    split
    · rename_i heq
      rw [heq, hjob]
    · rfl
  ended id := by simp
  nextId := rfl
  slots := rfl
  pending := rfl

theorem Patch.applied_wentOn (scheduler : Scheduler) (job : LiveJob) (given : Nat) :
    Patch.Applied ⟨job.id, some job, none, given⟩ scheduler (scheduler.wentOn job given) where
  live id := find?_wentOn scheduler job given id
  ended id := by simp [Registry.ended?, wentOn, turned, Registry.put]
  nextId := rfl
  slots := rfl
  pending := rfl

theorem Patch.applied_closed (scheduler : Scheduler) (job : LiveJob) (given : Nat) (status : JobStatus) :
    Patch.Applied ⟨job.id, none, some (job.closing status), given + job.board.load⟩ scheduler
      ((scheduler.turned job given).closed job status) where
  live id := find?_closed scheduler job given status id
  ended id := ended?_closed scheduler job given status id
  nextId := rfl
  slots := by simp [closed, retired, turned, Slots.regain, Nat.add_assoc]
  pending := rfl

-- What is on the books about other jobs is as it was, their entries in the queue included.
structure KeepsOthers (id : JobId) (before after : Scheduler) : Prop where
  live : ∀ other, other ≠ id → after.registry.find? other = before.registry.find? other
  ended : ∀ other, other ≠ id → after.registry.ended? other = before.registry.ended? other
  queued : after.queue.ordered.toList.filter (·.job ≠ id) =
    before.queue.ordered.toList.filter (·.job ≠ id)

section Patches

variable {before after : Scheduler} {patch : Patch}

theorem Patch.Applied.keepsOthers (h : patch.Applied before after) (hb : before.Orderly)
    (ha : after.Orderly) : KeepsOthers patch.job before after where
  live other hne := by rw [h.live, if_neg hne]
  ended other hne := by rw [h.ended, if_neg hne]
  queued := by
    refine SortedMap.eq_of_increasing_of_mem_iff (after.queue.ordered.toList_increasing.filter _)
      (before.queue.ordered.toList_increasing.filter _) fun key => ?_
    simp only [List.mem_filter, decide_eq_true_eq]
    refine and_congr_left fun hne => ?_
    rw [ha.ordered.keyed.mem_ordered_iff, hb.ordered.keyed.mem_ordered_iff, ha.ordered.mirrors,
      hb.ordered.mirrors, h.live, if_neg hne]

-- Patches for two jobs can be applied in either order.
theorem Patch.Applied.comm {other : Patch} {first second both both' : Scheduler}
    (hne : patch.job ≠ other.job) (hfirst : patch.Applied before first)
    (hboth : other.Applied first both) (hsecond : other.Applied before second)
    (hboth' : patch.Applied second both') (horderly : both.Orderly) (horderly' : both'.Orderly) :
    both = both' := by
  have hlive (id : JobId) : both.registry.find? id = both'.registry.find? id := by
    rw [hboth.live, hboth'.live, hfirst.live, hsecond.live]
    by_cases hid : id = patch.job
    · simp [hid, hne]
    · simp [hid]
  have hended (id : JobId) : both.registry.ended? id = both'.registry.ended? id := by
    rw [hboth.ended, hboth'.ended, hfirst.ended, hsecond.ended]
    by_cases hid : id = patch.job
    · simp [hid, hne]
    · simp [hid]
  have hnextId : both.registry.nextId = both'.registry.nextId := by
    rw [hboth.nextId, hboth'.nextId, hfirst.nextId, hsecond.nextId]
  have hqueue : both.queue = both'.queue :=
    horderly.ordered.keyed.ext horderly'.ordered.keyed fun id => by
      rw [horderly.ordered.mirrors, horderly'.ordered.mirrors, hlive]
  have hslots : both.slots = both'.slots := by
    rw [hboth.slots, hboth'.slots, hfirst.slots, hsecond.slots]
    simp [Slots.regain, Nat.add_right_comm]
  have hpending : both.pending = both'.pending := by
    rw [hboth.pending, hboth'.pending, hfirst.pending, hsecond.pending]
  obtain ⟨⟨live, ended, nextId⟩, queue, slots, pending⟩ := both
  obtain ⟨⟨live', ended', nextId'⟩, queue', slots', pending'⟩ := both'
  obtain rfl : live = live' := SortedMap.ext_find? hlive
  obtain rfl : ended = ended' := SortedMap.ext_find? hended
  obtain rfl : nextId = nextId' := hnextId
  obtain rfl : queue = queue' := hqueue
  obtain rfl : slots = slots' := hslots
  obtain rfl : pending = pending' := hpending
  rfl

end Patches

section Events

open SchedulerM

variable {event : Event} {work : DeskM Fate}

theorem run_handle_of_find? {scheduler : Scheduler} {id : JobId} {job : LiveJob}
    (hwork : event.work? = some (id, work)) (hjob : scheduler.registry.find? id = some job) :
    scheduler.run (handle event) = scheduler.run (do conclude id (← atDesk job work)) := by
  cases event with
  | submitted | shutdown => cases hwork
  | completed | lost =>
      cases hwork
      exact run_report_of_find? hjob
  | pause | resume | kill | killTask | restart | finish | priority =>
      cases hwork
      simp only [Scheduler.run, handle, request, run_bind, run_get, hjob]

-- What an event comes to depends on nothing but the job that it is about.
theorem exists_patch {job : LiveJob} (hs : job.Sound) (hwork : event.work? = some (job.id, work)) :
    ∃ (answer : Except Fault (List Command)) (patch : Patch), patch.job = job.id ∧ ∀ scheduler : Scheduler, scheduler.Sound →
      scheduler.registry.find? job.id = some job →
      (scheduler.run (handle event)).1 = answer ∧
        patch.Applied scheduler (scheduler.run (handle event)).2 := by
  rcases Event.turns_of_work? hwork hs rfl with
    ⟨task, herror⟩ | ⟨fate, job', given, hturn, huntouched, hok⟩
  · refine ⟨.error (.taskNotFound task), ⟨job.id, some job, none, 0⟩, rfl,
      fun scheduler hs hjob => ?_⟩
    rw [run_handle_of_find? hwork hjob, run_conclude_of_error hjob (herror scheduler.slots)]
    exact ⟨rfl, Patch.applied_self hjob⟩
  · have hdone (scheduler : Scheduler) (hs : scheduler.Sound)
        (hjob : scheduler.registry.find? job.id = some job) :
        work ⟨job, scheduler.slots⟩ = .ok fate ⟨job', scheduler.slots.regain given⟩ := by
      have hload := hturn.load
      have hbound := hs.load_le hjob
      exact hok scheduler.slots (by omega)
    have hid : job'.id = job.id := hturn.advances.id
    cases fate with
    | untouched =>
        obtain ⟨rfl, rfl⟩ := huntouched rfl
        refine ⟨.ok [], ⟨job'.id, some job', none, 0⟩, rfl, fun scheduler hs hjob => ?_⟩
        rw [run_handle_of_find? hwork hjob, run_conclude_of_untouched hjob (hdone scheduler hs hjob)]
        exact ⟨rfl, Patch.applied_self hjob⟩
    | goesOn cancelled =>
        refine ⟨.ok (Command.cancelling cancelled), ⟨job'.id, some job', none, given⟩, hid,
          fun scheduler hs hjob => ?_⟩
        rw [run_handle_of_find? hwork hjob, run_conclude_of_goesOn hid (hdone scheduler hs hjob)]
        exact ⟨rfl, Patch.applied_wentOn scheduler job' given⟩
    | ends status cancelled =>
        refine ⟨.ok (Command.cancelling cancelled ++
            (Command.cancelling job'.board.running.toList ++ [.ended (job'.closing status)])),
          ⟨job'.id, none, some (job'.closing status), given + job'.board.load⟩, hid,
          fun scheduler hs hjob => ?_⟩
        have hadvance : Advance Terms.any scheduler (scheduler.turned job' given) := .turn hjob hturn
        rw [run_handle_of_find? hwork hjob,
          run_conclude_of_ends hid (hadvance.sound hs).1 (hdone scheduler hs hjob)]
        exact ⟨rfl, Patch.applied_closed scheduler job' given status⟩

end Events

-- At any moment of any run, an event about a live job leaves all other jobs alone, and two
-- events about different live jobs can be handled in either order: the scheduler is the
-- same in the end, and each event is answered as it would be without the other.
theorem events_independent (total : Nat) (operations : List Operation) {moment : Scheduler}
    (hmoment : moment ∈ (Scheduler.new total).moments operations) {first second : Event}
    {a b : JobId} (hfirst : first.job? = some a) (hsecond : second.job? = some b) (hne : a ≠ b)
    (ha : (moment.registry.find? a).isSome) (hb : (moment.registry.find? b).isSome) :
    let handled := fun (scheduler : Scheduler) (event : Event) =>
      scheduler.run (SchedulerM.handle event)
    KeepsOthers a moment (handled moment first).2 ∧
    KeepsOthers b moment (handled moment second).2 ∧
    (handled (handled moment first).2 second).2 = (handled (handled moment second).2 first).2 ∧
    (handled (handled moment second).2 first).1 = (handled moment first).1 ∧
    (handled (handled moment first).2 second).1 = (handled moment second).1 := by
  intro handled
  have horderly : moment.Orderly := orderly_of_moment (orderly_new total) hmoment
  have hhandled {scheduler : Scheduler} (h : scheduler.Orderly) (event : Event) :
      (handled scheduler event).2.Orderly := orderly_handle h event
  obtain ⟨jobA, hjobA⟩ := Option.isSome_iff_exists.mp ha
  obtain ⟨jobB, hjobB⟩ := Option.isSome_iff_exists.mp hb
  obtain ⟨rfl, hsoundA⟩ := horderly.sound.jobs a jobA hjobA
  obtain ⟨rfl, hsoundB⟩ := horderly.sound.jobs b jobB hjobB
  obtain ⟨⟨_, workA⟩, hworkA, rfl⟩ := Option.map_eq_some_iff.mp hfirst
  obtain ⟨⟨_, workB⟩, hworkB, rfl⟩ := Option.map_eq_some_iff.mp hsecond
  obtain ⟨answerA, patchA, hpatchA, hallA⟩ := exists_patch hsoundA hworkA
  obtain ⟨answerB, patchB, hpatchB, hallB⟩ := exists_patch hsoundB hworkB
  have hdistinct : patchA.job ≠ patchB.job := by rwa [hpatchA, hpatchB]
  obtain ⟨hanswerA, hA⟩ := hallA moment horderly.sound hjobA
  obtain ⟨hanswerB, hB⟩ := hallB moment horderly.sound hjobB
  have horderlyA := hhandled horderly first
  have horderlyB := hhandled horderly second
  -- Each event finds its job as it was when the other one has been handled.
  obtain ⟨hanswerAB, hAB⟩ := hallB _ horderlyA.sound
    (by rw [hA.live, if_neg (by rw [hpatchA]; exact Ne.symm hne), hjobB])
  obtain ⟨hanswerBA, hBA⟩ := hallA _ horderlyB.sound
    (by rw [hB.live, if_neg (by rwa [hpatchB]), hjobA])
  refine ⟨hpatchA ▸ hA.keepsOthers horderly horderlyA, hpatchB ▸ hB.keepsOthers horderly horderlyB,
    ?_, hanswerBA.trans hanswerA.symm, hanswerAB.trans hanswerB.symm⟩
  exact hA.comm hdistinct hAB hB hBA (hhandled horderlyA second) (hhandled horderlyB first)

-- The first task of one job is done while the other job is killed.
theorem events_independent_releases :
    let operations : List Operation := [.submit release, .submit release, .kickoff (.acceptAll false)]
    let moment := (Scheduler.new 2).reached operations
    let first : Event := .completed ⟨⟨0⟩, 0⟩ (.success ⟨⟨0⟩, 0⟩ "")
    let second : Event := .kill ⟨1⟩
    let handled := fun (scheduler : Scheduler) (event : Event) =>
      scheduler.run (SchedulerM.handle event)
    KeepsOthers ⟨0⟩ moment (handled moment first).2 ∧
    KeepsOthers ⟨1⟩ moment (handled moment second).2 ∧
    (handled (handled moment first).2 second).2 = (handled (handled moment second).2 first).2 ∧
    (handled (handled moment second).2 first).1 = (handled moment first).1 ∧
    (handled (handled moment first).2 second).1 = (handled moment second).1 ∧
    moment.slots.free = 0 ∧ (handled (handled moment first).2 second).2.slots.free = 2 := by
  intro operations moment first second handled
  have hreached : moment = (((Scheduler.new 2).planned release (release.plan ⟨0⟩)).planned release
      (release.plan ⟨1⟩)).reached [.kickoff (.acceptAll false)] := by
    have hfirst : moment = ((Scheduler.new 2).planned release (release.plan ⟨0⟩)).reached
        [.submit release, .kickoff (.acceptAll false)] := reached_submit (.new 2) resolve_release _
    rw [hfirst, reached_submit _ (resolve_of_graph release rfl rfl rfl rfl _)]
    rfl
  have hlive : (moment.registry.find? ⟨0⟩).isSome ∧ (moment.registry.find? ⟨1⟩).isSome := by
    rw [hreached]
    decide +kernel
  have hslots : moment.slots.free = 0 ∧
      (handled (handled moment first).2 second).2.slots.free = 2 := by
    rw [hreached]
    decide +kernel
  have hfirst : first.job? = some ⟨0⟩ := rfl
  have hsecond : second.job? = some ⟨1⟩ := rfl
  obtain ⟨hkeepsA, hkeepsB, hcomm, hanswerA, hanswerB⟩ := events_independent 2 operations
    (reached_mem_moments _ operations) hfirst hsecond (by decide) hlive.1 hlive.2
  exact ⟨hkeepsA, hkeepsB, hcomm, hanswerA, hanswerB, hslots⟩

end Scheduler

end JobScheduler
