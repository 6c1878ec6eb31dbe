import JobScheduler.Proofs.Scheduler.Order
import JobScheduler.Proofs.Scheduler.Orderly

namespace JobScheduler

theorem LiveJob.starved_of_full {job : LiveJob} (hs : job.Sound) : job.Starved 0 := by
  intro task htask
  obtain ⟨card, hcard, -⟩ := Board.placeOf_eq_ok_iff.mp (hs.board.partitioned.mem_eligible_iff.mp htask)
  exact ⟨card, hcard, hs.resources_pos (Board.Wired.mem_of_card hcard)⟩

theorem LiveJob.starved_of_not_hasEligible {job : LiveJob} (hs : job.Sound)
    (h : ¬job.board.hasEligible) (free : Nat) : job.Starved free := fun task htask =>
  absurd (hs.board.partitioned.hasEligible_iff.mpr
    ⟨task, hs.board.partitioned.mem_eligible_iff.mp htask⟩) h

theorem LiveJob.Starved.mono {job : LiveJob} {free free' : Nat} (h : job.Starved free)
    (hle : free' ≤ free) : job.Starved free' := by
  intro task htask
  obtain ⟨card, hcard, hlarge⟩ := h task htask
  exact ⟨card, hcard, Nat.lt_of_le_of_lt hle hlarge⟩

theorem Registry.load_eq_zero {registry : Registry}
    (h : ∀ id job, registry.find? id = some job → job.board.load = 0) : registry.load = 0 := by
  rw [load, SortedMap.total, SortedMap.values, List.map_map, List.sum_eq_zero_iff_forall_eq_nat]
  intro weight hweight
  obtain ⟨⟨id, job⟩, hentry, rfl⟩ := List.mem_map.mp hweight
  exact h id job (SortedMap.mem_entries_iff.mp hentry)

namespace Scheduler

section Pass

variable {ids : List JobId} {scheduler final : Scheduler} {assignments : List Assignment}

-- A pass changes only the jobs that it serves, and gives no slots back.
theorem Serves.frame {accepts : Card → Bool} (h : Serves accepts ids scheduler assignments final)
    (hs : scheduler.Sound) :
    final.slots.free ≤ scheduler.slots.free ∧
      ∀ id, id ∉ ids → final.registry.find? id = scheduler.registry.find? id := by
  induction h with
  | spent => exact ⟨Nat.le_refl _, fun _ _ => rfl⟩
  | gone _ _ ih =>
      obtain ⟨hfree, hothers⟩ := ih (hs.queued _)
      exact ⟨hfree, fun id hid => hothers id (List.not_mem_of_not_mem_cons hid)⟩
  | job hjob _ ih =>
      obtain ⟨hfree, hothers⟩ := ih (hs.attended accepts hjob)
      refine ⟨Nat.le_trans hfree (Nat.sub_le _ _), fun id hid => ?_⟩
      rw [hothers id (List.not_mem_of_not_mem_cons hid), find?_attended hs accepts hjob,
        if_neg (List.ne_of_not_mem_cons hid)]

-- A pass that accepts every task leaves none that would fit.
theorem Serves.starved (h : Serves (fun _ => true) ids scheduler assignments final)
    (hs : scheduler.Sound) (hnodup : ids.Nodup) :
    ∀ id ∈ ids, ∀ job, final.registry.find? id = some job → job.Starved final.slots.free := by
  induction h with
  | @spent ids scheduler hspent =>
      intro id hid job hjob
      rcases hspent with rfl | hfull
      · cases hid
      · rw [hfull]
        exact LiveJob.starved_of_full (hs.jobs id job hjob).2
  | @gone gone rest scheduler assignments final hgone hserves ih =>
      obtain ⟨hfresh, hnodup⟩ := List.nodup_cons.mp hnodup
      refine List.forall_mem_cons.mpr ⟨fun job hjob => ?_, ih (hs.queued _) hnodup⟩
      rw [(hserves.frame (hs.queued _)).2 gone hfresh] at hjob
      rw [hgone] at hjob
      cases hjob
  | @job first rest scheduler assignments final hfirst hserves ih =>
      obtain ⟨hfresh, hnodup⟩ := List.nodup_cons.mp hnodup
      have hattended := hs.attended (fun _ => true) hfirst
      refine List.forall_mem_cons.mpr ⟨fun job hjob => ?_, ih hattended hnodup⟩
      obtain ⟨hfree, hothers⟩ := hserves.frame hattended
      rw [hothers first.id hfresh, find?_attended hs (fun _ => true) hfirst, if_pos rfl] at hjob
      cases hjob
      exact (LiveJob.starved_served (hs.live hfirst) scheduler.slots.free).mono hfree

end Pass

-- The end of a step that accepts every task.
theorem starved_finishStep {scheduler : Scheduler} (h : scheduler.Orderly) {policy : Policy}
    (haccepts : policy.accepts = fun _ => true) (commands : List Command) (id : JobId) (job : LiveJob)
    (hjob : (scheduler.finishStep policy commands).2.registry.find? id = some job) :
    job.Starved (scheduler.finishStep policy commands).2.slots.free := by
  obtain ⟨assignments, final, hserves, hfinal, -⟩ := finishStep_eq h.sound policy commands
  rw [haccepts] at hserves
  rw [hfinal] at hjob ⊢
  by_cases hid : id ∈ scheduler.queue.toList
  · exact hserves.starved h.sound.cleared (ReadyQueue.nodup_toList h.ordered.keyed) id hid job hjob
  · rw [(hserves.frame h.sound.cleared).2 id hid] at hjob
    refine LiveJob.starved_of_not_hasEligible (h.sound.jobs id job hjob).2 (fun heligible => hid ?_) _
    exact (h.ordered.ready id).mpr ⟨job, hjob, heligible⟩

end Scheduler

namespace Scheduler

-- Where no task runs, all slots are free.
theorem Counted.free_of_idle {scheduler : Scheduler} (hs : scheduler.Counted)
    (hidle : ∀ id job, scheduler.registry.find? id = some job → job.board.running.toList = []) :
    scheduler.slots.free = scheduler.slots.total := by
  have hload : scheduler.registry.load = 0 := Registry.load_eq_zero fun id job hjob => by
    obtain ⟨-, hsound⟩ := hs.jobs id job hjob
    refine Board.load_eq_zero hsound.board fun task hrunning => ?_
    have hmem := hsound.board.partitioned.mem_running_iff.mpr hrunning
    rw [hidle id job hjob] at hmem
    cases hmem
  have hslots := hs.slots_eq
  omega

-- A job of an idle scheduler whose tasks all fit waits for a client.
theorem exists_paused_of_idle {scheduler : Scheduler} (h : scheduler.Orderly) (hs : scheduler.Counted)
    (hstarved : ∀ id job, scheduler.registry.find? id = some job → job.Starved scheduler.slots.free)
    (hfit : ∀ id job, scheduler.registry.find? id = some job →
      ∀ card ∈ job.board.cards, card.resources ≤ scheduler.slots.total)
    (hidle : ∀ id job, scheduler.registry.find? id = some job → job.board.running.toList = [])
    (id : JobId) (job : LiveJob) (hjob : scheduler.registry.find? id = some job) :
    job.board.paused.toList ≠ [] := by
  obtain ⟨-, hsound⟩ := h.sound.jobs id job hjob
  refine hsound.exists_paused (h.ordered.incomplete id job hjob) ?_ (hidle id job hjob)
  refine List.eq_nil_iff_forall_not_mem.mpr fun task htask => ?_
  obtain ⟨card, hcard, hlarge⟩ := hstarved id job hjob task htask
  have hsmall := hfit id job hjob card (Board.Wired.mem_of_card hcard)
  rw [hs.free_of_idle hidle] at hlarge
  exact Nat.not_lt.mpr hsmall hlarge

end Scheduler

end JobScheduler
