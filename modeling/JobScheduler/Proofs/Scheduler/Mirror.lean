import JobScheduler.Proofs.Scheduler.Greedy
import JobScheduler.Proofs.Scheduler.Lasting

namespace JobScheduler

namespace Registry

-- A queue shows the live jobs that have something to start, each once, in the order of
-- service by the priorities that they have now.
structure Mirrored (registry : Registry) (ids : List JobId) : Prop where
  mem_iff : ∀ id, id ∈ ids ↔
    ∃ job, registry.find? id = some job ∧ job.board.eligible.toList ≠ []
  nodup : ids.Nodup
  ordered : ids.Pairwise fun a b => ∀ first second,
    registry.find? a = some first → registry.find? b = some second →
      second.board.priority.rank < first.board.priority.rank ∨
        first.board.priority = second.board.priority ∧ a.number < b.number

end Registry

theorem Board.hasEligible_iff (board : Board) : board.hasEligible ↔ board.eligible.toList ≠ [] := by
  simp [hasEligible, SortedMap.isEmpty, SortedSet.toList, SortedMap.keys]

namespace Scheduler

theorem Orderly.mirrored {scheduler : Scheduler} (h : scheduler.Orderly) :
    scheduler.registry.Mirrored scheduler.queue.toList where
  mem_iff id := by
    rw [h.ordered.ready]
    simp only [Board.hasEligible_iff]
  nodup := ReadyQueue.nodup_toList h.ordered.keyed
  ordered := by
    have hlive (job : LiveJob) (hjob : job ∈ scheduler.registry.ranked) :
        scheduler.registry.find? job.id = some job := (mem_ranked_iff h.sound).mp hjob
    rw [queue_eq_ranked h, List.pairwise_map]
    refine ((ranked_increasing h.sound).sublist List.filter_sublist).imp_of_mem
      fun {a b} ha hb hbefore first second hfirst hsecond => ?_
    rw [hlive a (List.mem_of_mem_filter ha), Option.some.injEq] at hfirst
    rw [hlive b (List.mem_of_mem_filter hb), Option.some.injEq] at hsecond
    rw [← hfirst, ← hsecond]
    exact (ServiceKey.compare_eq_lt_iff a.board.serviceKey b.board.serviceKey).mp hbefore

-- Whatever drives a scheduler, recoveries included, its queue mirrors the boards of the
-- live jobs, and every board has the priority that the submission of its job states.
theorem queue_mirrors_reached (total : Nat) (operations : List Operation) :
    let scheduler := (Scheduler.new total).reached operations
    scheduler.registry.Mirrored scheduler.queue.toList ∧
      ∀ id job, scheduler.registry.find? id = some job →
        job.board.job = id ∧ job.board.priority = job.submission.priority := by
  intro scheduler
  have horderly : scheduler.Orderly := orderly_reached total operations
  refine ⟨horderly.mirrored, fun id job hjob => ⟨(horderly.sound.jobs id job hjob).1, ?_⟩⟩
  obtain ⟨submission, hcarries⟩ := Ledger.carriesOut_reached total operations hjob
  rw [hcarries.submitted]

-- A change of priority moves a job ahead of one that was taken in before it.
example :
    let scheduler := ((((Scheduler.new 2).planned errands (errands.plan ⟨0⟩)).planned errands
      (errands.plan ⟨1⟩)).perform (.step (.acceptAll false) (.priority ⟨1⟩ .highest))).2
    scheduler.queue.toList = [⟨1⟩, ⟨0⟩] := by
  decide +kernel

end Scheduler

end JobScheduler
