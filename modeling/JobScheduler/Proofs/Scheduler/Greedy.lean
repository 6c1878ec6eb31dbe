import Mathlib.Data.List.Sort
import JobScheduler.Proofs.Desk.Walk
import JobScheduler.Proofs.Scheduler.Order
import JobScheduler.Proofs.Scheduler.Orderly

namespace JobScheduler

theorem Board.compare_serviceKey (a b : Board) :
    compare a.serviceKey b.serviceKey = a.servedBefore b := by
  have hpriority : compare a.serviceKey.rank b.serviceKey.rank = compare b.priority a.priority := by
    simp only [ServiceKey.rank, serviceKey]
    cases a.priority <;> cases b.priority <;> rfl
  rw [servedBefore, ← hpriority]
  rfl

-- Whether a job is served no later than another one.
def LiveJob.noLater (a b : LiveJob) : Prop := (a.board.servedBefore b.board).isLE

instance : DecidableRel LiveJob.noLater := fun a b =>
  inferInstanceAs (Decidable ((a.board.servedBefore b.board).isLE = true))

instance : IsTrans LiveJob LiveJob.noLater where
  trans a b c hab hbc := by
    rw [LiveJob.noLater, ← Board.compare_serviceKey] at hab hbc ⊢
    exact Std.TransCmp.isLE_trans hab hbc

instance : Std.Total LiveJob.noLater where
  total a b := by
    rw [LiveJob.noLater, LiveJob.noLater, ← Board.compare_serviceKey, ← Board.compare_serviceKey]
    cases hcompare : compare a.board.serviceKey b.board.serviceKey with
    | lt | eq => exact .inl rfl
    | gt =>
        rw [Std.OrientedCmp.gt_iff_lt.mp hcompare]
        exact .inr rfl

-- The live jobs in the order of service.
def Registry.ranked (registry : Registry) : List LiveJob :=
  registry.live.values.insertionSort LiveJob.noLater

namespace Scheduler

section Ranked

variable {scheduler : Scheduler} (hs : scheduler.Sound)
include hs

theorem mem_ranked_iff {job : LiveJob} :
    job ∈ scheduler.registry.ranked ↔ scheduler.registry.find? job.id = some job := by
  rw [Registry.ranked, List.mem_insertionSort, SortedMap.values, List.mem_map]
  constructor
  · rintro ⟨⟨id, job⟩, hentry, rfl⟩
    have hjob : scheduler.registry.find? id = some job := SortedMap.mem_entries_iff.mp hentry
    rw [(hs.jobs id job hjob).1, hjob]
  · intro hjob
    exact ⟨(job.id, job), SortedMap.mem_entries_iff.mpr hjob, rfl⟩

theorem nodup_ranked : (scheduler.registry.ranked.map LiveJob.id).Nodup := by
  have hperm := (List.perm_insertionSort LiveJob.noLater scheduler.registry.live.values).map LiveJob.id
  refine hperm.nodup_iff.mpr ?_
  have hkeys : scheduler.registry.live.values.map LiveJob.id = scheduler.registry.live.keys := by
    rw [SortedMap.values, SortedMap.keys, List.map_map]
    apply List.map_congr_left
    rintro ⟨id, job⟩ hentry
    exact (hs.jobs id job (SortedMap.mem_entries_iff.mp hentry)).1
  rw [hkeys]
  exact SortedMap.nodup_keys _

theorem ranked_increasing : scheduler.registry.ranked.Pairwise fun a b =>
    compare a.board.serviceKey b.board.serviceKey = .lt := by
  have hsorted : scheduler.registry.ranked.Pairwise LiveJob.noLater :=
    List.pairwise_insertionSort LiveJob.noLater _
  refine hsorted.imp₂ (fun a b hle hne => ?_) (List.pairwise_map.mp (nodup_ranked hs))
  cases hcompare : compare a.board.serviceKey b.board.serviceKey with
  | lt => rfl
  | eq => exact absurd (congrArg ServiceKey.job (Std.LawfulEqOrd.eq_of_compare hcompare)) hne
  | gt =>
      rw [LiveJob.noLater, ← Board.compare_serviceKey, hcompare] at hle
      cases hle

end Ranked

-- The queue shows the jobs with something to start in the order of service.
theorem queue_eq_ranked {scheduler : Scheduler} (h : scheduler.Orderly) :
    scheduler.queue.toList =
      (scheduler.registry.ranked.filter (·.board.hasEligible)).map LiveJob.id := by
  have hsorted : ((scheduler.registry.ranked.filter (·.board.hasEligible)).map
      (·.board.serviceKey)).Pairwise fun a b => compare a b = .lt :=
    List.pairwise_map.mpr ((ranked_increasing h.sound).sublist List.filter_sublist)
  have hkeys : scheduler.queue.ordered.toList =
      (scheduler.registry.ranked.filter (·.board.hasEligible)).map (·.board.serviceKey) := by
    refine SortedSet.toList_eq_of_increasing hsorted fun key => ?_
    rw [List.mem_map]
    constructor
    · intro hmember
      have hkey := h.ordered.keyed.key key hmember
      rw [h.ordered.mirrors, Option.map_eq_some_iff] at hkey
      obtain ⟨job, hjob, hsame⟩ := hkey
      obtain ⟨hfind, hready⟩ := Option.filter_eq_some_iff.mp hjob
      have hid : job.id = key.job := congrArg ServiceKey.job hsame
      rw [← hid] at hfind
      exact ⟨job, List.mem_filter.mpr ⟨(mem_ranked_iff h.sound).mpr hfind, hready⟩, hsame⟩
    · rintro ⟨job, hjob, rfl⟩
      obtain ⟨hmem, hready⟩ := List.mem_filter.mp hjob
      have hfind := (mem_ranked_iff h.sound).mp hmem
      have hkey := h.ordered.mirrors job.id
      rw [hfind, Option.filter_some, if_pos hready] at hkey
      exact (h.ordered.keyed.entry job.id _ hkey).2
  rw [ReadyQueue.toList, hkeys, List.map_map]
  rfl

-- All eligible tasks of all live jobs, in the order in which a pass comes by them.
def agenda (scheduler : Scheduler) : List (LiveJob × Card) :=
  scheduler.registry.ranked.flatMap LiveJob.offers

-- The walk over them with all free slots for a budget.
def walk (scheduler : Scheduler) (accepts : Card → Bool) : Walk :=
  Walk.along accepts scheduler.slots.free scheduler.agenda

-- What a walk over the tasks of some jobs makes of a scheduler: it marks these jobs and
-- takes the slots of what it starts.
structure Walked (scheduler : Scheduler) (jobs : List LiveJob) (walk : Walk) (final : Scheduler) :
    Prop where
  slots : final.slots = { scheduler.slots with free := walk.budget }
  ended : final.registry.ended = scheduler.registry.ended
  nextId : final.registry.nextId = scheduler.registry.nextId
  pending : final.pending = scheduler.pending
  others : ∀ id, id ∉ jobs.map LiveJob.id → final.registry.find? id = scheduler.registry.find? id
  marked : ∀ job ∈ jobs, ∃ job', final.registry.find? job.id = some job' ∧ job.Marked walk job'

section Walks

variable {accepts : Card → Bool} {scheduler : Scheduler} (hs : scheduler.Sound)
include hs

-- A walk keeps to the jobs that it is sent along.
theorem job_of_walked {jobs : List LiveJob}
    (hlive : ∀ job ∈ jobs, scheduler.registry.find? job.id = some job) {budget : Nat} {task : TaskId}
    (h : task ∈ (Walk.along accepts budget (jobs.flatMap LiveJob.offers)).walked) :
    task.job ∈ jobs.map LiveJob.id := by
  obtain ⟨entry, hentry, rfl⟩ := List.mem_map.mp ((Walk.walked_sublist accepts budget _).subset h)
  obtain ⟨job, hjob, hoffered⟩ := List.mem_flatMap.mp hentry
  rw [LiveJob.job_of_offers (hs.live (hlive job hjob)) hoffered]
  exact List.mem_map_of_mem hjob

-- A walk over the tasks of one job and the walk over the others that follows it are one walk.
theorem Walked.cons {job : LiveJob} (hjob : scheduler.registry.find? job.id = some job)
    {rest : List LiveJob} (hfresh : job.id ∉ rest.map LiveJob.id)
    (hlive : ∀ other ∈ rest, scheduler.registry.find? other.id = some other) {final : Scheduler}
    (h : (scheduler.attended accepts job).Walked rest (Walk.along accepts
      (scheduler.attended accepts job).slots.free (rest.flatMap LiveJob.offers)) final) :
    scheduler.Walked (job :: rest) (Walk.along accepts scheduler.slots.free
      ((job :: rest).flatMap LiveJob.offers)) final := by
  have hmarked := LiveJob.marked_served (hs.live hjob) accepts scheduler.slots.free
  have hown {task : TaskId} (htask : task ∈ (Walk.along accepts scheduler.slots.free job.offers).walked) :
      task.job = job.id := by
    obtain ⟨entry, hentry, rfl⟩ := List.mem_map.mp ((Walk.walked_sublist accepts _ _).subset htask)
    exact LiveJob.job_of_offers (hs.live hjob) hentry
  have hfree : (scheduler.attended accepts job).slots.free =
      (Walk.along accepts scheduler.slots.free job.offers).budget := by
    rw [LiveJob.along_offers (hs.live hjob)]
    rfl
  rw [hfree] at h
  have hothers {task : TaskId} (htask : task ∈ (Walk.along accepts
      (Walk.along accepts scheduler.slots.free job.offers).budget (rest.flatMap LiveJob.offers)).walked) :
      task.job ∈ rest.map LiveJob.id := job_of_walked hs hlive htask
  have hstarted {task : TaskId} (htask : (Walk.along accepts scheduler.slots.free job.offers).starts task) :
      task.job = job.id := hown (Walk.mem_walked_of_starts accepts htask)
  have hstartedLater {task : TaskId} (htask : (Walk.along accepts
      (Walk.along accepts scheduler.slots.free job.offers).budget (rest.flatMap LiveJob.offers)).starts
      task) : task.job ∈ rest.map LiveJob.id := hothers (Walk.mem_walked_of_starts accepts htask)
  rw [List.flatMap_cons, Walk.along_append]
  dsimp only
  generalize Walk.along accepts scheduler.slots.free job.offers = before at *
  generalize Walk.along accepts before.budget (rest.flatMap LiveJob.offers) = after at *
  have hwalked (task : TaskId) : task ∈ before.walked ++ after.walked ↔
      task ∈ before.walked ∨ task ∈ after.walked := List.mem_append
  have hstarts (task : TaskId) :
      Walk.starts ⟨after.budget, before.walked ++ after.walked, before.started ++ after.started⟩ task ↔
        before.starts task ∨ after.starts task := by
    rw [Walk.starts, List.map_append, List.mem_append]
    exact Iff.rfl
  refine ⟨h.slots, h.ended, h.nextId, h.pending, fun id hid => ?_, List.forall_mem_cons.mpr
    ⟨?_, fun other hother => ?_⟩⟩
  · obtain ⟨hne, hnot⟩ := not_or.mp (mt List.mem_cons.mpr hid)
    rw [h.others id hnot, find?_attended hs accepts hjob, if_neg hne]
  · -- What comes after the job's own tasks leaves it as it is.
    have hself := h.others job.id hfresh
    rw [find?_attended hs accepts hjob, if_pos rfl] at hself
    refine ⟨_, hself, hmarked.congr (hs.live hjob) (fun task htask => ?_) fun task htask => ?_⟩
    · exact (hwalked task).trans (or_iff_left fun hafter => hfresh (htask ▸ hothers hafter))
    · exact (hstarts task).trans (or_iff_left fun hafter => hfresh (htask ▸ hstartedLater hafter))
  · obtain ⟨other', hother', hmarkedOther⟩ := h.marked other hother
    have hne : other.id ≠ job.id := fun heq => hfresh (heq ▸ List.mem_map_of_mem hother)
    refine ⟨other', hother', hmarkedOther.congr (hs.live (hlive other hother)) (fun task htask => ?_)
      fun task htask => ?_⟩
    · exact (hwalked task).trans (or_iff_right fun hbefore => hne (htask.symm.trans (hown hbefore)))
    · exact (hstarts task).trans (or_iff_right fun hbefore => hne (htask.symm.trans (hstarted hbefore)))

omit hs in
-- Job by job a pass walks as one walk over the tasks of all jobs does.
theorem Serves.walks {ids : List JobId} {assignments : List Assignment} {scheduler final : Scheduler}
    (h : Serves accepts ids scheduler assignments final) (hs : scheduler.Sound) {jobs : List LiveJob}
    (hids : ids = jobs.map LiveJob.id) (hnodup : ids.Nodup)
    (hlive : ∀ job ∈ jobs, scheduler.registry.find? job.id = some job) :
    assignments = (Walk.along accepts scheduler.slots.free (jobs.flatMap LiveJob.offers)).started ∧
      scheduler.Walked jobs (Walk.along accepts scheduler.slots.free (jobs.flatMap LiveJob.offers))
        final := by
  induction h generalizing jobs with
  | @spent ids scheduler hspent =>
      have hnothing : Walk.along accepts scheduler.slots.free (jobs.flatMap LiveJob.offers) =
          ⟨scheduler.slots.free, [], []⟩ := by
        rcases hspent with rfl | hzero
        · rw [List.map_eq_nil_iff.mp hids.symm]
          rfl
        · rw [hzero, Walk.along_zero]
      rw [hnothing]
      exact ⟨rfl, rfl, rfl, rfl, rfl, fun _ _ => rfl,
        fun job hjob => ⟨job, hlive job hjob, LiveJob.marked_of_nothing job _⟩⟩
  | gone hgone =>
      cases jobs with
      | nil => cases hids
      | cons job rest =>
          obtain ⟨rfl, -⟩ := List.cons_eq_cons.mp hids
          rw [hlive job List.mem_cons_self] at hgone
          cases hgone
  | @job job others scheduler assignments final hjob _ ih =>
      cases jobs with
      | nil => cases hids
      | cons first rest =>
          obtain ⟨hid, rfl⟩ := List.cons_eq_cons.mp hids
          have hfirst := hlive first List.mem_cons_self
          rw [← hid, hjob, Option.some.injEq] at hfirst
          subst hfirst
          obtain ⟨hfresh, hnodup⟩ := List.nodup_cons.mp hnodup
          have hlater (other : LiveJob) (hother : other ∈ rest) :=
            hlive other (List.mem_cons_of_mem _ hother)
          have hrest (other : LiveJob) (hother : other ∈ rest) :
              (scheduler.attended accepts job).registry.find? other.id = some other := by
            have hne : other.id ≠ job.id := fun heq => hfresh (heq ▸ List.mem_map_of_mem hother)
            rw [find?_attended hs accepts hjob, if_neg hne, hlater other hother]
          obtain ⟨rfl, hwalked⟩ := ih (hs.attended accepts hjob) rfl hnodup hrest
          refine ⟨?_, hwalked.cons hs hjob hfresh hlater⟩
          rw [List.flatMap_cons, Walk.along_append, LiveJob.along_offers (hs.live hjob)]
          rfl

-- Jobs that have nothing to start are passed over without a trace.
theorem Walked.ranked {budget : Nat} {final : Scheduler} (h : scheduler.Walked
      (scheduler.registry.ranked.filter (·.board.hasEligible))
      (Walk.along accepts budget
        ((scheduler.registry.ranked.filter (·.board.hasEligible)).flatMap LiveJob.offers)) final) :
    scheduler.Walked scheduler.registry.ranked
      (Walk.along accepts budget
        ((scheduler.registry.ranked.filter (·.board.hasEligible)).flatMap LiveJob.offers)) final := by
  refine ⟨h.slots, h.ended, h.nextId, h.pending, fun id hid => h.others id fun hmem => hid ?_,
    fun job hjob => ?_⟩
  · exact (List.filter_sublist.map LiveJob.id).subset hmem
  · by_cases hready : job.board.hasEligible
    · exact h.marked job (List.mem_filter.mpr ⟨hjob, hready⟩)
    · have hfind := (mem_ranked_iff hs).mp hjob
      have hnot : job.id ∉ (scheduler.registry.ranked.filter (·.board.hasEligible)).map LiveJob.id := by
        intro hmem
        obtain ⟨other, hother, hid⟩ := List.mem_map.mp hmem
        obtain ⟨hranked, hready'⟩ := List.mem_filter.mp hother
        have hfind' := (mem_ranked_iff hs).mp hranked
        rw [hid, hfind, Option.some.injEq] at hfind'
        exact hready (hfind' ▸ hready')
      have hlive (other : LiveJob)
          (hother : other ∈ scheduler.registry.ranked.filter (·.board.hasEligible)) :=
        (mem_ranked_iff hs).mp (List.mem_of_mem_filter hother)
      refine ⟨job, (h.others job.id hnot).trans hfind,
        (LiveJob.marked_of_nothing job budget).congr (hs.live hfind) (fun task htask => ?_)
        fun task htask => ?_⟩
      · exact iff_of_false (fun hmem => hnot (htask ▸ job_of_walked hs hlive hmem)) List.not_mem_nil
      · exact iff_of_false (fun hmem => hnot (htask ▸ job_of_walked hs hlive
          (Walk.mem_walked_of_starts accepts hmem))) List.not_mem_nil

theorem agenda_eq : scheduler.agenda =
    (scheduler.registry.ranked.filter (·.board.hasEligible)).flatMap LiveJob.offers := by
  have hnone (job : LiveJob) (hjob : job ∈ scheduler.registry.ranked) (hidle : ¬job.board.hasEligible) :
      job.offers = [] := by
    have hempty : job.board.eligible.toList = [] := by
      rw [SortedSet.toList, SortedMap.keys]
      simpa [Board.hasEligible, SortedMap.isEmpty] using hidle
    have hcards := LiveJob.eligibleCards_eq (hs.live ((mem_ranked_iff hs).mp hjob))
    rw [Board.eligibleCards, hempty] at hcards
    rw [LiveJob.offers, ← hcards]
    rfl
  rw [agenda]
  generalize scheduler.registry.ranked = jobs at hnone
  induction jobs with
  | nil => rfl
  | cons first rest ih =>
      obtain ⟨hfirst, hrest⟩ := List.forall_mem_cons.mp hnone
      rw [List.flatMap_cons, ih hrest, List.filter_cons]
      split
      · rw [List.flatMap_cons]
      · rename_i hidle
        rw [hfirst hidle, List.nil_append]

end Walks

-- A pass over the queue is one walk over the eligible tasks of all live jobs.
theorem Serves.walks_agenda {accepts : Card → Bool} {assignments : List Assignment}
    {scheduler final : Scheduler}
    (hserves : Serves accepts scheduler.queue.toList scheduler assignments final) (h : scheduler.Orderly) :
    assignments = (scheduler.walk accepts).started ∧
      scheduler.Walked scheduler.registry.ranked (scheduler.walk accepts) final := by
  obtain ⟨hstarted, hwalked⟩ := hserves.walks h.sound (queue_eq_ranked h)
    (ReadyQueue.nodup_toList h.ordered.keyed)
    fun job hjob => (mem_ranked_iff h.sound).mp (List.mem_of_mem_filter hjob)
  have hranked := hwalked.ranked h.sound
  rw [← agenda_eq h.sound] at hstarted hranked
  exact ⟨hstarted, hranked⟩

-- A job before all others, whose first task is too large for two slots.
def errands : Submission :=
  ⟨"errands", .high, .singleTask, false, false,
    [⟨"x", "true", [], 3, false, 1⟩, ⟨"y", "true", [], 1, false, 1⟩]⟩

end Scheduler

end JobScheduler
