import JobScheduler.Proofs.Job.Agreement
import JobScheduler.Proofs.Scheduler.Coherence
import JobScheduler.Proofs.Scheduler.Lasting
import JobScheduler.Proofs.Scheduler.Rejection

namespace JobScheduler

-- The job with this id is shown as it is.
def Law.coherence (id : JobId) : Law := ⟨fun _ job => job.id = id → job.Coherent, fun _ _ => True⟩

theorem Law.lasts_coherence (id : JobId) : (Law.coherence id).Lasts where
  fresh hnew _ := (LiveJob.fresh_of_new hnew).coherent
  goesOn _ hlaw _ hturn _ hid := hturn.advances.coherent (hlaw (hturn.advances.id.symm.trans hid))
  ends _ _ _ _ _ := trivial
  served hs hlaw accepts budget hid := by
    have hadvances := LiveJob.advances_served hs accepts budget
    exact hadvances.coherent (hlaw (hadvances.id.symm.trans hid))

theorem Law.admits_coherence {id : JobId} {persisted : PersistedJob}
    (hopen : persisted.status.isTerminal = false) (hagreeing : persisted.id = id → persisted.Agreeing) :
    (Law.coherence id).Admits persisted where
  live job hrevive _ hid := by
    obtain ⟨-, -, hsame⟩ := PersistedJob.sound_of_revive hrevive
    exact (PersistedJob.coherent_revive_iff hrevive hopen).mpr (hagreeing (hsame.symm.trans hid))
  ended _ _ _ := trivial

namespace Scheduler

-- A job that was installed from a record that agrees with itself is at every moment what it
-- could be without a crash: unless it is paused only tasks in error stand paused, and it is in
-- error where a task is. While it is paused none of its tasks may start.
theorem truthful_of_recovered (total : Nat) {operations : List Operation} {id : JobId}
    (hrecords : ∀ persisted ∈ (Scheduler.new total).gathered installed operations,
      persisted.id = id → persisted.Agreeing) :
    ∀ moment ∈ (Scheduler.new total).moments operations, ∀ job, moment.registry.find? id = some job →
      (job.status ≠ .paused → ∀ task ∈ job.board.paused.toList, job.statusOf? task = some .inError) ∧
      (job.status = .paused → job.board.eligible.toList = []) ∧
      (job.status ≠ .paused →
        (job.status = .inError ↔ ∃ task, task.job = id ∧ job.statusOf? task = some .inError)) := by
  intro moment hmoment job hjob
  have hadmits (persisted : PersistedJob)
      (hmem : persisted ∈ (Scheduler.new total).gathered installed operations) :
      (Law.coherence id).Admits persisted :=
    Law.admits_coherence (open_of_mem_installed hmem) (hrecords persisted hmem)
  have hupholds := Ledger.upholds_of_moment total (Law.lasts_coherence id) hadmits hmoment
  have hsound : moment.Sound := (orderly_of_moment (orderly_new total) hmoment).sound
  obtain ⟨hid, hs⟩ := hsound.jobs id job hjob
  obtain ⟨submission, -, hcoherent⟩ := hupholds.live id job hjob
  have htruthful := LiveJob.truthful_of_coherent hs (hcoherent hid)
  refine ⟨fun hopen task htask => ?_, fun hpaused => (htruthful.held hpaused).1, fun hopen => ?_⟩
  · obtain ⟨status, hmem, hstatus⟩ := htruthful.paused task htask
    have hplace := hs.board.partitioned.mem_paused_iff.mp htask
    have hnot := htruthful.notHeld hopen task (Board.job_eq_of_placeOf hplace)
    have heq : status = .inError := by
      rcases List.mem_pair.mp hmem with rfl | rfl
      · exact absurd hstatus hnot
      · rfl
    rw [hstatus, heq]
  · rw [htruthful.jobInError, hid]
    exact and_iff_right hopen

-- What was kept of the release when only its first task was known.
def keptRelease (status : JobStatus) (first : TaskStatus) : PersistedJob :=
  ⟨⟨0⟩, release, status, SortedMap.ofList [("a", first)], SortedMap.empty, SortedMap.empty⟩

theorem exists_reached_keptRelease {status : JobStatus} {first : TaskStatus}
    (hkept : status = .inError ∧ first = .inError ∨ status = .running ∧ first = .paused) :
    ∃ job, ((Scheduler.new 2).reached [.recover [keptRelease status first]]).registry.find? ⟨0⟩ = some job ∧
      job.status = status ∧ job.board.paused.toList = [⟨⟨0⟩, 0⟩] ∧ job.statuses = [first, .submitted] := by
  have hrevive : ∃ job, (keptRelease status first).revive = .ok job ∧ job.id = ⟨0⟩ ∧
      job.board.isComplete = false ∧ job.status = status ∧ job.board.paused.toList = [⟨⟨0⟩, 0⟩] ∧
      job.statuses = [first, .submitted] := by
    rw [PersistedJob.revive, Board.rebuild]
    simp only [keptRelease, resolve_release]
    rcases hkept with ⟨rfl, rfl⟩ | ⟨rfl, rfl⟩ <;>
      exact ⟨_, rfl, rfl, by decide +kernel, rfl, by decide +kernel, by decide +kernel⟩
  obtain ⟨job, hrevive, hid, hopen, hshown⟩ := hrevive
  have hterminal : (keptRelease status first).status.isTerminal = false := by
    rcases hkept with ⟨rfl, rfl⟩ | ⟨rfl, rfl⟩ <;> rfl
  have hrecover : ((Scheduler.new 2).recover [keptRelease status first]).2 = _ := congrArg Prod.snd
    (SchedulerM.recover_of_open hrevive rfl rfl (by simp [hopen]) hterminal)
  refine ⟨job, ?_, hshown⟩
  rw [reached, List.foldl_cons, List.foldl_nil, perform, hrecover, ← hid]
  exact ((Scheduler.new 2).find?_readmitted job job.id).trans (if_pos rfl)

-- A task that was in error is so again, and its job with it.
theorem truthful_of_recovered_release :
    let scheduler := (Scheduler.new 2).reached [.recover [keptRelease .inError .inError]]
    ∃ job, scheduler.registry.find? ⟨0⟩ = some job ∧ job.status = .inError ∧
      job.board.paused.toList = [⟨⟨0⟩, 0⟩] ∧ job.statusOf? ⟨⟨0⟩, 0⟩ = some .inError := by
  intro scheduler
  obtain ⟨job, hjob, hstatus, hpaused, -⟩ := exists_reached_keptRelease (.inl ⟨rfl, rfl⟩)
  have hagreeing : (keptRelease .inError .inError).Agreeing := by
    refine ⟨fun _ ⟨task, hmem, hfound⟩ => ?_, fun _ => iff_of_true rfl ⟨_, List.mem_cons_self, by decide⟩⟩
    revert task
    decide
  have hrecords : ∀ persisted ∈ (Scheduler.new 2).gathered installed
      [.recover [keptRelease .inError .inError]], persisted.id = ⟨0⟩ → persisted.Agreeing := by
    intro persisted hmem _
    rw [gathered, gathered, List.append_nil, installed] at hmem
    rwa [List.mem_singleton.mp (mem_of_mem_recovered hmem)]
  obtain ⟨hshown, -⟩ := truthful_of_recovered 2 hrecords scheduler (reached_mem_moments _ _) job hjob
  exact ⟨job, hjob, hstatus, hpaused, hshown (by simp [hstatus]) _ (by simp [hpaused])⟩

-- A record that does not agree with itself makes a task that nobody can release: its job is
-- not paused, so resuming it changes nothing.
theorem stuck_of_recovered_release :
    let scheduler := (Scheduler.new 2).reached [.recover [keptRelease .running .paused]]
    (scheduler.run (SchedulerM.handle (.resume ⟨0⟩))).2 = scheduler ∧
      ∃ job, scheduler.registry.find? ⟨0⟩ = some job ∧ job.status = .running ∧
        job.board.paused.toList = [⟨⟨0⟩, 0⟩] ∧ job.statusOf? ⟨⟨0⟩, 0⟩ = some .paused := by
  intro scheduler
  obtain ⟨job, hjob, hstatus, hpaused, hstatuses⟩ := exists_reached_keptRelease (.inr ⟨rfl, rfl⟩)
  have hoverlooks : scheduler.Overlooks (.resume ⟨0⟩) := by
    refine ⟨⟨0⟩, rfl, fun other hother => ?_⟩
    rw [hjob, Option.some.injEq] at hother
    rw [← hother, LiveJob.Overlooks, hstatus]
    simp
  refine ⟨(SchedulerM.reacts_handle (sound_reached 2 _) _).of_overlooks hoverlooks, job, hjob, hstatus,
    hpaused, ?_⟩
  rw [LiveJob.statusOf?, hstatuses]
  rfl

end Scheduler

end JobScheduler
