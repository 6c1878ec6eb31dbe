import JobScheduler.Proofs.Job.Books
import JobScheduler.Proofs.Job.Course
import JobScheduler.Proofs.Scheduler.Handle

namespace JobScheduler

-- The record of a job leaves nothing open of what was submitted.
structure Summary.Completes (summary : Summary) (submission : Submission) : Prop where
  name : summary.name = submission.name
  listed : ∀ name, summary.tasks.contains name ↔ name ∈ submission.tasks.map (·.name)
  shown : ∀ name status, summary.tasks.find? name = some status →
    status ∈ [.finished, .faulty, .killed, .aborted] ∧ (summary.status = .finished → status ≠ .aborted)
  all : ∀ task ∈ submission.tasks, summary.results.all.contains task.name
  precious : ∀ task ∈ submission.tasks, task.precious → summary.results.precious.contains task.name
  final : summary.results.final = some summary.status
  complete : summary.results.isComplete

namespace LiveJob

-- An event ends a job for good, and as finished only when all its tasks have terminated.
theorem Outcome.ends {job job' : LiveJob} {event : Event} {status : JobStatus} {cancelled : List TaskId}
    (h : job.Outcome event (.ends status cancelled) job') :
    status.isTerminal ∧ (status = .finished → job'.board.isComplete) := by
  generalize hfate : Fate.ends status cancelled = fate at h
  have hnext {job' : LiveJob} {cancelled' : List TaskId}
      (hfate : Fate.ends status cancelled = .next job' cancelled') :
      status.isTerminal ∧ (status = .finished → job'.board.isComplete) := by
    unfold Fate.next at hfate
    split at hfate
    · rename_i hcomplete
      cases hfate
      exact ⟨rfl, fun _ => hcomplete⟩
    · cases hfate
  cases h with
  | untouched | retried | heldInError | lost | held | resumed | restarted | reprioritized => cases hfate
  | canceled | dropped =>
      cases hfate
      exact ⟨rfl, fun heq => by cases heq⟩
  | concluded | killed | finished => exact hnext hfate

variable {job : LiveJob} (hs : job.Sound)
include hs

theorem Sound.terminated_of_isComplete (hcomplete : job.board.isComplete) {status : TaskStatus}
    (h : status ∈ job.statuses) : status.isTerminated := by
  obtain ⟨task, hjob, hstatus⟩ := mem_statuses_iff.mp h
  obtain ⟨place, hplace, hadmits⟩ := hs.exists_place hjob hstatus
  obtain ⟨card, hcard, rfl⟩ := Board.placeOf_eq_ok_iff.mp hplace
  exact hadmits.1.mpr (hs.board.isComplete_iff.mp hcomplete card (Board.Wired.mem_of_card hcard))

section Shown

variable (status : JobStatus) (name : String)

-- The record shows every task once, aborted where it has not terminated.
theorem tasks_closing : (job.closing status).tasks =
    SortedMap.ofList ((job.submission.tasks.map (·.name)).zip job.abortUnfinished.statuses) := by
  have htasks := congrArg (List.map PlannedTask.name) (Board.sameTasks_teardown job.board).map_task
  rw [List.map_map, List.map_map] at htasks
  rw [← map_name_cards hs]
  exact congrArg (fun names => SortedMap.ofList (names.zip job.abortUnfinished.statuses)) htasks

theorem length_abortUnfinished :
    (job.submission.tasks.map (·.name)).length = job.abortUnfinished.statuses.length := by
  rw [← map_name_cards hs, List.length_map, abortUnfinished, List.length_map, hs.length]
  rfl

-- A record shows a failed task if there is one.
theorem faulty_mem_closing :
    .faulty ∈ (job.closing status).tasks.values ↔ .faulty ∈ job.statuses := by
  rw [tasks_closing hs]
  refine (SortedMap.mem_values_ofList (Submission.nodup_names_of_resolve hs.resolved)
    (length_abortUnfinished hs)).trans ?_
  rw [abortUnfinished, List.mem_map]
  constructor
  · rintro ⟨old, hold, heq⟩
    split at heq
    · rwa [← heq]
    · cases heq
  · exact fun hmem => ⟨.faulty, hmem, rfl⟩

theorem closing_tasks_contains :
    (job.closing status).tasks.contains name ↔ name ∈ job.submission.tasks.map (·.name) := by
  have hlength := length_abortUnfinished hs
  have hkeys := List.map_fst_zip (Nat.le_of_eq hlength)
  rw [tasks_closing hs, SortedMap.contains, Option.isSome_iff_exists]
  simp only [SortedMap.find?_ofList (hkeys.symm ▸ Submission.nodup_names_of_resolve hs.resolved)]
  constructor
  · rintro ⟨shown, hmem⟩
    exact (List.of_mem_zip hmem).1
  · intro hmem
    obtain ⟨⟨_, shown⟩, hentry, rfl⟩ := List.mem_map.mp (hkeys.symm ▸ hmem)
    exact ⟨shown, hentry⟩

theorem shown_closing {shown : TaskStatus} (h : (job.closing status).tasks.find? name = some shown) :
    shown ∈ [.finished, .faulty, .killed, .aborted] ∧ (job.board.isComplete → shown ≠ .aborted) := by
  have hkeys := List.map_fst_zip (Nat.le_of_eq (length_abortUnfinished hs))
  rw [tasks_closing hs,
    SortedMap.find?_ofList (hkeys.symm ▸ Submission.nodup_names_of_resolve hs.resolved)] at h
  obtain ⟨old, hold, rfl⟩ := List.mem_map.mp (List.of_mem_zip h).2
  refine ⟨?_, fun hcomplete => ?_⟩
  · cases old <;> decide
  · rw [if_pos (hs.terminated_of_isComplete hcomplete hold)]
    rintro rfl
    cases hs.terminated_of_isComplete hcomplete hold

end Shown

omit hs in
-- The results of a job are reconciled when it is closed.
theorem results_closing (status : JobStatus) :
    (job.closing status).results = (job.results.reconcile job.declared).1.mark status := by
  have hmap (board : Board) : ({ job with board } : LiveJob).declared =
      (board.cards.map Card.task).map fun task => ⟨task.name, task.id, task.precious⟩ := by
    rw [List.map_map]
    rfl
  have hdeclared : ({ job with board := job.board.teardown.1 } : LiveJob).declared = job.declared := by
    rw [hmap, (Board.sameTasks_teardown job.board).map_task]
    exact (hmap job.board).symm
  rw [← hdeclared]
  rfl

theorem map_name_declared : job.declared.map (·.name) = job.submission.tasks.map (·.name) := by
  rw [← map_name_cards hs, declared, List.map_map]
  rfl

variable {submission : Submission} (hc : job.CarriesOut submission)
include hc

-- What the record of a job says of its results.
theorem accounts_closing (status : JobStatus) :
    (job.closing status).results.Accounts submission ∧
      ∀ task ∈ submission.tasks, (job.closing status).results.all.contains task.name := by
  have hnames : job.declared.map (·.name) = submission.tasks.map (·.name) := by
    rw [map_name_declared hs, hc.tasks]
  have hknown (entry : Declared) (hentry : entry ∈ job.declared) :
      ∃ task ∈ submission.tasks, task.name = entry.name ∧ task.precious = entry.precious := by
    obtain ⟨card, hcard, rfl⟩ := List.mem_map.mp hentry
    obtain ⟨task, htask, hname, hprecious⟩ := hs.declared hcard
    exact ⟨task, hc.tasks ▸ htask, hname, hprecious⟩
  obtain ⟨haccounts, hcontains⟩ := hc.results.reconcile (hc.nodup_names hs) hknown
  rw [results_closing]
  refine ⟨haccounts.mark status, fun task htask => (hcontains task.name).mpr (.inr ?_)⟩
  rw [hnames]
  exact List.mem_map_of_mem htask

theorem completes_closing {status : JobStatus} (hterminal : status.isTerminal)
    (hdone : status = .finished → job.board.isComplete) :
    (job.closing status).Completes submission := by
  obtain ⟨haccounts, hall⟩ := accounts_closing hs hc status
  have hnodup := hc.nodup_names hs
  refine ⟨?_, fun name => ?_, fun name shown hshown => ?_, hall, fun task htask hprecious => ?_, rfl, ?_⟩
  · change job.submission.name = submission.name
    rw [hc.submitted]
  · rw [closing_tasks_contains hs, hc.tasks]
  · obtain ⟨hmem, hnot⟩ := shown_closing hs status name hshown
    exact ⟨hmem, fun hfinished => hnot (hdone hfinished)⟩
  · rw [SortedMap.contains, haccounts.find?_precious hnodup htask, if_pos hprecious]
    exact hall task htask
  · rw [JobResult.isComplete, Bool.and_eq_true]
    refine ⟨?_, hterminal⟩
    rw [JobResult.preciousCollected, List.all_eq_true]
    intro name hname
    rw [haccounts.expected, SortedSet.mem_toList_iff, SortedSet.member_ofList] at hname
    obtain ⟨task, htask, rfl⟩ := List.mem_map.mp hname
    exact hall task (List.mem_filter.mp htask).1

end LiveJob

end JobScheduler
