import JobScheduler.Proofs.Batch.Trace
import JobScheduler.Proofs.Simulation.Script

namespace JobScheduler

namespace Batch

def jobName (batch : Batch) (id : JobId) : String :=
  ((batch.jobs[id.number.toNat]?).map Submission.name).getD ""

def taskName (batch : Batch) (id : TaskId) : String :=
  ((batch.declared? id).map Submission.Task.name).getD ""

-- How often a task has to be executed by a script.
def demand (batch : Batch) (lines : SortedMap String ScriptLine) (id : TaskId) : Nat :=
  match batch.declared? id with
  | some declared => ScriptLine.demand declared.maxExecutions (lines.find? declared.name)
  | none => 0

-- A batch that goes on by itself by a script: its jobs, which are fewer than the ids as in any
-- list that fits in memory, are accepted one after the other, no error stops a job, and all
-- tasks fit, report and have names of their own. The queue holds a report for every slot.
structure Playable (batch : Batch) (lines : SortedMap String ScriptLine) : Prop where
  few : batch.jobs.length < 2 ^ 64
  accepted : ∀ index submission, batch.jobs[index]? = some submission →
    ∃ id, (((Scheduler.new batch.limits.resources).reached ((batch.jobs.take index).map .submit)).run
      (SchedulerM.submit submission)).1 = .ok id
  calm : ∀ submission ∈ batch.jobs, submission.cancelOnError = false ∧ submission.pauseOnError = false
  names : ((batch.jobs.flatMap Submission.tasks).map Submission.Task.name).Nodup
  fits : ∀ submission ∈ batch.jobs, ∀ task ∈ submission.tasks, task.resources ≤ batch.limits.resources
  heard : ∀ submission ∈ batch.jobs, ∀ task ∈ submission.tasks, lines.find? task.name ≠ some .hang
  room : batch.limits.resources ≤ batch.limits.eventQueueLength

variable {batch : Batch} {lines : SortedMap String ScriptLine}

theorem declared?_eq_some_iff {id : TaskId} {declared : Submission.Task} :
    batch.declared? id = some declared ↔
      ∃ submission, batch.jobs[id.job.number.toNat]? = some submission ∧
        submission.tasks[id.index]? = some declared := by
  rw [declared?, Option.bind_eq_some_iff]

theorem taskName_of_declared {id : TaskId} {declared : Submission.Task}
    (h : batch.declared? id = some declared) : batch.taskName id = declared.name := by
  rw [taskName, h]
  rfl

theorem demand_of_declared {id : TaskId} {declared : Submission.Task}
    (h : batch.declared? id = some declared) :
    batch.demand lines id = ScriptLine.demand declared.maxExecutions (lines.find? declared.name) := by
  rw [demand, h]

namespace Playable

variable (h : batch.Playable lines)
include h

theorem runnable (submission : Submission) (hmem : submission ∈ batch.jobs) :
    Config.Runnable batch.limits submission := by
  refine ⟨h.fits submission hmem, ?_⟩
  obtain ⟨index, hindex⟩ := List.mem_iff_getElem?.mp hmem
  obtain ⟨id, haccepted⟩ := h.accepted index submission hindex
  generalize (Scheduler.new batch.limits.resources).reached _ = scheduler at haccepted
  cases hnew : LiveJob.new ⟨scheduler.registry.nextId⟩ submission with
  | error fault =>
      rw [Scheduler.run_of_error (SchedulerM.submit_of_refused hnew)] at haccepted
      cases haccepted
  | ok job =>
      obtain ⟨tasks, board, hresolve, -⟩ := LiveJob.new_eq_ok hnew
      exact Submission.resolve_of_resolve hresolve ⟨0⟩

theorem pauseless :
    ∀ submission ∈ batch.jobs, submission.pauseOnError = false :=
  fun submission hmem => (h.calm submission hmem).2

section Declared

variable {id : TaskId} {declared : Submission.Task} (hdeclared : batch.declared? id = some declared)
include hdeclared

theorem reports : lines.find? declared.name ≠ some .hang := by
  obtain ⟨submission, hsubmission, htask⟩ := declared?_eq_some_iff.mp hdeclared
  exact h.heard submission (List.mem_of_getElem? hsubmission) declared (List.mem_of_getElem? htask)

-- The name of a task tells which one it is.
theorem eq_of_name_eq {other : TaskId} {declared' : Submission.Task}
    (hdeclared' : batch.declared? other = some declared') (hname : declared.name = declared'.name) :
    id = other := by
  obtain ⟨submission, hsubmission, htask⟩ := declared?_eq_some_iff.mp hdeclared
  obtain ⟨submission', hsubmission', htask'⟩ := declared?_eq_some_iff.mp hdeclared'
  have hnames := h.names
  rw [List.map_flatMap, List.nodup_flatMap] at hnames
  have hapart {a b : Nat} {first later : Submission} (ha : batch.jobs[a]? = some first)
      (hb : batch.jobs[b]? = some later) (hlt : a < b) :
      (first.tasks.map Submission.Task.name).Disjoint (later.tasks.map Submission.Task.name) := by
    obtain ⟨halt, rfl⟩ := List.getElem?_eq_some_iff.mp ha
    obtain ⟨hblt, rfl⟩ := List.getElem?_eq_some_iff.mp hb
    exact List.pairwise_iff_getElem.mp hnames.2 a b halt hblt hlt
  have hmem : declared.name ∈ submission.tasks.map Submission.Task.name :=
    List.mem_map_of_mem (List.mem_of_getElem? htask)
  have hmem' : declared.name ∈ submission'.tasks.map Submission.Task.name :=
    hname ▸ List.mem_map_of_mem (List.mem_of_getElem? htask')
  have hnumber : id.job.number.toNat = other.job.number.toNat := by
    rcases Nat.lt_trichotomy id.job.number.toNat other.job.number.toNat with hlt | heq | hgt
    · exact absurd hmem' (hapart hsubmission hsubmission' hlt hmem)
    · exact heq
    · exact absurd hmem (hapart hsubmission' hsubmission hgt hmem')
  rw [hnumber, hsubmission', Option.some.injEq] at hsubmission
  subst hsubmission
  have hresolves := (h.runnable _ (List.mem_of_getElem? hsubmission')).resolves
  have hjob : id.job = other.job := congrArg JobId.mk (UInt64.toNat_inj.mp hnumber)
  exact TaskId.eq_of_index_eq hjob (Submission.eq_of_name_eq hresolves htask htask' hname)

end Declared

theorem demand_pos (id : TaskId) (hsome : (batch.declared? id).isSome) : 0 < batch.demand lines id := by
  obtain ⟨declared, hdeclared⟩ := Option.isSome_iff_exists.mp hsome
  obtain ⟨submission, hsubmission, htask⟩ := declared?_eq_some_iff.mp hdeclared
  have hresolves := (h.runnable submission (List.mem_of_getElem? hsubmission)).resolves
  obtain ⟨-, hexecutions, -⟩ := (Submission.checkTasks_eq_ok_iff.mp
    (Submission.checkTasks_of_resolve hresolves).1).1 declared (List.mem_of_getElem? htask)
  rw [demand_of_declared hdeclared]
  exact ScriptLine.demand_pos (Nat.pos_of_ne_zero hexecutions) _

theorem eq_of_taskName_eq {a b : TaskId} (ha : (batch.declared? a).isSome) (hb : (batch.declared? b).isSome)
    (hname : batch.taskName a = batch.taskName b) : a = b := by
  obtain ⟨declared, hdeclared⟩ := Option.isSome_iff_exists.mp ha
  obtain ⟨declared', hdeclared'⟩ := Option.isSome_iff_exists.mp hb
  rw [taskName_of_declared hdeclared, taskName_of_declared hdeclared'] at hname
  exact h.eq_of_name_eq hdeclared hdeclared' hname

-- Among declared tasks, names are counted as tasks are.
theorem count_taskName {trace : List TaskId} (htrace : ∀ id ∈ trace, (batch.declared? id).isSome)
    {id : TaskId} (hid : (batch.declared? id).isSome) :
    (trace.map batch.taskName).count (batch.taskName id) = trace.count id := by
  rw [List.count, List.countP_map]
  refine List.countP_congr fun other hother => ?_
  simp only [Function.comp_apply, beq_iff_eq]
  exact ⟨h.eq_of_taskName_eq (htrace other hother) hid, congrArg batch.taskName⟩

end Playable

-- What is handed out bears the names that were submitted.
structure Bears (batch : Batch) (assignment : Assignment) : Prop where
  declared : (batch.declared? assignment.task).isSome
  job : assignment.job = batch.jobName assignment.task.job
  name : assignment.name = batch.taskName assignment.task

theorem Underway.bears {count : Nat} {summaries : List Summary} {scheduler final : Scheduler}
    (hu : batch.Underway count summaries scheduler) {accepts : Card → Bool} {ids : List JobId}
    {work : List Assignment} (hserves : Scheduler.Serves accepts ids scheduler work final)
    (assignment : Assignment) (hmem : assignment ∈ work) : batch.Bears assignment := by
  obtain ⟨job, declared, hjob, hdeclared, hjobName, hname⟩ := hserves.named hu.orderly.sound hmem
  rw [← hu.declared?_eq hjob] at hdeclared
  obtain ⟨submission, hsubmission, hcourse⟩ := hu.course _ job hjob
  refine ⟨Option.isSome_of_eq_some hdeclared, ?_, hname.trans (taskName_of_declared hdeclared).symm⟩
  rw [hjobName, jobName, hsubmission, hcourse.submitted]
  rfl

section Bears

variable {work : List Assignment} (hbears : ∀ assignment ∈ work, batch.Bears assignment)
include hbears

theorem map_name_of_bears : work.map Assignment.name = (work.map Assignment.task).map batch.taskName := by
  rw [List.map_map]
  exact List.map_congr_left fun assignment hmem => (hbears assignment hmem).name

theorem map_note_of_bears : work.map Assignment.note =
    (work.map Assignment.task).map fun id => s!"{batch.jobName id.job}/{batch.taskName id}" := by
  rw [List.map_map]
  refine List.map_congr_left fun assignment hmem => ?_
  rw [Assignment.note, (hbears assignment hmem).job, (hbears assignment hmem).name]
  rfl

variable (h : batch.Playable lines)
include h

theorem Playable.nodup_names (hnodup : (work.map Assignment.task).Nodup) :
    (work.map Assignment.name).Nodup := by
  rw [map_name_of_bears hbears]
  refine hnodup.map_on fun a ha b hb heq => ?_
  obtain ⟨first, hfirst, rfl⟩ := List.mem_map.mp ha
  obtain ⟨second, hsecond, rfl⟩ := List.mem_map.mp hb
  exact h.eq_of_taskName_eq (hbears first hfirst).declared (hbears second hsecond).declared heq

theorem Playable.all_report (assignment : Assignment) (hmem : assignment ∈ work) :
    lines.find? assignment.name ≠ some .hang := by
  obtain ⟨declared, hdeclared⟩ := Option.isSome_iff_exists.mp (hbears assignment hmem).declared
  rw [(hbears assignment hmem).name, taskName_of_declared hdeclared]
  exact h.reports hdeclared

end Bears

end Batch

end JobScheduler
