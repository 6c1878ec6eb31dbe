import Mathlib.Data.List.Forall2
import JobScheduler.Proofs.Config.Validate
import JobScheduler.Proofs.Scheduler.React
import JobScheduler.Proofs.Submission.Cycle

namespace JobScheduler

namespace Submission

-- What makes a submission acceptable, said without the checks that it goes through.
structure WellFormed (submission : Submission) : Prop where
  tasks : submission.tasks ≠ []
  policies : ¬(submission.cancelOnError ∧ submission.pauseOnError)
  resources : ∀ task ∈ submission.tasks, 1 ≤ task.resources
  executions : ∀ task ∈ submission.tasks, 1 ≤ task.maxExecutions
  single : submission.kind = .singleTask → ∀ task ∈ submission.tasks, task.after = []
  names : (submission.tasks.map (·.name)).Nodup
  referenced : submission.Referenced
  acyclic : submission.Acyclic

-- The id belongs to the task of that name.
def Names (submission : Submission) (job : JobId) (name : String) (id : TaskId) : Prop :=
  id.job = job ∧ ∃ task, submission.tasks[id.index]? = some task ∧ task.name = name

-- The plan of a task keeps all that was declared and has ids for the names it comes after,
-- in their order and as often as they are named.
structure PlannedAs (submission : Submission) (job : JobId) (index : Nat) (task : Task)
    (planned : PlannedTask) : Prop where
  id : planned.id = ⟨job, index⟩
  name : planned.name = task.name
  cmd : planned.cmd = task.cmd
  resources : planned.resources = task.resources
  precious : planned.precious = task.precious
  maxExecutions : planned.maxExecutions = task.maxExecutions
  dependencies : List.Forall₂ (submission.Names job) task.after planned.dependencies

variable {submission : Submission} {job : JobId} {tasks : List PlannedTask}

theorem exists_resolve_iff : (∃ tasks, submission.resolve job = .ok tasks) ↔ submission.WellFormed := by
  simp only [resolve_eq_ok_iff, exists_and_left, exists_eq', and_true, checkTasks_eq_ok_iff]
  constructor
  · rintro ⟨htasks, hpolicies, ⟨heach, hnames⟩, hgraph⟩
    obtain ⟨hreferenced, hacyclic⟩ := (NameGraph.check_eq_ok_iff hnames).mp hgraph
    exact {
      tasks := htasks
      policies := hpolicies
      resources := fun task htask => Nat.one_le_iff_ne_zero.mpr (heach task htask).1
      executions := fun task htask => Nat.one_le_iff_ne_zero.mpr (heach task htask).2.1
      single := fun hkind task htask => (heach task htask).2.2.1 hkind
      names := hnames
      referenced := hreferenced
      acyclic := hacyclic }
  · intro h
    refine ⟨h.tasks, h.policies, ⟨fun task htask => ?_, h.names⟩,
      (NameGraph.check_eq_ok_iff h.names).mpr ⟨h.referenced, h.acyclic⟩⟩
    exact ⟨Nat.one_le_iff_ne_zero.mp (h.resources task htask),
      Nat.one_le_iff_ne_zero.mp (h.executions task htask), fun hkind => h.single hkind task htask,
      List.not_mem_nil⟩

section Resolved

variable (h : submission.resolve job = .ok tasks)
include h

-- No name is looked up that has no task.
theorem isSome_position? {task : Task} (htask : task ∈ submission.tasks) {name : String}
    (hname : name ∈ task.after) : (submission.position? name).isSome := by
  obtain ⟨other, hother, rfl⟩ := declared_of_after h htask hname
  obtain ⟨index, hindex⟩ := List.mem_iff_getElem?.mp hother
  rw [position?_of_getElem? h hindex]
  rfl

omit h in
theorem forall₂_filterMap {names : List String} {find : String → Option Nat}
    {R : String → TaskId → Prop} (h : ∀ name ∈ names, ∃ index, find name = some index ∧ R name ⟨job, index⟩) :
    List.Forall₂ R names (names.filterMap fun name => (find name).map (⟨job, ·⟩)) := by
  induction names with
  | nil => exact .nil
  | cons first rest ih =>
      obtain ⟨⟨index, hindex, hR⟩, hrest⟩ := List.forall_mem_cons.mp h
      rw [List.filterMap_cons, hindex]
      exact .cons hR (ih hrest)

theorem plannedAs_of_resolve {index : Nat} {task : Task} (htask : submission.tasks[index]? = some task) :
    ∃ planned, tasks[index]? = some planned ∧ submission.PlannedAs job index task planned := by
  have hmem := List.mem_of_getElem? htask
  have hformed := exists_resolve_iff.mp ⟨tasks, h⟩
  refine ⟨_, by rw [getElem?_of_resolve h, htask]; rfl, rfl, rfl, rfl, ?_, rfl, ?_, ?_⟩
  · exact Nat.max_eq_left (hformed.resources task hmem)
  · exact Nat.max_eq_left (hformed.executions task hmem)
  · refine forall₂_filterMap fun name hname => ?_
    obtain ⟨other, hother, rfl⟩ := declared_of_after h hmem hname
    obtain ⟨position, hposition⟩ := List.mem_iff_getElem?.mp hother
    exact ⟨position, position?_of_getElem? h hposition, rfl, other, hposition, rfl⟩

end Resolved

end Submission

-- The job is taken in under the next id.
structure Registry.Admits (registry : Registry) (job : LiveJob) (after : Registry) : Prop where
  id : job.id = ⟨registry.nextId⟩
  nextId : after.nextId = registry.nextId + 1
  live : ∀ id, after.find? id = if id = job.id then some job else registry.find? id
  ended : after.ended = registry.ended

namespace Scheduler

variable (scheduler : Scheduler) {submission : Submission}

theorem admits_of_wellFormed (h : submission.WellFormed) :
    ∃ job registry, scheduler.registry.submit submission = .ok (registry, job) ∧
      scheduler.registry.Admits job registry ∧
      SchedulerM.submit submission scheduler =
        .ok ⟨scheduler.registry.nextId⟩ { scheduler with registry, queue := scheduler.queue.refresh job.board } := by
  obtain ⟨tasks, hresolve⟩ : ∃ tasks, submission.resolve ⟨0⟩ = .ok tasks :=
    Submission.exists_resolve_iff.mpr h
  obtain ⟨job, hjob⟩ := LiveJob.exists_new_of_resolve hresolve ⟨scheduler.registry.nextId⟩
  have hid := (LiveJob.fresh_of_new hjob).id
  refine ⟨job, (scheduler.joined job).registry, ?_, ⟨hid, rfl, ?_, rfl⟩, ?_⟩
  · simp [Registry.submit, hjob, bind, Except.bind, pure, Except.pure, joined, admitted]
  · exact find?_joined scheduler job
  · rw [SchedulerM.submit_of_new hjob, hid]
    rfl

theorem refused_of_not_wellFormed (h : ¬ submission.WellFormed) :
    ∃ fault, scheduler.registry.submit submission = .error fault ∧
      SchedulerM.submit submission scheduler = .error fault scheduler := by
  cases hjob : LiveJob.new ⟨scheduler.registry.nextId⟩ submission with
  | ok job =>
      obtain ⟨tasks, board, hresolve, -, -⟩ := LiveJob.new_eq_ok hjob
      exact absurd (Submission.exists_resolve_iff.mp ⟨tasks, hresolve⟩) h
  | error fault =>
      refine ⟨fault, ?_, SchedulerM.submit_of_refused hjob⟩
      simp [Registry.submit, hjob, bind, Except.bind]

-- A submission is accepted exactly when it is well formed. Its plan then says of each task
-- what was declared of it, a board can be built from the plan, and the job takes the next
-- id. When it is refused nothing changes.
theorem accepts_exactly_wellFormed (submission : Submission) (job : JobId) (scheduler : Scheduler) :
    ((∃ tasks, submission.resolve job = .ok tasks) ↔ submission.WellFormed) ∧
    (∀ tasks, submission.resolve job = .ok tasks →
      (∀ task ∈ submission.tasks, ∀ name ∈ task.after, (submission.position? name).isSome) ∧
      tasks.length = submission.tasks.length ∧
      (∀ index task, submission.tasks[index]? = some task →
        ∃ planned, tasks[index]? = some planned ∧ submission.PlannedAs job index task planned) ∧
      ∀ priority, ∃ board, Board.build job priority submission.kind tasks = .ok board) ∧
    (submission.WellFormed →
      ∃ accepted registry, scheduler.registry.submit submission = .ok (registry, accepted) ∧
        scheduler.registry.Admits accepted registry ∧
        SchedulerM.submit submission scheduler = .ok ⟨scheduler.registry.nextId⟩
          { scheduler with registry, queue := scheduler.queue.refresh accepted.board }) ∧
    (¬ submission.WellFormed →
      ∃ fault, scheduler.registry.submit submission = .error fault ∧
        SchedulerM.submit submission scheduler = .error fault scheduler) := by
  refine ⟨Submission.exists_resolve_iff, fun tasks htasks => ?_, admits_of_wellFormed scheduler,
    refused_of_not_wellFormed scheduler⟩
  refine ⟨fun task htask name hname => Submission.isSome_position? htasks htask hname, ?_, ?_,
    Submission.exists_build_of_resolve htasks⟩
  · rw [(Submission.checkTasks_of_resolve htasks).2.2, Submission.plan, List.length_mapIdx]
  · exact fun index task htask => Submission.plannedAs_of_resolve htasks htask

end Scheduler

end JobScheduler
