import Mathlib.Logic.Unique
import JobScheduler.Proofs.Check
import JobScheduler.Proofs.SortedMap
import JobScheduler.Submission.Resolve

namespace JobScheduler

namespace NameGraph

-- The declared dependencies of a name, if it is declared.
def Links.afterOf (links : SortedMap String Links) (name : String) : Option (List String) :=
  (links.find? name).map (·.dependencies)

theorem afterOf_declare (links : SortedMap String Links) (task : Submission.Task) (name : String) :
    Links.afterOf (declare links task) name =
      if name = task.name then some task.after else Links.afterOf links name := by
  unfold Links.afterOf declare
  rw [SortedMap.find?_insert]
  split <;> rfl

theorem afterOf_addDependent (task : String) (links : SortedMap String Links) (dependency name : String) :
    Links.afterOf (addDependent task links dependency) name = Links.afterOf links name := by
  unfold Links.afterOf addDependent SortedMap.modify
  cases hfind : links.find? dependency with
  | none => rfl
  | some entry =>
      rw [SortedMap.find?_insert]
      split
      · rename_i heq
        rw [heq, hfind]
        rfl
      · rfl

theorem afterOf_link (links : SortedMap String Links) (task : Submission.Task) (name : String) :
    Links.afterOf (link links task) name = Links.afterOf links name := by
  unfold link
  induction task.after generalizing links with
  | nil => rfl
  | cons first rest ih => rw [List.foldl_cons, ih, afterOf_addDependent]

-- Dependents are noted without touching dependencies.
theorem afterOf_foldl_link (links : SortedMap String Links) (tasks : List Submission.Task)
    (name : String) : Links.afterOf (tasks.foldl link links) name = Links.afterOf links name := by
  induction tasks generalizing links with
  | nil => rfl
  | cons first rest ih => rw [List.foldl_cons, ih, afterOf_link]

theorem afterOf_foldl_declare_of_mem {tasks : List Submission.Task}
    (hnodup : (tasks.map (·.name)).Nodup) {task : Submission.Task} (h : task ∈ tasks)
    (links : SortedMap String Links) :
    Links.afterOf (tasks.foldl declare links) task.name = some task.after := by
  have hkeep (rest : List Submission.Task) (hnew : task.name ∉ rest.map (·.name))
      (links : SortedMap String Links) :
      Links.afterOf (rest.foldl declare links) task.name = Links.afterOf links task.name := by
    induction rest generalizing links with
    | nil => rfl
    | cons first rest ih =>
        rw [List.map_cons, List.mem_cons, not_or] at hnew
        rw [List.foldl_cons, ih hnew.2, afterOf_declare, if_neg hnew.1]
  induction tasks generalizing links with
  | nil => simp at h
  | cons first rest ih =>
      obtain ⟨hfresh, hnodup⟩ := List.nodup_cons.mp hnodup
      rw [List.foldl_cons]
      rcases List.mem_cons.mp h with rfl | h
      · rw [hkeep rest hfresh, afterOf_declare, if_pos rfl]
      · exact ih hnodup h _

theorem mem_of_afterOf_foldl_declare {tasks : List Submission.Task} {links : SortedMap String Links}
    {name : String} (h : (Links.afterOf (tasks.foldl declare links) name).isSome) :
    name ∈ tasks.map (·.name) ∨ (Links.afterOf links name).isSome := by
  induction tasks generalizing links with
  | nil => exact .inr h
  | cons first rest ih =>
      rcases ih h with hmem | hsome
      · exact .inl (List.mem_cons_of_mem _ hmem)
      · rw [afterOf_declare] at hsome
        split at hsome
        · rename_i heq
          exact .inl (heq ▸ List.mem_cons_self)
        · exact .inr hsome

theorem afterOf_ofSubmission {submission : Submission}
    (hnodup : (submission.tasks.map (·.name)).Nodup) {task : Submission.Task}
    (h : task ∈ submission.tasks) : (ofSubmission submission).dependenciesOf task.name = task.after := by
  have hafter : Links.afterOf (ofSubmission submission).links task.name = some task.after := by
    rw [ofSubmission, afterOf_foldl_link]
    exact afterOf_foldl_declare_of_mem hnodup h _
  unfold dependenciesOf
  cases hfind : (ofSubmission submission).links.find? task.name with
  | none => simp [Links.afterOf, hfind] at hafter
  | some entry => simpa [Links.afterOf, hfind] using hafter

theorem declared_of_contains {submission : Submission} {name : String}
    (h : (ofSubmission submission).links.contains name) : name ∈ submission.tasks.map (·.name) := by
  have hsome : (Links.afterOf (ofSubmission submission).links name).isSome := by
    simpa [Links.afterOf, SortedMap.contains] using h
  rw [ofSubmission, afterOf_foldl_link] at hsome
  rcases mem_of_afterOf_foldl_declare hsome with hmem | hnone
  · exact hmem
  · simp [Links.afterOf] at hnone

theorem references_of_check {graph : NameGraph} {job : String} (h : graph.check job = .ok ())
    {name dependency : String} (hname : name ∈ graph.order)
    (hdependency : dependency ∈ graph.dependenciesOf name) :
    dependency ≠ name ∧ graph.links.contains dependency := by
  have hall : (graph.order.forM fun name =>
      (graph.dependenciesOf name).forM (graph.checkReference job name)) = .ok () := by
    unfold check at h
    cases hforM : graph.order.forM fun name =>
      (graph.dependenciesOf name).forM (graph.checkReference job name) with
    | error fault =>
        simp only [hforM, bind, Except.bind] at h
        cases h
    | ok value => rfl
  have hone := forM_eq_ok_iff.mp (forM_eq_ok_iff.mp hall name hname) dependency hdependency
  unfold checkReference at hone
  split at hone
  · cases hone
  · rename_i hne
    split at hone
    · cases hone
    · rename_i hcontains
      exact ⟨hne, by simpa using hcontains⟩

end NameGraph

namespace Submission

theorem checkTasks_cons_eq_ok_iff {submission : Submission} {seen : List String} {task : Task}
    {rest : List Task} :
    submission.checkTasks seen (task :: rest) = .ok () ↔
      submission.checkTask seen task = .ok () ∧
        submission.checkTasks (task.name :: seen) rest = .ok () := by
  simp only [checkTasks, bind, Except.bind]
  cases submission.checkTask seen task <;> simp

theorem checkTask_eq_ok_iff {submission : Submission} {seen : List String} {task : Task} :
    submission.checkTask seen task = .ok () ↔
      task.resources ≠ 0 ∧ task.maxExecutions ≠ 0 ∧
      (submission.kind = .singleTask → task.after = []) ∧ task.name ∉ seen := by
  unfold checkTask
  dsimp only
  by_cases hresources : task.resources = 0
  · simp [hresources]
  · by_cases hexecutions : task.maxExecutions = 0
    · simp [hresources, hexecutions]
    · by_cases hsingle : submission.kind = .singleTask <;> by_cases hafter : task.after = [] <;>
        by_cases hseen : task.name ∈ seen <;> simp [hresources, hexecutions, hsingle, hafter, hseen]

-- Tasks need slots and executions, those of a single-task job wait for nobody, and names
-- are distinct.
theorem checkTasks_eq_ok_iff {submission : Submission} {seen : List String} {tasks : List Task} :
    submission.checkTasks seen tasks = .ok () ↔
      (∀ task ∈ tasks, task.resources ≠ 0 ∧ task.maxExecutions ≠ 0 ∧
        (submission.kind = .singleTask → task.after = []) ∧ task.name ∉ seen) ∧
      (tasks.map (·.name)).Nodup := by
  induction tasks generalizing seen with
  | nil => simp [checkTasks]
  | cons first rest ih =>
      rw [checkTasks_cons_eq_ok_iff, checkTask_eq_ok_iff, ih, List.forall_mem_cons, List.map_cons,
        List.nodup_cons]
      constructor
      · rintro ⟨hfirst, hrest, hnodup⟩
        refine ⟨⟨hfirst, fun task htask => ?_⟩, fun hmem => ?_, hnodup⟩
        · obtain ⟨hr, he, ha, hn⟩ := hrest task htask
          exact ⟨hr, he, ha, fun hseen => hn (List.mem_cons_of_mem _ hseen)⟩
        · obtain ⟨task, htask, hname⟩ := List.mem_map.mp hmem
          exact (hrest task htask).2.2.2 (hname ▸ List.mem_cons_self)
      · rintro ⟨⟨hfirst, hrest⟩, hfresh, hnodup⟩
        refine ⟨hfirst, fun task htask => ?_, hnodup⟩
        obtain ⟨hr, he, ha, hn⟩ := hrest task htask
        refine ⟨hr, he, ha, fun hseen => ?_⟩
        rcases List.mem_cons.mp hseen with hname | hseen
        · exact hfresh (List.mem_map.mpr ⟨task, htask, hname⟩)
        · exact hn hseen

-- A submission is planned when it has tasks, its policies do not conflict, and its tasks and
-- their references are in order.
theorem resolve_eq_ok_iff {submission : Submission} {job : JobId} {tasks : List PlannedTask} :
    submission.resolve job = .ok tasks ↔ submission.tasks ≠ [] ∧
      ¬(submission.cancelOnError ∧ submission.pauseOnError) ∧
      submission.checkTasks [] submission.tasks = .ok () ∧
      (NameGraph.ofSubmission submission).check submission.name = .ok () ∧
      submission.plan job = tasks := by
  unfold resolve
  by_cases hempty : submission.tasks = []
  · simp [hempty, bind, Except.bind, throw, throwThe, MonadExceptOf.throw]
  · cases hcancel : submission.cancelOnError <;> cases hpause : submission.pauseOnError <;>
      simp [hempty, bind_eq_ok_iff, pure, Except.pure, throw, throwThe, MonadExceptOf.throw,
        Unique.exists_iff]

theorem checkTasks_of_resolve {submission : Submission} {job : JobId} {tasks : List PlannedTask}
    (h : submission.resolve job = .ok tasks) :
    submission.checkTasks [] submission.tasks = .ok () ∧
      (NameGraph.ofSubmission submission).check submission.name = .ok () ∧
      tasks = submission.plan job := by
  obtain ⟨-, -, htasks, hgraph, heq⟩ := resolve_eq_ok_iff.mp h
  exact ⟨htasks, hgraph, heq.symm⟩

-- A priority is no part of what is checked and planned.
theorem resolve_setPriority (submission : Submission) (priority : Priority) :
    ({ submission with priority } : Submission).resolve = submission.resolve := by
  have hcheck (seen : List String) (tasks : List Task) :
      ({ submission with priority } : Submission).checkTasks seen tasks =
        submission.checkTasks seen tasks := by
    induction tasks generalizing seen with
    | nil => rfl
    | cons first rest ih =>
        simp only [checkTasks, ih]
        rfl
  funext job
  unfold resolve
  simp only [hcheck]
  rfl

section Resolved

variable {submission : Submission} {job : JobId} {tasks : List PlannedTask}
  (h : submission.resolve job = .ok tasks)
include h

theorem tasks_ne_nil_of_resolve : submission.tasks ≠ [] := (resolve_eq_ok_iff.mp h).1

theorem nodup_names_of_resolve : (submission.tasks.map (·.name)).Nodup :=
  (checkTasks_eq_ok_iff.mp (checkTasks_of_resolve h).1).2

theorem getElem?_of_resolve (index : Nat) :
    tasks[index]? = submission.tasks[index]?.map fun task =>
      .new ⟨job, index⟩ task.name task.cmd task.resources task.precious task.maxExecutions
        (submission.dependencyIds job task) := by
  rw [(checkTasks_of_resolve h).2.2, plan, List.getElem?_mapIdx]

theorem after_of_singleTask (hkind : submission.kind = .singleTask) {task : Task}
    (htask : task ∈ submission.tasks) : task.after = [] :=
  ((checkTasks_eq_ok_iff.mp (checkTasks_of_resolve h).1).1 task htask).2.2.1 hkind

theorem eq_of_name_eq {a b : Nat} {task other : Task} (ha : submission.tasks[a]? = some task)
    (hb : submission.tasks[b]? = some other) (hname : task.name = other.name) : a = b := by
  have hnames := nodup_names_of_resolve h
  obtain ⟨hlt, rfl⟩ := List.getElem?_eq_some_iff.mp ha
  obtain ⟨hlt', rfl⟩ := List.getElem?_eq_some_iff.mp hb
  have hlt₁ : a < (submission.tasks.map (·.name)).length := by simpa using hlt
  have hlt₂ : b < (submission.tasks.map (·.name)).length := by simpa using hlt'
  have hget : (submission.tasks.map (·.name))[a] = (submission.tasks.map (·.name))[b] := by
    simpa using hname
  exact (List.getElem_inj hnames).mp hget

theorem position?_of_getElem? {index : Nat} {task : Task}
    (htask : submission.tasks[index]? = some task) : submission.position? task.name = some index := by
  unfold position?
  rw [List.findIdx?_eq_some_iff_getElem]
  obtain ⟨hlt, rfl⟩ := List.getElem?_eq_some_iff.mp htask
  refine ⟨hlt, by simp, fun earlier hearlier => ?_⟩
  have hfirst := List.getElem?_eq_getElem (Nat.lt_trans hearlier hlt)
  simp only [beq_iff_eq]
  intro hsame
  have hindex := eq_of_name_eq h hfirst htask hsame
  omega

-- Whatever a task comes after is declared, and its id is among the dependencies.
theorem mem_dependencyIds_of_after {task other : Task} {name : String} (hname : name ∈ task.after) {index : Nat}
    (hother : submission.tasks[index]? = some other) (heq : other.name = name) :
    ⟨job, index⟩ ∈ submission.dependencyIds job task := by
  have hposition := position?_of_getElem? h hother
  rw [heq] at hposition
  exact List.mem_filterMap.mpr ⟨name, hname, by rw [hposition]; rfl⟩

theorem declared_of_after {task : Task} (htask : task ∈ submission.tasks) {name : String}
    (hname : name ∈ task.after) : ∃ other ∈ submission.tasks, other.name = name := by
  have hnames := nodup_names_of_resolve h
  have hdeps := NameGraph.afterOf_ofSubmission hnames htask
  have horder : task.name ∈ (NameGraph.ofSubmission submission).order :=
    List.mem_map.mpr ⟨task, htask, rfl⟩
  obtain ⟨-, hcontains⟩ := NameGraph.references_of_check (checkTasks_of_resolve h).2.1 horder
    (hdeps ▸ hname)
  exact List.mem_map.mp (NameGraph.declared_of_contains hcontains)

end Resolved

end Submission

end JobScheduler
