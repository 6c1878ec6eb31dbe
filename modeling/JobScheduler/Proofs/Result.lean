import Mathlib.Data.Finset.Card
import Mathlib.Data.Finset.Dedup
import Mathlib.Data.List.Nodup
import JobScheduler.Proofs.SortedMap
import JobScheduler.Result
import JobScheduler.Submission.Basic

namespace JobScheduler

theorem Submission.name_mem_preciousTasks_iff {submission : Submission}
    (hnodup : (submission.tasks.map (·.name)).Nodup) {task : Task} (htask : task ∈ submission.tasks) :
    task.name ∈ submission.preciousTasks ↔ task.precious := by
  rw [preciousTasks, List.mem_map]
  constructor
  · rintro ⟨other, hother, hname⟩
    obtain ⟨hmem, hprecious⟩ := List.mem_filter.mp hother
    rwa [List.inj_on_of_nodup_map hnodup htask hmem hname.symm]
  · exact fun hprecious => ⟨task, List.mem_filter.mpr ⟨htask, hprecious⟩, rfl⟩

namespace JobResult

-- How many results were missing makes no difference to the results.
theorem fst_foldl_reconcileOne (results : JobResult) (declared : List Declared) (missing : Nat) :
    (declared.foldl reconcileOne (results, missing)).1 = (results.reconcile declared).1 := by
  suffices hall : ∀ other, (declared.foldl reconcileOne (results, missing)).1 =
      (declared.foldl reconcileOne (results, other)).1 from hall 0
  induction declared generalizing results missing with
  | nil => exact fun _ => rfl
  | cons first rest ih =>
      intro other
      rw [List.foldl_cons, List.foldl_cons, reconcileOne, reconcileOne]
      split
      · exact ih results missing other
      · exact ih _ _ _

theorem reconcile_cons (results : JobResult) (first : Declared) (rest : List Declared) :
    (results.reconcile (first :: rest)).1 =
      (((if results.all.contains first.name then results
        else results.add first.name (.noneReturned first.id) first.precious).reconcile rest)).1 := by
  rw [reconcile, List.foldl_cons, reconcileOne]
  split <;> exact fst_foldl_reconcileOne _ _ _

-- A reconciliation changes nothing but the three maps of results.
theorem exists_reconcile_eq (results : JobResult) (declared : List Declared) :
    ∃ all precious exceptions,
      (results.reconcile declared).1 = { results with all, precious, exceptions } := by
  induction declared generalizing results with
  | nil => exact ⟨results.all, results.precious, results.exceptions, rfl⟩
  | cons first rest ih =>
      rw [reconcile_cons]
      split
      · exact ih results
      · exact ih (results.add first.name (.noneReturned first.id) first.precious)

theorem find?_all_add (results : JobResult) (task name : String) (result : TaskResult) (precious : Bool) :
    (results.add task result precious).all.find? name =
      if name = task then some result else results.all.find? name :=
  SortedMap.find?_insert ..

theorem find?_exceptions_add (results : JobResult) (task name : String) (result : TaskResult)
    (precious : Bool) : (results.add task result precious).exceptions.find? name =
      if name = task ∧ result.isSettledException then some result
      else results.exceptions.find? name := by
  rw [add]
  by_cases hsettled : result.isSettledException
  · simp [hsettled, SortedMap.find?_insert]
  · simp [hsettled]

-- What there is under one name in the three maps.
structure Entries where
  all : Option TaskResult
  precious : Option TaskResult
  exceptions : Option TaskResult
deriving DecidableEq

def Entries.add (entries : Entries) (result : TaskResult) (precious : Bool) : Entries :=
  { all := some result
    precious := if precious then some result else entries.precious
    exceptions := if result.isSettledException then some result else entries.exceptions }

def entriesOf (results : JobResult) (name : String) : Entries :=
  ⟨results.all.find? name, results.precious.find? name, results.exceptions.find? name⟩

theorem entriesOf_add (results : JobResult) (task name : String) (result : TaskResult) (precious : Bool) :
    (results.add task result precious).entriesOf name =
      if name = task then (results.entriesOf name).add result precious else results.entriesOf name := by
  rw [entriesOf, find?_all_add, find?_exceptions_add, add]
  by_cases h : name = task <;> cases precious <;> simp [h, entriesOf, Entries.add]

theorem contains_eq_isSome_entriesOf (results : JobResult) (name : String) :
    results.all.contains name = (results.entriesOf name).all.isSome := rfl

-- A reconciliation adds to what is declared and has no result that there was none, for the
-- first of all declarations of a name.
theorem entriesOf_reconcile (results : JobResult) (declared : List Declared) (name : String) :
    (results.reconcile declared).1.entriesOf name =
      if results.all.contains name then results.entriesOf name
      else match declared.find? (·.name == name) with
        | some task => (results.entriesOf name).add (.noneReturned task.id) task.precious
        | none => results.entriesOf name := by
  induction declared generalizing results with
  | nil => simp [reconcile]
  | cons first rest ih =>
      rw [reconcile_cons]
      by_cases hname : first.name = name
      · have hfind : (first :: rest).find? (·.name == name) = some first :=
          List.find?_cons_of_pos (by simpa using hname)
        rw [hfind]
        subst hname
        by_cases hhas : results.all.contains first.name
        · rw [if_pos hhas, if_pos hhas, ih, if_pos hhas]
        · rw [if_neg hhas, if_neg hhas, ih, contains_eq_isSome_entriesOf, entriesOf_add, if_pos rfl]
          exact if_pos rfl
      · have hfind : (first :: rest).find? (·.name == name) = rest.find? (·.name == name) :=
          List.find?_cons_of_neg (by simpa using hname)
        rw [hfind]
        split
        · exact ih results
        · rw [ih, contains_eq_isSome_entriesOf, entriesOf_add, if_neg (Ne.symm hname)]
          rfl

-- What is declared keeps its result, or gets one that says that there was none.
theorem find?_reconcile_of_mem (results : JobResult) {declared : List Declared}
    (hnodup : (declared.map (·.name)).Nodup) {entry : Declared} (h : entry ∈ declared) :
    (results.reconcile declared).1.all.find? entry.name =
        some ((results.all.find? entry.name).getD (.noneReturned entry.id)) ∧
      (results.reconcile declared).1.exceptions.find? entry.name =
        if results.all.contains entry.name then results.exceptions.find? entry.name
        else some (.noneReturned entry.id) := by
  have hfirst : declared.find? (·.name == entry.name) = some entry := by
    cases hfind : declared.find? (·.name == entry.name) with
    | none => exact absurd (beq_self_eq_true entry.name) (List.find?_eq_none.mp hfind entry h)
    | some other =>
        have hname : other.name = entry.name := by simpa using List.find?_some hfind
        rw [List.inj_on_of_nodup_map hnodup (List.mem_of_find?_eq_some hfind) h hname]
  have hentries := entriesOf_reconcile results declared entry.name
  rw [hfirst] at hentries
  cases hfind : results.all.find? entry.name with
  | none =>
      rw [if_neg (by simp [SortedMap.contains, hfind])] at hentries ⊢
      exact ⟨congrArg Entries.all hentries, congrArg Entries.exceptions hentries⟩
  | some result =>
      rw [if_pos (by simp [SortedMap.contains, hfind])] at hentries ⊢
      exact ⟨(congrArg Entries.all hentries).trans hfind, congrArg Entries.exceptions hentries⟩

-- Results are of the tasks of a submission only, and those of its precious tasks are kept
-- once more. Exceptions are of tasks that have a result.
structure Accounts (results : JobResult) (submission : Submission) : Prop where
  expected : results.expectedPrecious = .ofList submission.preciousTasks
  declared : ∀ name, results.all.contains name → name ∈ submission.tasks.map (·.name)
  precious : ∀ name, results.precious.find? name =
    if name ∈ submission.preciousTasks then results.all.find? name else none
  excepted : ∀ name, results.exceptions.contains name → results.all.contains name

theorem accounts_new (job : JobId) (submission : Submission) :
    (JobResult.new job submission.name submission.preciousTasks).Accounts submission where
  expected := rfl
  declared name hname := by cases hname
  precious name := by
    split <;> rfl
  excepted name hname := by cases hname

section Accounts

variable {results : JobResult} {submission : Submission} (h : results.Accounts submission)
include h

theorem Accounts.released (released : SortedSet String) :
    ({ results with released } : JobResult).Accounts submission :=
  ⟨h.expected, h.declared, h.precious, h.excepted⟩

theorem Accounts.mark (status : JobStatus) : (results.mark status).Accounts submission :=
  ⟨h.expected, h.declared, h.precious, h.excepted⟩

-- What is precious or an exception is of a task that has a result.
theorem Accounts.within {name : String}
    (hname : results.precious.contains name ∨ results.exceptions.contains name) :
    results.all.contains name := by
  rcases hname with hprecious | hexception
  · rw [SortedMap.contains, h.precious] at hprecious
    split at hprecious
    · exact hprecious
    · cases hprecious
  · exact h.excepted name hexception

variable (hnodup : (submission.tasks.map (·.name)).Nodup)
include hnodup

theorem Accounts.find?_precious {task : Submission.Task} (htask : task ∈ submission.tasks) :
    results.precious.find? task.name =
      if task.precious then results.all.find? task.name else none := by
  rw [h.precious]
  exact if_congr (Submission.name_mem_preciousTasks_iff hnodup htask) rfl rfl

theorem Accounts.add {task : Submission.Task} (htask : task ∈ submission.tasks) (result : TaskResult) :
    (results.add task.name result task.precious).Accounts submission where
  expected := h.expected
  declared name hname := by
    rw [SortedMap.contains, find?_all_add] at hname
    split at hname
    · rename_i heq
      exact heq ▸ List.mem_map_of_mem htask
    · exact h.declared name hname
  precious name := by
    have hprecious := Submission.name_mem_preciousTasks_iff hnodup htask
    rw [find?_all_add, JobResult.add]
    by_cases heq : name = task.name
    · subst heq
      cases hflag : task.precious
      · simp [hprecious, hflag, h.precious]
      · simp [hprecious, hflag]
    · cases task.precious <;> simp [heq, h.precious]
  excepted name hname := by
    have hold := h.excepted name
    simp only [SortedMap.contains, find?_all_add, find?_exceptions_add] at hold hname ⊢
    by_cases heq : name = task.name
    · rw [if_pos heq]
      rfl
    · rw [if_neg fun hboth => heq hboth.1] at hname
      rw [if_neg heq]
      exact hold hname

-- A reconciliation adds what is missing and keeps the books in order.
theorem Accounts.reconcile {declared : List Declared}
    (hdeclared : ∀ entry ∈ declared, ∃ task ∈ submission.tasks,
      task.name = entry.name ∧ task.precious = entry.precious) :
    (results.reconcile declared).1.Accounts submission ∧
      ∀ name, (results.reconcile declared).1.all.contains name ↔
        results.all.contains name ∨ name ∈ declared.map (·.name) := by
  induction declared generalizing results with
  | nil => exact ⟨h, by simp [reconcile]⟩
  | cons first rest ih =>
      obtain ⟨hfirst, hrest⟩ := List.forall_mem_cons.mp hdeclared
      rw [reconcile_cons]
      split
      · rename_i hhas
        obtain ⟨haccounts, hcontains⟩ := ih h hrest
        refine ⟨haccounts, fun name => (hcontains name).trans ?_⟩
        by_cases heq : name = first.name <;> simp [heq, hhas]
      · obtain ⟨task, htask, hname, hprecious⟩ := hfirst
        have hadded := h.add hnodup htask (.noneReturned first.id)
        rw [hname, hprecious] at hadded
        obtain ⟨haccounts, hcontains⟩ := ih hadded hrest
        refine ⟨haccounts, fun name => (hcontains name).trans ?_⟩
        by_cases heq : name = first.name <;> simp [JobResult.add, SortedMap.contains, heq]

end Accounts

section Log

-- What is done to the results of a job.
inductive Call
  | add (task : String) (result : TaskResult) (precious : Bool)
  | reconcile (declared : List Declared)
  | release (task : String)
  | mark (status : JobStatus)

def Call.marked? : Call → Option JobStatus
  | .mark status => some status
  | _ => none

def perform (results : JobResult) : Call → JobResult
  | .add task result precious => results.add task result precious
  | .reconcile declared => (results.reconcile declared).1
  | .release task => results.release task
  | .mark status => results.mark status

def after (results : JobResult) (calls : List Call) : JobResult := calls.foldl perform results

structure Addition where
  task : String
  result : TaskResult
  precious : Bool

def Addition.missed (task : Declared) : Addition := ⟨task.name, .noneReturned task.id, task.precious⟩

-- The result that was added last for a task, of the additions that are wanted.
def latest? (log : List Addition) (wanted : Addition → Bool) (task : String) : Option TaskResult :=
  (log.filter fun addition => addition.task == task && wanted addition).getLast?.map (·.result)

-- The declarations of names that are not known, the first of each name.
def missing (known : List String) : List Declared → List Declared
  | [] => []
  | first :: rest =>
      if first.name ∈ known then missing known rest
      else first :: missing (known ++ [first.name]) rest

def Call.additions (log : List Addition) : Call → List Addition
  | .add task result precious => [⟨task, result, precious⟩]
  | .reconcile declared => (missing (log.map (·.task)) declared).map .missed
  | .release _ => []
  | .mark _ => []

def extend (log : List Addition) (calls : List Call) : List Addition :=
  calls.foldl (fun log call => log ++ call.additions log) log

theorem latest?_concat (log : List Addition) (addition : Addition) (wanted : Addition → Bool)
    (task : String) : latest? (log ++ [addition]) wanted task =
      if task = addition.task ∧ wanted addition then some addition.result
      else latest? log wanted task := by
  rw [latest?, List.filter_append]
  by_cases htask : task = addition.task <;> by_cases hwanted : wanted addition
  · simp [htask, hwanted]
  · simp [hwanted, latest?]
  · simp [htask, Ne.symm htask, latest?]
  · simp [hwanted, latest?]

theorem isSome_latest?_iff {log : List Addition} {wanted : Addition → Bool} {task : String} :
    (latest? log wanted task).isSome ↔ ∃ addition ∈ log, addition.task = task ∧ wanted addition := by
  rw [latest?, Option.isSome_map, List.getLast?_isSome]
  simp [List.filter_eq_nil_iff]

theorem isSome_latest?_mono {log longer : List Addition} (hlonger : log <+: longer)
    {wanted : Addition → Bool} {task : String} (h : (latest? log wanted task).isSome) :
    (latest? longer wanted task).isSome := by
  rw [isSome_latest?_iff] at h ⊢
  obtain ⟨addition, hmem, haddition⟩ := h
  exact ⟨addition, hlonger.subset hmem, haddition⟩

theorem prefix_extend (log : List Addition) (calls : List Call) : log <+: extend log calls := by
  induction calls generalizing log with
  | nil => exact List.prefix_rfl
  | cons call rest ih => exact (List.prefix_append log _).trans (ih _)

-- Each map has the last addition that belongs into it.
structure KeepsLast (results : JobResult) (log : List Addition) : Prop where
  all : ∀ task, results.all.find? task = latest? log (fun _ => true) task
  precious : ∀ task, results.precious.find? task = latest? log (·.precious) task
  exceptions : ∀ task, results.exceptions.find? task =
    latest? log (fun addition => !addition.result.pending && addition.result.hadException) task

-- No name leaves a map on the way to the later results.
structure LastsIn (results later : JobResult) : Prop where
  all : ∀ task, results.all.contains task → later.all.contains task
  precious : ∀ task, results.precious.contains task → later.precious.contains task
  exceptions : ∀ task, results.exceptions.contains task → later.exceptions.contains task

variable {results : JobResult} {log : List Addition} (h : results.KeepsLast log)
include h

theorem KeepsLast.contains_iff {task : String} :
    results.all.contains task ↔ task ∈ log.map (·.task) := by
  rw [SortedMap.contains, h.all, isSome_latest?_iff, List.mem_map]
  simp

theorem KeepsLast.within {task : String}
    (htask : results.precious.contains task ∨ results.exceptions.contains task) :
    results.all.contains task := by
  rw [h.contains_iff, List.mem_map]
  rw [SortedMap.contains, SortedMap.contains, h.precious, h.exceptions, isSome_latest?_iff,
    isSome_latest?_iff] at htask
  rcases htask with ⟨addition, hmem, hname, -⟩ | ⟨addition, hmem, hname, -⟩
  · exact ⟨addition, hmem, hname⟩
  · exact ⟨addition, hmem, hname⟩

theorem KeepsLast.lastsIn {later : JobResult} {longer : List Addition} (hlater : later.KeepsLast longer)
    (hlonger : log <+: longer) : results.LastsIn later where
  all task htask := by
    rw [SortedMap.contains, hlater.all]
    exact isSome_latest?_mono hlonger (h.all task ▸ htask)
  precious task htask := by
    rw [SortedMap.contains, hlater.precious]
    exact isSome_latest?_mono hlonger (h.precious task ▸ htask)
  exceptions task htask := by
    rw [SortedMap.contains, hlater.exceptions]
    exact isSome_latest?_mono hlonger (h.exceptions task ▸ htask)

theorem KeepsLast.isComplete_iff {expected : List String}
    (hexpected : results.expectedPrecious = .ofList expected) :
    results.isComplete ↔ (∀ task ∈ expected, ∃ addition ∈ log, addition.task = task) ∧
      ∃ status, results.final = some status ∧ status.isTerminal := by
  rw [isComplete, Bool.and_eq_true, preciousCollected, List.all_eq_true, hexpected, Option.any_eq_true]
  refine and_congr_left' (forall_congr' fun task => ?_)
  rw [SortedSet.mem_toList_iff, SortedSet.member_ofList, h.contains_iff, List.mem_map]

theorem KeepsLast.add (task : String) (result : TaskResult) (precious : Bool) :
    (results.add task result precious).KeepsLast (log ++ [⟨task, result, precious⟩]) where
  all name := by
    rw [find?_all_add, latest?_concat, h.all]
    simp
  precious name := by
    rw [latest?_concat, ← h.precious, JobResult.add]
    cases precious <;> simp
  exceptions name := by
    rw [find?_exceptions_add, latest?_concat, h.exceptions]
    rfl

theorem KeepsLast.reconcile (declared : List Declared) :
    (results.reconcile declared).1.KeepsLast
      (log ++ (missing (log.map (·.task)) declared).map .missed) := by
  induction declared generalizing results log with
  | nil =>
      rw [missing, List.map_nil, List.append_nil]
      exact h
  | cons first rest ih =>
      rw [reconcile_cons, missing]
      by_cases hknown : results.all.contains first.name
      · rw [if_pos hknown, if_pos (h.contains_iff.mp hknown)]
        exact ih h
      · rw [if_neg hknown, if_neg (mt h.contains_iff.mpr hknown)]
        have hrest := ih (h.add first.name (.noneReturned first.id) first.precious)
        rw [List.map_append, List.append_assoc] at hrest
        exact hrest

theorem KeepsLast.perform (call : Call) :
    (results.perform call).KeepsLast (log ++ call.additions log) := by
  cases call with
  | add task result precious => exact h.add task result precious
  | reconcile declared => exact h.reconcile declared
  | release task =>
      rw [Call.additions, List.append_nil]
      exact ⟨h.all, h.precious, h.exceptions⟩
  | mark status =>
      rw [Call.additions, List.append_nil]
      exact ⟨h.all, h.precious, h.exceptions⟩

theorem KeepsLast.after (calls : List Call) : (results.after calls).KeepsLast (extend log calls) := by
  induction calls generalizing results log with
  | nil => exact h
  | cons call rest ih => exact ih (h.perform call)

omit h

-- What a reconciliation makes of the results, and the number that it gives back.
structure FillsIn (results : JobResult) (declared : List Declared) (outcome : JobResult × Nat) : Prop where
  kept : ∀ name, results.all.contains name ∨ name ∉ declared.map (·.name) →
    outcome.1.entriesOf name = results.entriesOf name
  missed : ∀ name task, ¬results.all.contains name → declared.find? (·.name == name) = some task →
    outcome.1.entriesOf name =
      { all := some (.noneReturned task.id)
        precious := if task.precious then some (.noneReturned task.id) else none
        exceptions := some (.noneReturned task.id) }
  added : outcome.2 =
    ((declared.map (·.name)).toFinset.filter fun name => ¬results.all.contains name).card

-- A name counts once, for what is added at its first declaration is found at the others.
theorem snd_foldl_reconcileOne (results : JobResult) (declared : List Declared) (before : Nat) :
    (declared.foldl reconcileOne (results, before)).2 = before +
      ((declared.map (·.name)).toFinset.filter fun name => ¬results.all.contains name).card := by
  induction declared generalizing results before with
  | nil => rfl
  | cons first rest ih =>
      rw [List.foldl_cons, reconcileOne, List.map_cons, List.toFinset_cons, Finset.filter_insert]
      by_cases hhas : results.all.contains first.name
      · rw [if_pos hhas, ih, if_neg (not_not_intro hhas)]
      · rw [if_neg hhas, ih, if_pos hhas]
        have hrest : ((rest.map (·.name)).toFinset.filter fun name =>
              ¬(results.add first.name (.noneReturned first.id) first.precious).all.contains name) =
            (insert first.name ((rest.map (·.name)).toFinset.filter fun name =>
              ¬results.all.contains name)).erase first.name := by
          ext name
          by_cases hname : name = first.name <;> simp [SortedMap.contains, find?_all_add, hname]
        rw [hrest, Nat.add_assoc, Nat.add_comm 1,
          Finset.card_erase_add_one (Finset.mem_insert_self first.name _)]

theorem fillsIn_reconcile {results : JobResult}
    (hwithin : ∀ name, results.precious.contains name → results.all.contains name)
    (declared : List Declared) : results.FillsIn declared (results.reconcile declared) where
  kept name hname := by
    rw [entriesOf_reconcile]
    rcases hname with hhas | hnot
    · rw [if_pos hhas]
    · have hfind : declared.find? (·.name == name) = none := by
        rw [List.find?_eq_none]
        intro task htask hname
        exact hnot (List.mem_map.mpr ⟨task, htask, by simpa using hname⟩)
      rw [hfind, ite_self]
  missed name task hhas hfind := by
    have hprecious : results.precious.find? name = none := by
      rw [← Option.not_isSome_iff_eq_none]
      exact fun hsome => hhas (hwithin name hsome)
    rw [entriesOf_reconcile, if_neg hhas, hfind]
    simp [Entries.add, entriesOf, hprecious, TaskResult.isSettledException, TaskResult.hadException,
      TaskResult.noneReturned, TaskResult.failure]
  added := by
    rw [reconcile, snd_foldl_reconcileOne, Nat.zero_add]

theorem expectedPrecious_after (results : JobResult) (calls : List Call) :
    (results.after calls).expectedPrecious = results.expectedPrecious := by
  induction calls generalizing results with
  | nil => rfl
  | cons call rest ih =>
      refine (ih _).trans ?_
      cases call with
      | reconcile declared =>
          obtain ⟨all, precious, exceptions, heq⟩ := results.exists_reconcile_eq declared
          rw [perform, heq]
      | add task result precious => rfl
      | release task => rfl
      | mark status => rfl

theorem final_after (results : JobResult) (calls : List Call) :
    (results.after calls).final = (calls.filterMap Call.marked?).getLast?.or results.final := by
  induction calls using List.reverseRecOn with
  | nil => rfl
  | append_singleton calls call ih =>
      rw [after, List.foldl_append, List.filterMap_append, List.getLast?_append, Option.or_assoc, ← ih]
      cases call with
      | reconcile declared =>
          obtain ⟨all, precious, exceptions, heq⟩ := (results.after calls).exists_reconcile_eq declared
          change ((results.after calls).reconcile declared).1.final = (results.after calls).final
          rw [heq]
      | add task result precious => rfl
      | release task => rfl
      | mark status => rfl

-- Results are a log in which the last entry wins: whatever is done to them, each of the three
-- maps has what was last added to it, and nothing leaves it. A reconciliation touches only
-- what had no result, and the results are complete when nothing precious is left out of the
-- log and the status they were last marked with is final.
theorem last_write_wins (job : JobId) (name : String) (expected : List String) (calls : List Call) :
    let results := (JobResult.new job name expected).after calls
    let log := extend [] calls
    results.KeepsLast log ∧
      (∀ task, results.precious.contains task ∨ results.exceptions.contains task →
        results.all.contains task) ∧
      (∀ more, results.LastsIn (results.after more)) ∧
      (∀ declared, results.FillsIn declared (results.reconcile declared)) ∧
      (results.isComplete ↔
        (∀ task ∈ expected, ∃ addition ∈ log, addition.task = task) ∧
          ∃ status, (calls.filterMap Call.marked?).getLast? = some status ∧ status.isTerminal) := by
  intro results log
  have hnew : (JobResult.new job name expected).KeepsLast [] := ⟨fun _ => rfl, fun _ => rfl, fun _ => rfl⟩
  have hlast : results.KeepsLast log := hnew.after calls
  have hexpected : results.expectedPrecious = .ofList expected := expectedPrecious_after _ calls
  have hfinal : results.final = (calls.filterMap Call.marked?).getLast? :=
    (final_after _ calls).trans Option.or_none
  exact ⟨hlast, fun task => hlast.within,
    fun more => hlast.lastsIn (hlast.after more) (prefix_extend log more),
    fillsIn_reconcile fun task htask => hlast.within (.inl htask), hfinal ▸ hlast.isComplete_iff hexpected⟩

end Log

end JobResult

end JobScheduler
