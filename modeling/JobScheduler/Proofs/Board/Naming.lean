import JobScheduler.Proofs.Board.Rebuild
import JobScheduler.Proofs.Submission.Acyclic

namespace JobScheduler

namespace NameGraph

-- The dependents noted under a name, if it is declared.
def Links.notedOf (links : SortedMap String Links) (name : String) : Option (List String) :=
  (links.find? name).map (·.dependents)

-- The entries that make tasks dependents of `name`, in the order of the tasks.
def dependentEntries (name : String) (tasks : List Submission.Task) : List String :=
  tasks.flatMap fun task => List.replicate (task.after.count name) task.name

theorem notedOf_addDependent (task : String) (links : SortedMap String Links) (dependency name : String) :
    Links.notedOf (addDependent task links dependency) name =
      (Links.notedOf links name).map (· ++ if name = dependency then [task] else []) := by
  unfold Links.notedOf addDependent SortedMap.modify
  by_cases heq : name = dependency
  · subst heq
    cases hfind : links.find? name with
    | none => simp [hfind]
    | some entry => simp
  · cases links.find? dependency <;> simp [heq, Function.comp_def]

theorem notedOf_link (links : SortedMap String Links) (task : Submission.Task) (name : String) :
    Links.notedOf (link links task) name =
      (Links.notedOf links name).map (· ++ List.replicate (task.after.count name) task.name) := by
  unfold link
  induction task.after generalizing links with
  | nil => simp
  | cons first rest ih =>
      rw [List.foldl_cons, ih, notedOf_addDependent, Option.map_map]
      congr 1
      funext noted
      by_cases heq : name = first
      · subst heq
        simp [List.replicate_succ]
      · simp [heq, Ne.symm heq]

-- Every `after` of every task is noted, in the order of the tasks.
theorem notedOf_foldl_link (links : SortedMap String Links) (tasks : List Submission.Task) (name : String) :
    Links.notedOf (tasks.foldl link links) name =
      (Links.notedOf links name).map (· ++ dependentEntries name tasks) := by
  induction tasks generalizing links with
  | nil => simp [dependentEntries]
  | cons first rest ih =>
      rw [List.foldl_cons, ih, notedOf_link, Option.map_map]
      congr 1
      funext noted
      simp [dependentEntries]

-- A name that is declared starts without dependents.
theorem notedOf_foldl_declare (links : SortedMap String Links) (tasks : List Submission.Task) (name : String) :
    Links.notedOf (tasks.foldl declare links) name =
      if name ∈ tasks.map (·.name) then some [] else Links.notedOf links name := by
  induction tasks generalizing links with
  | nil => simp
  | cons first rest ih =>
      rw [List.foldl_cons, ih]
      unfold Links.notedOf declare
      by_cases hmem : name ∈ rest.map (·.name) <;> by_cases heq : name = first.name <;> simp_all

section OfSubmission

variable (submission : Submission) {name : String}

theorem dependentsOf_eq : (ofSubmission submission).dependentsOf name =
    if name ∈ submission.tasks.map (·.name) then dependentEntries name submission.tasks else [] := by
  have hnoted : Links.notedOf (ofSubmission submission).links name =
      if name ∈ submission.tasks.map (·.name) then some (dependentEntries name submission.tasks) else none := by
    rw [ofSubmission, notedOf_foldl_link, notedOf_foldl_declare]
    split <;> rfl
  unfold Links.notedOf at hnoted
  unfold dependentsOf
  split at hnoted <;> cases hfind : (ofSubmission submission).links.find? name <;> simp_all

theorem dependenciesOf_eq_nil (h : name ∉ submission.tasks.map (·.name)) :
    (ofSubmission submission).dependenciesOf name = [] := by
  unfold dependenciesOf
  cases hfind : (ofSubmission submission).links.find? name with
  | none => rfl
  | some entry => exact absurd (declared_of_contains (by rw [SortedMap.contains, hfind]; rfl)) h

end OfSubmission

-- One task is among the dependents of another as often as the other among its dependencies.
theorem count_dependentsOf {submission : Submission} (hnames : (submission.tasks.map (·.name)).Nodup)
    (hreferenced : submission.Referenced) (name other : String) :
    ((ofSubmission submission).dependentsOf name).count other =
      ((ofSubmission submission).dependenciesOf other).count name := by
  rw [dependentsOf_eq]
  by_cases hother : other ∈ submission.tasks.map (·.name)
  · obtain ⟨task, htask, rfl⟩ := List.mem_map.mp hother
    rw [afterOf_ofSubmission hnames htask]
    split
    · exact Board.count_flatMap_replicate Submission.Task.name (List.pairwise_map.mp hnames) htask
        fun task => task.after.count name
    · rename_i hname
      have hnever : name ∉ task.after := fun hmem => hname (hreferenced task htask name hmem).2
      rw [List.count_nil, List.count_eq_zero.mpr hnever]
  · have hnever : other ∉ dependentEntries name submission.tasks := fun hmem => by
      obtain ⟨task, htask, hentry⟩ := List.mem_flatMap.mp hmem
      exact hother (List.mem_map.mpr ⟨task, htask, (List.mem_replicate.mp hentry).2.symm⟩)
    rw [dependenciesOf_eq_nil submission hother, List.count_nil]
    split
    · exact List.count_eq_zero.mpr hnever
    · rfl

end NameGraph

namespace Board

-- The name of a task, if the task is on the board.
def nameOf (board : Board) (id : TaskId) : Except Fault String := (board.card id).map Card.name

-- The board of a new job shows the graph between the names of its tasks: the same links,
-- repeated as often and in the same order, and the tasks that wait for nobody eligible.
structure Draws (board : Board) (graph : NameGraph) : Prop where
  names : board.cards.map Card.name = graph.order
  parents : ∀ card ∈ board.cards,
    card.parents.map board.nameOf = (graph.dependenciesOf card.name).map .ok
  children : ∀ card ∈ board.cards,
    card.children.map board.nameOf = (graph.dependentsOf card.name).map .ok
  eligible : board.eligible.toList.map board.nameOf = graph.roots.map .ok

namespace LaysOut

variable {board : Board} {submission : Submission} (h : board.LaysOut submission)
include h

theorem nameOf_of_mem {card : Card} (hcard : card ∈ board.cards) : board.nameOf card.id = .ok card.name := by
  rw [nameOf, h.wired.card_id_of_mem hcard]
  rfl

theorem task_of_mem {card : Card} (hcard : card ∈ board.cards) :
    ∃ index task, submission.tasks[index]? = some task ∧ board.card ⟨board.job, index⟩ = .ok card ∧
      card.id = ⟨board.job, index⟩ ∧ card.name = task.name := by
  have hself := h.wired.card_id_of_mem hcard
  obtain ⟨task, htask, hname⟩ := h.task_of_card hself
  have hid : card.id = ⟨board.job, card.id.index⟩ :=
    TaskId.eq_of_index_eq (card_eq_ok_iff.mp hself).1 rfl
  exact ⟨card.id.index, task, htask, hid ▸ hself, hid, hname⟩

theorem nodup_names : (submission.tasks.map (·.name)).Nodup := Submission.nodup_names_of_resolve h.resolved

theorem map_nameOf_parents {card : Card} (hcard : card ∈ board.cards) :
    card.parents.map board.nameOf =
      ((NameGraph.ofSubmission submission).dependenciesOf card.name).map .ok := by
  obtain ⟨index, task, htask, hself, -, hname⟩ := h.task_of_mem hcard
  rw [h.parents_eq htask hself, hname,
    NameGraph.afterOf_ofSubmission h.nodup_names (List.mem_of_getElem? htask), Submission.dependencyIds,
    List.map_filterMap]
  have hfound (name : String) (hmem : name ∈ task.after) :
      Option.map board.nameOf ((submission.position? name).map (⟨board.job, ·⟩)) = some (.ok name) := by
    obtain ⟨other, hother, rfl⟩ := Submission.declared_of_after h.resolved (List.mem_of_getElem? htask) hmem
    obtain ⟨position, hposition⟩ := List.mem_iff_getElem?.mp hother
    obtain ⟨card, hcard, -⟩ := h.card_of_task hposition
    rw [Submission.position?_of_getElem? h.resolved hposition, Option.map_some, Option.map_some, nameOf,
      hcard, ← h.name_eq hposition hcard]
    rfl
  rw [List.filterMap_congr hfound]
  exact congrFun List.filterMap_eq_map task.after

theorem map_nameOf_children {card : Card} (hcard : card ∈ board.cards) :
    card.children.map board.nameOf =
      ((NameGraph.ofSubmission submission).dependentsOf card.name).map .ok := by
  obtain ⟨index, task, htask, hself, hid, hname⟩ := h.task_of_mem hcard
  have hentries : board.cards.map (fun child =>
        (List.replicate (child.parents.count card.id) child.id).map board.nameOf) =
      submission.tasks.map fun child =>
        (List.replicate (child.after.count card.name) child.name).map Except.ok := by
    refine h.map_cards_eq fun position child childCard hchild hchildCard => ?_
    rw [hid, hname, h.count_parents htask hchild hchildCard, List.map_replicate, List.map_replicate,
      h.nameOf_of_mem (Wired.mem_of_card hchildCard), h.name_eq hchild hchildCard]
  rw [NameGraph.dependentsOf_eq, if_pos (hname ▸ List.mem_map_of_mem (List.mem_of_getElem? htask)),
    NameGraph.dependentEntries, h.wired.children card hcard, List.map_flatMap, List.map_flatMap,
    List.flatMap_def, hentries, List.flatMap_def]

-- The tasks at a place, by their names.
theorem map_nameOf_idsAt (place : Place) : (board.idsAt place).map board.nameOf =
    ((board.cards.filter (·.place == place)).map Card.name).map .ok := by
  rw [idsAt, List.map_map, List.map_map]
  exact List.map_congr_left fun card hcard => h.nameOf_of_mem (List.mem_of_mem_filter hcard)

end LaysOut

-- What a submission resolves to can be built. The links between the ids of the tasks are
-- those between their names, and those tasks are eligible that no link leads to. In both
-- views a link is noted as often at its one end as at the other.
theorem draws_of_resolve {submission : Submission} {job : JobId} {tasks : List PlannedTask}
    (h : submission.resolve job = .ok tasks) (priority : Priority) :
    let graph := NameGraph.ofSubmission submission
    (∃ board, build job priority submission.kind tasks = .ok board ∧ board.Draws graph ∧
      ∀ a ∈ board.cards, ∀ b ∈ board.cards, a.children.count b.id = b.parents.count a.id) ∧
    ∀ name other, (graph.dependentsOf name).count other = (graph.dependenciesOf other).count name := by
  intro graph
  obtain ⟨board, hbuild⟩ := Submission.exists_build_of_resolve h priority
  have hlaid : board.LaysOut submission := laysOut_of_build h hbuild
  have hroot (card : Card) (hcard : card ∈ board.cards) :
      (card.place == .eligible) = (graph.dependenciesOf card.name).isEmpty := by
    obtain ⟨hplace, hunmet, -⟩ := fresh_of_build hbuild hcard
    have hlength := congrArg List.length (hlaid.map_nameOf_parents hcard)
    rw [List.length_map, List.length_map, ← hunmet] at hlength
    rw [Bool.eq_iff_iff, beq_iff_eq, List.isEmpty_iff, ← List.length_eq_zero_iff, ← hlength, hplace]
    split <;> simp_all
  refine ⟨⟨board, hbuild, ⟨hlaid.map_name_cards, fun _ => hlaid.map_nameOf_parents,
    fun _ => hlaid.map_nameOf_children, ?_⟩, fun _ ha _ hb => hlaid.wired.count_children ha hb⟩,
    NameGraph.count_dependentsOf (Submission.nodup_names_of_resolve h) (Submission.referenced_of_resolve h)⟩
  have hlisted : board.eligible.toList = board.idsAt .eligible :=
    (partitioned_of_build hbuild).toList_partition hlaid.wired (show Place.eligible.isPartition from rfl)
  rw [hlisted, hlaid.map_nameOf_idsAt, List.filter_congr hroot, NameGraph.roots,
    show graph.order = board.cards.map Card.name from hlaid.map_name_cards.symm, List.filter_map]
  rfl

-- The last task of the diamond comes twice after the same one.
theorem draws_of_resolve_diamond :
    let graph := NameGraph.ofSubmission diamond
    diamond.resolve ⟨0⟩ = .ok (diamond.plan ⟨0⟩) ∧
    (∃ board, build ⟨0⟩ .high diamond.kind (diamond.plan ⟨0⟩) = .ok board ∧ board.Draws graph) ∧
    graph.roots = ["a"] ∧ graph.dependenciesOf "d" = ["b", "c", "c"] ∧ graph.dependentsOf "c" = ["d", "d"] ∧
    (graph.dependentsOf "c").count "d" = (graph.dependenciesOf "d").count "c" := by
  obtain ⟨⟨board, hbuild, hdraws, -⟩, hcount⟩ := draws_of_resolve resolve_diamond .high
  exact ⟨resolve_diamond, ⟨board, hbuild, hdraws⟩, by decide, by decide, by decide, hcount "c" "d"⟩

end Board

end JobScheduler
