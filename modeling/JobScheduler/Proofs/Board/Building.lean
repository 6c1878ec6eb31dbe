import JobScheduler.Proofs.Board.Wiring
import JobScheduler.Proofs.Check

namespace JobScheduler.Board

theorem checkDependency_eq_ok_iff {job : JobId} {size : Nat} {dependency : TaskId} :
    checkDependency job size dependency = .ok () ↔
      dependency.job = job ∧ dependency.index < size := by
  unfold checkDependency
  by_cases hjob : dependency.job = job <;> by_cases hsize : dependency.index < size <;>
    simp [hjob, hsize]

theorem checkPlan_cons_eq_ok_iff {job : JobId} {kind : JobKind} {size position : Nat}
    {task : PlannedTask} {rest : List PlannedTask} :
    checkPlan job kind size position (task :: rest) = .ok () ↔
      task.id = ⟨job, position⟩ ∧
      (kind = .taskFlow → ∀ dependency ∈ task.dependencies,
        dependency.job = job ∧ dependency.index < size) ∧
      checkPlan job kind size (position + 1) rest = .ok () := by
  have hdeps : (task.dependencies.forM (checkDependency job size) = .ok ()) ↔
      ∀ dependency ∈ task.dependencies, dependency.job = job ∧ dependency.index < size := by
    rw [forM_eq_ok_iff]
    exact forall₂_congr fun dependency _ => checkDependency_eq_ok_iff
  rw [← hdeps]
  simp only [checkPlan, bind, Except.bind, throw, throwThe, MonadExceptOf.throw]
  by_cases hid : task.id = ⟨job, position⟩
  · by_cases hkind : kind = .taskFlow
    · cases task.dependencies.forM (checkDependency job size) <;> simp [hid, hkind]
    · simp [hid, hkind]
  · simp [hid]

theorem checkPlan_eq_ok_iff {job : JobId} {kind : JobKind} {size position : Nat}
    {tasks : List PlannedTask} :
    checkPlan job kind size position tasks = .ok () ↔
      ∀ (index : Nat) (task : PlannedTask), tasks[index]? = some task →
        task.id = ⟨job, position + index⟩ ∧
        (kind = .taskFlow → ∀ dependency ∈ task.dependencies,
          dependency.job = job ∧ dependency.index < size) := by
  induction tasks generalizing position with
  | nil => simp [checkPlan]
  | cons first rest ih =>
      rw [checkPlan_cons_eq_ok_iff, ih]
      constructor
      · rintro ⟨hid, hdeps, hrest⟩ index task htask
        cases index with
        | zero =>
            have heq : first = task := by simpa using htask
            subst heq
            exact ⟨hid, hdeps⟩
        | succ index =>
            have hnext := hrest index task (by simpa using htask)
            rwa [Nat.add_assoc, Nat.add_comm 1 index] at hnext
      · intro h
        obtain ⟨hid, hdeps⟩ := h 0 first rfl
        refine ⟨hid, hdeps, fun index task htask => ?_⟩
        have hnext := h (index + 1) task (by simpa using htask)
        rwa [Nat.add_assoc, Nat.add_comm 1 index]

-- Links added to a card.
def wire (parents children : List TaskId) (card : Card) : Card :=
  { card with
    parents := card.parents ++ parents
    children := card.children ++ children
    unmet := card.unmet + parents.length
    remaining := card.remaining + children.length }

theorem wire_nil (card : Card) : wire [] [] card = card := by
  simp [wire]

theorem wire_wire (parents children parents' children' : List TaskId) (card : Card) :
    wire parents' children' (wire parents children card) =
      wire (parents ++ parents') (children ++ children') card := by
  simp [wire, Nat.add_assoc]

theorem addParent_eq_wire (parent : TaskId) : addParent parent = wire [parent] [] := by
  funext card
  simp [addParent, wire]

theorem addChild_eq_wire (child : TaskId) : addChild child = wire [] [child] := by
  funext card
  simp [addChild, wire]

theorem getElem?_modify_wire (parents children : List TaskId) (cards : List Card)
    (position index : Nat) :
    (cards.modify position (wire parents children))[index]? =
      cards[index]?.map (wire (if index = position then parents else [])
        (if index = position then children else [])) := by
  rw [List.getElem?_modify]
  by_cases h : index = position
  · subst h
    simp
  · have hwire : wire [] [] = id := funext wire_nil
    simp [h, Ne.symm h, hwire]

theorem getElem?_linkDependency (child : TaskId) (cards : List Card) (parent : TaskId) (index : Nat) :
    (linkDependency child cards parent)[index]? =
      cards[index]?.map (wire (if index = child.index then [parent] else [])
        (if index = parent.index then [child] else [])) := by
  unfold linkDependency
  rw [addParent_eq_wire, addChild_eq_wire, getElem?_modify_wire, getElem?_modify_wire,
    Option.map_map]
  congr 1
  funext card
  rw [Function.comp_apply, wire_wire]
  simp

-- What the dependencies of one task add to the card at `index`.
theorem getElem?_foldl_linkDependency (child : TaskId) (dependencies : List TaskId)
    (cards : List Card) (index : Nat) :
    (dependencies.foldl (linkDependency child) cards)[index]? =
      cards[index]?.map (wire (if index = child.index then dependencies else [])
        (List.replicate (dependencies.countP (·.index == index)) child)) := by
  induction dependencies generalizing cards with
  | nil =>
      have hwire : wire [] [] = id := funext wire_nil
      simp [hwire]
  | cons first rest ih =>
      rw [List.foldl_cons, ih, getElem?_linkDependency, Option.map_map]
      congr 1
      funext card
      have hparents : ((if index = child.index then [first] else []) ++
          if index = child.index then rest else []) =
          if index = child.index then first :: rest else [] := by
        split <;> rfl
      have hchildren : ((if index = first.index then [child] else []) ++
          List.replicate (rest.countP (·.index == index)) child) =
          List.replicate ((first :: rest).countP (·.index == index)) child := by
        rw [List.countP_cons]
        by_cases h : index = first.index
        · subst h
          simp [List.replicate_succ]
        · simp [h, Ne.symm h]
      rw [Function.comp_apply, wire_wire, hparents, hchildren]

-- What the dependencies of all tasks add to the card at `index`.
theorem getElem?_foldl_linkTask (tasks : List PlannedTask) (cards : List Card) (index : Nat) :
    (tasks.foldl linkTask cards)[index]? =
      cards[index]?.map (wire
        (tasks.flatMap fun task => if index = task.id.index then task.dependencies else [])
        (tasks.flatMap fun task =>
          List.replicate (task.dependencies.countP (·.index == index)) task.id)) := by
  induction tasks generalizing cards with
  | nil =>
      have hwire : wire [] [] = id := funext wire_nil
      simp [hwire]
  | cons first rest ih =>
      rw [List.foldl_cons, ih, linkTask, getElem?_foldl_linkDependency, Option.map_map]
      congr 1
      funext card
      rw [Function.comp_apply, wire_wire]
      simp

-- In id order, only the task at `index` adds parents to the card there.
theorem flatMap_own_dependencies {tasks : List PlannedTask} {position : Nat}
    (hids : ∀ (i : Nat) (task : PlannedTask), tasks[i]? = some task → task.id.index = position + i)
    {index : Nat} {task : PlannedTask} (htask : tasks[index]? = some task) :
    (tasks.flatMap fun other => if position + index = other.id.index then other.dependencies else []) =
      task.dependencies := by
  induction tasks generalizing position index with
  | nil => simp at htask
  | cons first rest ih =>
      have hfirst : first.id.index = position := hids 0 first rfl
      have hrest (i : Nat) (other : PlannedTask) (h : rest[i]? = some other) :
          other.id.index = position + 1 + i := by
        have := hids (i + 1) other (by simpa using h)
        omega
      rw [List.flatMap_cons, hfirst]
      cases index with
      | zero =>
          have heq : first = task := by simpa using htask
          subst heq
          have hnone : (rest.flatMap fun other =>
              if position + 0 = other.id.index then other.dependencies else []) = [] := by
            rw [List.flatMap_eq_nil_iff]
            intro other hother
            obtain ⟨i, hi, rfl⟩ := List.mem_iff_getElem.mp hother
            have := hrest i _ (List.getElem?_eq_getElem hi)
            rw [if_neg (by omega)]
          rw [hnone]
          simp
      | succ index =>
          have hnext := ih hrest (by simpa using htask)
          rw [if_neg (by omega), List.nil_append, ← hnext]
          simp only [Nat.add_assoc, Nat.add_comm 1 index]

-- The entries that make a task a child of `parent`, in the order of the tasks.
def childEntries (parent : TaskId) (tasks : List PlannedTask) : List TaskId :=
  tasks.flatMap fun task => List.replicate (task.dependencies.count parent) task.id

def linkedCards (kind : JobKind) (tasks : List PlannedTask) : List Card :=
  if kind = .taskFlow then tasks.foldl linkTask (tasks.map Card.new) else tasks.map Card.new

theorem countP_index_eq_count {job : JobId} {dependencies : List TaskId}
    (h : ∀ dependency ∈ dependencies, dependency.job = job) (index : Nat) :
    dependencies.countP (·.index == index) = dependencies.count ⟨job, index⟩ := by
  rw [List.count_eq_countP]
  apply List.countP_congr
  intro dependency hdep
  have hjob := h dependency hdep
  cases dependency
  simp_all

theorem getElem?_linkedCards {job : JobId} {kind : JobKind} {tasks : List PlannedTask}
    (hplan : checkPlan job kind tasks.length 0 tasks = .ok ()) (index : Nat) :
    (linkedCards kind tasks)[index]? = tasks[index]?.map fun task =>
      if kind = .taskFlow then
        wire task.dependencies (childEntries ⟨job, index⟩ tasks) (Card.new task)
      else Card.new task := by
  unfold linkedCards
  by_cases hkind : kind = .taskFlow
  · simp only [hkind, if_true]
    rw [getElem?_foldl_linkTask, List.getElem?_map, Option.map_map]
    cases htask : tasks[index]? with
    | none => rfl
    | some task =>
        have hall := checkPlan_eq_ok_iff.mp hplan
        have hids (i : Nat) (other : PlannedTask) (h : tasks[i]? = some other) :
            other.id.index = 0 + i := by rw [(hall i other h).1]
        have hparents := flatMap_own_dependencies hids htask
        simp only [Nat.zero_add] at hparents
        have hchildren : (tasks.flatMap fun other =>
            List.replicate (other.dependencies.countP (·.index == index)) other.id) =
            childEntries ⟨job, index⟩ tasks := by
          simp only [childEntries, List.flatMap_def]
          congr 1
          apply List.map_congr_left
          intro other hother
          obtain ⟨i, hi, rfl⟩ := List.mem_iff_getElem.mp hother
          rw [countP_index_eq_count fun dependency hdep =>
            ((hall i _ (List.getElem?_eq_getElem hi)).2 hkind dependency hdep).1]
        simp [hparents, hchildren]
  · simp [hkind, List.getElem?_map]

theorem build_eq_ok_iff {job : JobId} {priority : Priority} {kind : JobKind}
    {tasks : List PlannedTask} {board : Board} :
    build job priority kind tasks = .ok board ↔
      checkPlan job kind tasks.length 0 tasks = .ok () ∧
      board =
        { job, priority, kind
          cards := (linkedCards kind tasks).map offer
          eligible :=
            SortedSet.ofList (((linkedCards kind tasks).filter (·.unmet == 0)).map (·.id))
          running := SortedMap.empty
          paused := SortedMap.empty
          done := 0
          failed := false } := by
  unfold build linkedCards
  cases checkPlan job kind tasks.length 0 tasks with
  | error fault => simp [bind, Except.bind]
  | ok value => simp [bind, Except.bind, pure, Except.pure, eq_comm]

theorem offer_fixed (card : Card) : (offer card).fixed = card.fixed := by
  unfold offer
  split <;> rfl

section Built

variable {job : JobId} {priority : Priority} {kind : JobKind} {tasks : List PlannedTask}
  {board : Board} (h : build job priority kind tasks = .ok board)
include h

theorem fixed_of_build (index : Nat) :
    board.cards[index]?.map Card.fixed = tasks[index]?.map fun task =>
      if kind = .taskFlow then
        (task, task.dependencies, childEntries ⟨job, index⟩ tasks)
      else (task, [], []) := by
  obtain ⟨hplan, rfl⟩ := build_eq_ok_iff.mp h
  simp only [List.getElem?_map, getElem?_linkedCards hplan, Option.map_map]
  congr 1
  funext task
  rw [Function.comp_apply, Function.comp_apply, offer_fixed]
  split <;> rfl

theorem size_of_build : board.size = tasks.length := by
  obtain ⟨hplan, rfl⟩ := build_eq_ok_iff.mp h
  have hlength : (linkedCards kind tasks).length = tasks.length := by
    have hnone (index : Nat) : (linkedCards kind tasks)[index]? = none ↔ tasks[index]? = none := by
      rw [getElem?_linkedCards hplan]
      simp
    have hlinked := hnone (linkedCards kind tasks).length
    have htasks := hnone tasks.length
    simp only [List.getElem?_eq_none_iff] at hlinked htasks
    omega
  simpa [size] using hlength

theorem map_task_of_build : board.cards.map Card.task = tasks := by
  apply List.ext_getElem?
  intro index
  have hfixed := congrArg (Option.map Prod.fst) (fixed_of_build h index)
  simp only [Option.map_map] at hfixed
  rw [List.getElem?_map]
  refine Eq.trans (hfixed : Option.map (Prod.fst ∘ Card.fixed) board.cards[index]? = _) ?_
  cases tasks[index]? with
  | none => rfl
  | some task => by_cases hkind : kind = .taskFlow <;> simp [hkind]

theorem job_of_build : board.job = job := by
  rw [(build_eq_ok_iff.mp h).2]

theorem kind_of_build : board.kind = kind := by
  rw [(build_eq_ok_iff.mp h).2]

theorem priority_of_build : board.priority = priority := by
  rw [(build_eq_ok_iff.mp h).2]

theorem card_of_build {index : Nat} {card : Card} (hcard : board.cards[index]? = some card) :
    ∃ task, tasks[index]? = some task ∧ card.task = task ∧
      card.parents = (if kind = .taskFlow then task.dependencies else []) ∧
      card.children = if kind = .taskFlow then childEntries ⟨job, index⟩ tasks else [] := by
  have hfixed := fixed_of_build h index
  rw [hcard] at hfixed
  cases htask : tasks[index]? with
  | none => simp [htask] at hfixed
  | some task =>
      refine ⟨task, rfl, ?_⟩
      by_cases hkind : kind = .taskFlow <;> simpa [htask, hkind, Card.fixed] using hfixed

theorem id_of_build {index : Nat} {card : Card} (hcard : board.cards[index]? = some card) :
    card.id = ⟨board.job, index⟩ := by
  obtain ⟨task, htask, heq, -⟩ := card_of_build h hcard
  have hall := checkPlan_eq_ok_iff.mp (build_eq_ok_iff.mp h).1
  rw [Card.id, heq, (hall index task htask).1, job_of_build h, Nat.zero_add]

-- Each card contributes to the children of a task what its own task does.
theorem entries_of_build (parent : TaskId) :
    board.cards.map (fun child => List.replicate (child.parents.count parent) child.id) =
      tasks.map fun task =>
        if kind = .taskFlow then List.replicate (task.dependencies.count parent) task.id else [] := by
  apply List.ext_getElem?
  intro index
  rw [List.getElem?_map, List.getElem?_map]
  cases hcard : board.cards[index]? with
  | none =>
      have hlength := List.getElem?_eq_none_iff.mp hcard
      rw [show board.cards.length = tasks.length from size_of_build h] at hlength
      rw [List.getElem?_eq_none hlength]
      rfl
  | some child =>
      obtain ⟨task, htask, heq, hparents, -⟩ := card_of_build h hcard
      rw [htask, Option.map_some, Option.map_some, hparents, Card.id, heq]
      split <;> simp

theorem wired_of_build : board.Wired := by
  have hall := checkPlan_eq_ok_iff.mp (build_eq_ok_iff.mp h).1
  constructor
  · exact fun _ _ hcard => id_of_build h hcard
  · intro card hmem
    obtain ⟨index, hindex, rfl⟩ := List.mem_iff_getElem.mp hmem
    obtain ⟨task, -, heq, hparents, -⟩ := card_of_build h (List.getElem?_eq_getElem hindex)
    rw [hparents, kind_of_build h, heq]
  · intro card hmem parent hparent
    obtain ⟨index, hindex, rfl⟩ := List.mem_iff_getElem.mp hmem
    obtain ⟨task, htask, -, hparents, -⟩ := card_of_build h (List.getElem?_eq_getElem hindex)
    rw [hparents] at hparent
    by_cases hkind : kind = .taskFlow
    · rw [if_pos hkind] at hparent
      rw [job_of_build h, size_of_build h]
      exact (hall index task htask).2 hkind parent hparent
    · simp [hkind] at hparent
  · intro card hmem
    obtain ⟨index, hindex, rfl⟩ := List.mem_iff_getElem.mp hmem
    have hcard := List.getElem?_eq_getElem hindex
    obtain ⟨task, htask, -, -, hchildren⟩ := card_of_build h hcard
    rw [id_of_build h hcard, job_of_build h, hchildren, List.flatMap_def, entries_of_build h]
    split
    · simp only [childEntries, List.flatMap_def]
    · simp

end Built

end JobScheduler.Board
