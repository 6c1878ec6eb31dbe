import JobScheduler.Proofs.Board.Building
import JobScheduler.Proofs.Submission.Resolve

namespace JobScheduler

namespace Submission

theorem checkPlan_plan (submission : Submission) (job : JobId) :
    Board.checkPlan job submission.kind (submission.plan job).length 0 (submission.plan job) = .ok () := by
  refine Board.checkPlan_eq_ok_iff.mpr fun index planned hplanned => ?_
  rw [plan, List.getElem?_mapIdx, Option.map_eq_some_iff] at hplanned
  obtain ⟨task, -, rfl⟩ := hplanned
  refine ⟨by rw [Nat.zero_add]; rfl, fun _ dependency hdependency => ?_⟩
  obtain ⟨name, -, hposition⟩ := List.mem_filterMap.mp hdependency
  obtain ⟨position, hfound, rfl⟩ := Option.map_eq_some_iff.mp hposition
  obtain ⟨hlt, -⟩ := List.findIdx?_eq_some_iff_getElem.mp hfound
  exact ⟨rfl, by rwa [plan, List.length_mapIdx]⟩

-- What is resolved can be built.
theorem exists_build_of_resolve {submission : Submission} {job : JobId} {tasks : List PlannedTask}
    (h : submission.resolve job = .ok tasks) (priority : Priority) :
    ∃ board, Board.build job priority submission.kind tasks = .ok board := by
  obtain ⟨-, -, rfl⟩ := checkTasks_of_resolve h
  exact ⟨_, Board.build_eq_ok_iff.mpr ⟨submission.checkPlan_plan job, rfl⟩⟩

end Submission

namespace Board

-- The tasks of a board and the links between them are those of a submission.
structure LaysOut (board : Board) (submission : Submission) : Prop where
  wired : board.Wired
  kind : board.kind = submission.kind
  resolved : submission.resolve board.job = .ok (board.cards.map Card.task)

namespace LaysOut

variable {board : Board} {submission : Submission} (h : board.LaysOut submission)
include h

theorem congr {board' : Board} (hsame : board.SameTasks board') : board'.LaysOut submission where
  wired := h.wired.congr hsame
  kind := hsame.kind.trans h.kind
  resolved := by rw [hsame.job, h.resolved, hsame.map_task]

theorem size : board.size = submission.tasks.length := by
  have hplan := congrArg List.length (Submission.checkTasks_of_resolve h.resolved).2.2
  simpa [Board.size, Submission.plan] using hplan

-- What was declared for a task is on the card with its index.
theorem card_of_task {index : Nat} {task : Submission.Task}
    (htask : submission.tasks[index]? = some task) :
    ∃ card, board.card ⟨board.job, index⟩ = .ok card ∧
      card.task = .new ⟨board.job, index⟩ task.name task.cmd task.resources task.precious
        task.maxExecutions (submission.dependencyIds board.job task) := by
  have hplan := Submission.getElem?_of_resolve h.resolved index
  rw [htask, Option.map_some, List.getElem?_map, Option.map_eq_some_iff] at hplan
  obtain ⟨card, hcard, hplanned⟩ := hplan
  exact ⟨card, card_eq_ok_iff.mpr ⟨rfl, hcard⟩, hplanned⟩

theorem task_of_card {id : TaskId} {card : Card} (hcard : board.card id = .ok card) :
    ∃ task, submission.tasks[id.index]? = some task ∧ card.name = task.name := by
  have hindex := (card_eq_ok_iff.mp hcard).2
  have hplan := Submission.getElem?_of_resolve h.resolved id.index
  rw [List.getElem?_map, hindex, Option.map_some, eq_comm, Option.map_eq_some_iff] at hplan
  obtain ⟨task, htask, hplanned⟩ := hplan
  exact ⟨task, htask, by rw [Card.name, ← hplanned]; rfl⟩

theorem task_of_placeOf {id : TaskId} {place : Place} (hplace : board.placeOf id = .ok place) :
    ∃ task, submission.tasks[id.index]? = some task := by
  obtain ⟨card, hcard, -⟩ := placeOf_eq_ok_iff.mp hplace
  obtain ⟨task, htask, -⟩ := h.task_of_card hcard
  exact ⟨task, htask⟩

-- The links of a card follow what its task was declared to come after, also where the kind
-- of the job allows for no links: there nothing was declared.
theorem parents_eq {index : Nat} {task : Submission.Task} {card : Card}
    (htask : submission.tasks[index]? = some task) (hcard : board.card ⟨board.job, index⟩ = .ok card) :
    card.parents = submission.dependencyIds board.job task := by
  obtain ⟨card', hcard', hplanned⟩ := h.card_of_task htask
  rw [hcard, Except.ok.injEq] at hcard'
  subst hcard'
  rw [h.wired.parents card (Wired.mem_of_card hcard), hplanned]
  split
  · rfl
  · rename_i hkind
    have hsingle : submission.kind = .singleTask := by
      rw [← h.kind]
      cases hcase : board.kind with
      | taskFlow => exact absurd hcase hkind
      | singleTask => rfl
    have hnone := Submission.after_of_singleTask h.resolved hsingle (List.mem_of_getElem? htask)
    simp [Submission.dependencyIds, hnone]

theorem mem_parents_iff {index : Nat} {task : Submission.Task} {card : Card}
    (htask : submission.tasks[index]? = some task) (hcard : board.card ⟨board.job, index⟩ = .ok card)
    {parent : TaskId} :
    parent ∈ card.parents ↔ ∃ other, submission.tasks[parent.index]? = some other ∧
      parent.job = board.job ∧ other.name ∈ task.after := by
  rw [h.parents_eq htask hcard, Submission.dependencyIds, List.mem_filterMap]
  constructor
  · rintro ⟨name, hname, hposition⟩
    obtain ⟨other, hother, rfl⟩ := Submission.declared_of_after h.resolved
      (List.mem_of_getElem? htask) hname
    obtain ⟨position, hposition', rfl⟩ := Option.map_eq_some_iff.mp hposition
    obtain ⟨place, hplace⟩ := List.mem_iff_getElem?.mp hother
    rw [Submission.position?_of_getElem? h.resolved hplace, Option.some.injEq] at hposition'
    subst hposition'
    exact ⟨other, hplace, rfl, hname⟩
  · rintro ⟨other, hother, hjob, hname⟩
    refine ⟨other.name, hname, ?_⟩
    rw [Submission.position?_of_getElem? h.resolved hother, Option.map_some, ← hjob]

-- What every card has of its task, the cards have of the tasks in their order.
theorem map_cards_eq {α : Type} {ofCard : Card → α} {ofTask : Submission.Task → α}
    (hagree : ∀ (index : Nat) (task : Submission.Task) (card : Card), submission.tasks[index]? = some task →
      board.card ⟨board.job, index⟩ = .ok card → ofCard card = ofTask task) :
    board.cards.map ofCard = submission.tasks.map ofTask := by
  apply List.ext_getElem?
  intro index
  rw [List.getElem?_map, List.getElem?_map]
  cases htask : submission.tasks[index]? with
  | none =>
      have hlength := List.getElem?_eq_none_iff.mp htask
      rw [← h.size] at hlength
      rw [List.getElem?_eq_none hlength]
      rfl
  | some task =>
      obtain ⟨card, hcard, -⟩ := h.card_of_task htask
      rw [(card_eq_ok_iff.mp hcard).2, Option.map_some, Option.map_some, hagree index task card htask hcard]

theorem name_eq {index : Nat} {task : Submission.Task} {card : Card}
    (htask : submission.tasks[index]? = some task) (hcard : board.card ⟨board.job, index⟩ = .ok card) :
    card.name = task.name := by
  obtain ⟨other, hother, hname⟩ := h.task_of_card hcard
  rw [htask, Option.some.injEq] at hother
  rw [hname, hother]

-- The cards have the names that were submitted.
theorem map_name_cards : board.cards.map Card.name = submission.tasks.map (·.name) :=
  h.map_cards_eq fun _ _ _ => h.name_eq

-- Tasks of one name have one id.
theorem beq_id_eq_beq_name {a b : Nat} {task other : Submission.Task}
    (ha : submission.tasks[a]? = some task) (hb : submission.tasks[b]? = some other) :
    ((⟨board.job, a⟩ : TaskId) == ⟨board.job, b⟩) = (task.name == other.name) := by
  rw [Bool.eq_iff_iff, beq_iff_eq, beq_iff_eq]
  constructor
  · intro heq
    cases heq
    rw [ha, Option.some.injEq] at hb
    rw [hb]
  · intro hname
    rw [Submission.eq_of_name_eq h.resolved ha hb hname]

section Counts

-- A property of tasks, told by their ids and by their names.
variable {holds : TaskId → Bool} {holdsFor : String → Bool}
  (hagree : ∀ (index : Nat) (task : Submission.Task), submission.tasks[index]? = some task →
    holds ⟨board.job, index⟩ = holdsFor task.name)
include hagree

theorem countP_parents {index : Nat} {task : Submission.Task} {card : Card}
    (htask : submission.tasks[index]? = some task) (hcard : board.card ⟨board.job, index⟩ = .ok card) :
    card.parents.countP holds = task.after.countP holdsFor := by
  rw [h.parents_eq htask hcard, Submission.dependencyIds, List.countP_filterMap]
  apply List.countP_congr
  intro name hname
  obtain ⟨other, hother, rfl⟩ := Submission.declared_of_after h.resolved
    (List.mem_of_getElem? htask) hname
  obtain ⟨position, hposition⟩ := List.mem_iff_getElem?.mp hother
  rw [Submission.position?_of_getElem? h.resolved hposition]
  simp [hagree position other hposition]

omit hagree in
-- A task is among the parents of another as often as that was declared to come after it.
theorem count_parents {index position : Nat} {task child : Submission.Task} {card : Card}
    (htask : submission.tasks[index]? = some task) (hchild : submission.tasks[position]? = some child)
    (hcard : board.card ⟨board.job, position⟩ = .ok card) :
    card.parents.count ⟨board.job, index⟩ = child.after.count task.name := by
  have hsame (other : Nat) (declared : Submission.Task) (hdeclared : submission.tasks[other]? = some declared) :
      (· == (⟨board.job, index⟩ : TaskId)) ⟨board.job, other⟩ = (· == task.name) declared.name :=
    h.beq_id_eq_beq_name hdeclared htask
  exact h.countP_parents hsame hchild hcard

-- A task is among the children of another as often as it was declared to come after it.
theorem countP_children {index : Nat} {task : Submission.Task} {card : Card}
    (htask : submission.tasks[index]? = some task) (hcard : board.card ⟨board.job, index⟩ = .ok card) :
    card.children.countP holds =
      ((submission.tasks.filter (holdsFor ·.name)).map (·.after.count task.name)).sum := by
  rw [h.wired.children card (Wired.mem_of_card hcard), List.countP_flatMap, h.wired.id_of_card hcard]
  have hentries : board.cards.map (fun child => (List.replicate
        (child.parents.count ⟨board.job, index⟩) child.id).countP holds) =
      submission.tasks.map fun child =>
        if holdsFor child.name then child.after.count task.name else 0 := by
    refine h.map_cards_eq fun position child childCard hchild hchildCard => ?_
    rw [List.countP_replicate, h.wired.id_of_card hchildCard, hagree position child hchild,
      h.count_parents htask hchild hchildCard]
  rw [Function.comp_def, hentries]
  induction submission.tasks with
  | nil => rfl
  | cons first rest ih => by_cases hfirst : holdsFor first.name <;> simp [hfirst, ih]

end Counts

end LaysOut

end Board

end JobScheduler
