import JobScheduler.Proofs.Job.Sound
import JobScheduler.Proofs.Submission.Acyclic

namespace JobScheduler

theorem Board.Sound.isComplete_iff {board : Board} (hb : board.Sound) :
    board.isComplete ↔ ∀ card ∈ board.cards, card.place = .done := by
  rw [isComplete, hb.partitioned.done_eq, beq_iff_eq, countAt_eq_size_iff]

theorem Board.Sound.not_isComplete_iff {board : Board} (hb : board.Sound) :
    ¬board.isComplete ↔ ∃ task place, board.placeOf task = .ok place ∧ place ≠ .done := by
  rw [hb.isComplete_iff]
  constructor
  · intro h
    simp only [not_forall] at h
    obtain ⟨card, hcard, hplace⟩ := h
    exact ⟨card.id, card.place, placeOf_of_card (hb.wired.card_id_of_mem hcard), hplace⟩
  · rintro ⟨task, place, hplace, hne⟩ hall
    obtain ⟨card, hcard, rfl⟩ := placeOf_eq_ok_iff.mp hplace
    exact hne (hall card (Wired.mem_of_card hcard))

-- Where nothing is left to do, nothing runs.
theorem Board.Sound.running_of_isComplete {board : Board} (hb : board.Sound) (h : board.isComplete) :
    board.running.toList = [] := by
  refine List.eq_nil_iff_forall_not_mem.mpr fun id hmem => ?_
  obtain ⟨card, hcard, hrunning⟩ := placeOf_eq_ok_iff.mp (hb.partitioned.mem_running_iff.mp hmem)
  rw [hb.isComplete_iff.mp h card (Wired.mem_of_card hcard)] at hrunning
  cases hrunning

namespace LiveJob

variable {job : LiveJob} (hs : job.Sound)
include hs

-- A card holds what was submitted for its task.
theorem Sound.planned {card : Card} (hcard : card ∈ job.board.cards) :
    ∃ task, job.submission.tasks[card.id.index]? = some task ∧
      card.task = .new card.id task.name task.cmd task.resources task.precious task.maxExecutions
        (job.submission.dependencyIds job.id task) := by
  obtain ⟨hjob, hindex⟩ := Board.card_eq_ok_iff.mp (hs.board.wired.card_id_of_mem hcard)
  have hplan := Submission.getElem?_of_resolve hs.resolved card.id.index
  rw [List.getElem?_map, hindex, Option.map_some, eq_comm, Option.map_eq_some_iff] at hplan
  obtain ⟨task, htask, hcardTask⟩ := hplan
  have hid : (⟨job.id, card.id.index⟩ : TaskId) = card.id := TaskId.eq_of_index_eq hjob.symm rfl
  exact ⟨task, htask, by rw [← hcardTask, hid]⟩

-- Every task that was submitted has a card.
theorem Sound.exists_card {id : TaskId} (hjob : id.job = job.id) {task : Submission.Task}
    (h : job.submission.tasks[id.index]? = some task) : ∃ card, job.board.card id = .ok card := by
  have hplan := Submission.getElem?_of_resolve hs.resolved id.index
  rw [List.getElem?_map, h, Option.map_some, Option.map_eq_some_iff] at hplan
  obtain ⟨card, hcard, -⟩ := hplan
  exact ⟨card, Board.card_eq_ok_iff.mpr ⟨hjob, hcard⟩⟩

-- No task comes for nothing.
theorem Sound.resources_pos {card : Card} (hcard : card ∈ job.board.cards) : 0 < card.resources := by
  obtain ⟨task, -, htask⟩ := hs.planned hcard
  rw [Card.resources, htask]
  exact Nat.lt_of_lt_of_le Nat.zero_lt_one (Nat.le_max_right _ _)

-- Every task may be executed.
theorem Sound.maxExecutions_pos {card : Card} (hcard : card ∈ job.board.cards) :
    0 < card.task.maxExecutions := by
  obtain ⟨task, -, htask⟩ := hs.planned hcard
  rw [htask]
  exact Nat.lt_of_lt_of_le Nat.zero_lt_one (Nat.le_max_right _ _)

-- The links of a job go round in no circle.
theorem Sound.exists_rank :
    ∃ rank : String → Nat, ∀ card ∈ job.board.cards, ∀ parent ∈ card.parents, ∀ other,
      job.board.card parent = .ok other → rank other.name < rank card.name := by
  obtain ⟨rank, hrank⟩ := Submission.exists_rank_of_resolve hs.resolved
  refine ⟨rank, fun card hcard parent hparent other hother => ?_⟩
  obtain ⟨task, htask, hplanned⟩ := hs.planned hcard
  obtain ⟨task', htask', hplanned'⟩ := hs.planned (Board.Wired.mem_of_card hother)
  have hdependency : parent ∈ job.submission.dependencyIds job.id task := by
    rw [hs.board.wired.parents card hcard] at hparent
    split at hparent
    · rwa [hplanned] at hparent
    · cases hparent
  obtain ⟨name, hname, hposition⟩ := List.mem_filterMap.mp hdependency
  obtain ⟨index, hindex, rfl⟩ := Option.map_eq_some_iff.mp hposition
  obtain ⟨hlt, hfound, -⟩ := List.findIdx?_eq_some_iff_getElem.mp hindex
  have hother' : task'.name = name := by
    rw [hs.board.wired.id_of_card hother] at htask'
    obtain ⟨_, heq⟩ := List.getElem?_eq_some_iff.mp htask'
    rw [← heq]
    exact beq_iff_eq.mp hfound
  have hsmaller := hrank task (List.mem_of_getElem? htask) name hname
  rw [Card.name, Card.name, hplanned, hplanned']
  change rank task'.name < rank task.name
  rwa [hother']

-- Where nothing can move, nothing is left to do: a blocked task of the lowest rank would
-- wait for nobody.
theorem Sound.done_of_idle
    (hidle : ∀ card ∈ job.board.cards, card.place = .blocked ∨ card.place = .done) :
    ∀ card ∈ job.board.cards, card.place = .done := by
  obtain ⟨rank, hrank⟩ := hs.exists_rank
  suffices hall : ∀ height, ∀ card ∈ job.board.cards, rank card.name = height → card.place = .done from
    fun card hcard => hall (rank card.name) card hcard rfl
  intro height
  induction height using Nat.strongRecOn with
  | ind height ih =>
      rintro card hcard rfl
      refine (hidle card hcard).resolve_left fun hblocked => ?_
      have hok := hs.board.wired.card_id_of_mem hcard
      obtain ⟨parent, hparent, hunfinished⟩ :=
        hs.board.exists_unfinished_parent hs.goesOn hok hblocked
      obtain ⟨other, hother⟩ := hs.board.wired.card_of_parent hcard hparent
      have hdone := ih (rank other.name) (hrank card hcard parent hparent other hother) other
        (Board.Wired.mem_of_card hother) rfl
      rw [Board.unfinished_of_placeOf (Board.placeOf_of_card hother), hdone] at hunfinished
      cases hunfinished

-- A job that goes on has a task to start, a running one or one that a client holds.
theorem Sound.exists_paused (hopen : ¬job.board.isComplete) (heligible : job.board.eligible.toList = [])
    (hrunning : job.board.running.toList = []) : job.board.paused.toList ≠ [] := by
  intro hpaused
  refine hopen (hs.board.isComplete_iff.mpr (hs.done_of_idle ?_))
  intro card hcard
  have hplace := Board.placeOf_of_card (hs.board.wired.card_id_of_mem hcard)
  have hnot {partition : SortedSet TaskId} {place : Place} (hempty : partition.toList = [])
      (hmem : card.id ∈ partition.toList ↔ job.board.placeOf card.id = .ok place) :
      card.place ≠ place := by
    rintro rfl
    have hin := hmem.mpr hplace
    rw [hempty] at hin
    cases hin
  have he := hnot heligible hs.board.partitioned.mem_eligible_iff
  have hr := hnot hrunning hs.board.partitioned.mem_running_iff
  have hp := hnot hpaused hs.board.partitioned.mem_paused_iff
  cases hcase : card.place <;> simp_all

end LiveJob

end JobScheduler
