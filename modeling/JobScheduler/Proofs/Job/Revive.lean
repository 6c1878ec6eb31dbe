import JobScheduler.Proofs.Board.Replay
import JobScheduler.Proofs.Job.Hold
import JobScheduler.Proofs.Job.Sound
import JobScheduler.Scheduler.Recovery

namespace JobScheduler.PersistedJob

-- Where a rebuilt task stands once its worker is known to be gone.
def backFrom (persisted : PersistedJob) (place : Place) : Place :=
  if place = .running then (if persisted.status = .paused then .paused else .eligible) else place

theorem putBack_eq_ok {persisted : PersistedJob} {board board' : Board} {task : TaskId}
    (hb : board.Sound) (h : persisted.putBack board task = .ok board') :
    board'.Sound ∧ board.SameTasks board' ∧ board'.failed = board.failed ∧
      board.placeOf task = .ok .running ∧ ∀ other, board'.placeOf other =
        if other = task then .ok (persisted.backFrom .running) else board.placeOf other := by
  unfold putBack at h
  obtain ⟨mid, hrestart, h⟩ := bind_eq_ok_iff.mp h
  obtain ⟨hrunning, rfl⟩ := Board.move_eq_ok_iff.mp hrestart
  have hmid := hb.relocate hrunning rfl (show Place.eligible.isPartition from rfl)
  by_cases hpaused : persisted.status = .paused
  · rw [if_pos hpaused] at h
    obtain ⟨heligible, rfl⟩ := Board.move_eq_ok_iff.mp h
    refine ⟨hmid.relocate heligible rfl rfl, (Board.SameTasks.relocate _ _ _ _).trans
      (.relocate _ _ _ _), by simp, hrunning, fun other => ?_⟩
    rw [Board.placeOf_relocate .paused heligible, Board.placeOf_relocate .eligible hrunning]
    by_cases heq : other = task <;> simp [heq, backFrom, hpaused]
  · rw [if_neg hpaused] at h
    cases h
    refine ⟨hmid, .relocate _ _ _ _, by simp, hrunning, fun other => ?_⟩
    rw [Board.placeOf_relocate .eligible hrunning]
    by_cases heq : other = task <;> simp [heq, backFrom, hpaused]

theorem exists_putBack (persisted : PersistedJob) {board : Board} {task : TaskId}
    (h : board.placeOf task = .ok .running) : ∃ board', persisted.putBack board task = .ok board' := by
  have hrestart : board.restart task = .ok (board.relocate task .running .eligible) :=
    Board.move_of_placeOf .eligible h
  have heligible := (Board.placeOf_relocate .eligible h task).trans (if_pos rfl)
  unfold putBack
  rw [hrestart]
  by_cases hpaused : persisted.status = .paused
  · exact ⟨_, (if_pos hpaused).trans (Board.move_of_placeOf .paused heligible)⟩
  · exact ⟨_, if_neg hpaused⟩

theorem exists_foldlM_putBack (persisted : PersistedJob) {board : Board} (hb : board.Sound)
    {tasks : List TaskId} (hnodup : tasks.Nodup)
    (h : ∀ task ∈ tasks, board.placeOf task = .ok .running) :
    ∃ board', tasks.foldlM persisted.putBack board = .ok board' := by
  induction tasks generalizing board with
  | nil => exact ⟨board, rfl⟩
  | cons first rest ih =>
      obtain ⟨hfirst, hrest⟩ := List.forall_mem_cons.mp h
      obtain ⟨hfresh, hnodup⟩ := List.nodup_cons.mp hnodup
      obtain ⟨mid, hmid⟩ := persisted.exists_putBack hfirst
      obtain ⟨hsound, -, -, -, hplace⟩ := putBack_eq_ok hb hmid
      obtain ⟨board', hboard'⟩ := ih hsound hnodup fun task htask => by
        have hne : task ≠ first := fun heq => hfresh (heq ▸ htask)
        rw [hplace, if_neg hne]
        exact hrest task htask
      exact ⟨board', by rw [List.foldlM_cons]; exact bind_eq_ok_iff.mpr ⟨mid, hmid, hboard'⟩⟩

theorem foldlM_putBack_eq_ok {persisted : PersistedJob} {board board' : Board} {tasks : List TaskId}
    (hb : board.Sound) (h : tasks.foldlM persisted.putBack board = .ok board') :
    board'.Sound ∧ board.SameTasks board' ∧ board'.failed = board.failed ∧
      ∀ id, board'.placeOf id =
        if id ∈ tasks then .ok (persisted.backFrom .running) else board.placeOf id := by
  induction tasks generalizing board with
  | nil =>
      cases h
      exact ⟨hb, .refl _, rfl, fun id => by simp⟩
  | cons first rest ih =>
      rw [List.foldlM_cons] at h
      obtain ⟨mid, hfirst, hrest⟩ := bind_eq_ok_iff.mp h
      obtain ⟨hmid, hsame, hfailed, -, hplace⟩ := putBack_eq_ok hb hfirst
      obtain ⟨hsound, hsame', hfailed', hplace'⟩ := ih hmid hrest
      refine ⟨hsound, hsame.trans hsame', hfailed'.trans hfailed, fun id => ?_⟩
      rw [hplace', hplace]
      by_cases hmem : id ∈ rest <;> by_cases heq : id = first <;> simp [hmem, heq]

-- What is the same wherever a task stands is the same once tasks are put back.
theorem keeps_foldlM_putBack {α : Type} (view : Board → α)
    (hkeeps : ∀ (board : Board) (id : TaskId) (source target : Place),
      view (board.relocate id source target) = view board)
    {persisted : PersistedJob} {board board' : Board} {tasks : List TaskId}
    (h : tasks.foldlM persisted.putBack board = .ok board') : view board' = view board := by
  induction tasks generalizing board with
  | nil =>
      cases h
      rfl
  | cons first rest ih =>
      rw [List.foldlM_cons] at h
      obtain ⟨mid, hfirst, hrest⟩ := bind_eq_ok_iff.mp h
      refine (ih hrest).trans ?_
      unfold putBack at hfirst
      obtain ⟨free, hrestart, hfirst⟩ := bind_eq_ok_iff.mp hfirst
      obtain ⟨-, rfl⟩ := Board.move_eq_ok_iff.mp hrestart
      split at hfirst
      · obtain ⟨-, rfl⟩ := Board.move_eq_ok_iff.mp hfirst
        rw [hkeeps, hkeeps]
      · cases hfirst
        exact hkeeps _ _ _ _

-- All running tasks are put back, and the others stay where they are.
theorem placeOf_putBack {persisted : PersistedJob} {board board' : Board} (hb : board.Sound)
    (h : board.running.toList.foldlM persisted.putBack board = .ok board') (id : TaskId) :
    board'.placeOf id = (board.placeOf id).map persisted.backFrom := by
  obtain ⟨-, -, -, hplace⟩ := foldlM_putBack_eq_ok hb h
  have hmem : id ∈ board.running.toList ↔ _ := hb.partitioned.mem_running_iff
  rw [hplace]
  cases hold : board.placeOf id with
  | error fault => simp [hmem, hold, Except.map]
  | ok place =>
      by_cases hrunning : place = .running <;> simp [hmem, hold, hrunning, Except.map, backFrom]

-- What is shown of a task that was put back.
def backStatus (persisted : PersistedJob) (status : TaskStatus) : TaskStatus :=
  if status = .running then persisted.waiting else status

theorem statusOf_eq (persisted : PersistedJob) (declared : Submission.Task) :
    persisted.statusOf declared.name =
      persisted.backStatus (Board.statusIn persisted.statuses declared) := by
  unfold statusOf Board.statusIn backStatus
  cases (persisted.statuses.find? declared.name).getD .submitted <;> rfl

theorem admits_of_restores {persisted : PersistedJob} {status : TaskStatus} {place : Place}
    (h : Place.restores status place) :
    (persisted.backFrom place).admits (persisted.backStatus status) := by
  by_cases hpaused : persisted.status = .paused <;> cases status <;> cases place <;>
    simp_all [Place.restores, backFrom, backStatus, waiting, Place.admits, TaskStatus.isTerminated]

-- The revived job before the tasks of a paused one are held back.
def restored (persisted : PersistedJob) (board : Board) : LiveJob :=
  { LiveJob.ofBoard persisted.submission board with
    status := persisted.status
    results := board.cards.foldl persisted.addResult
      (LiveJob.ofBoard persisted.submission board).results
    statuses := board.cards.map fun card => persisted.statusOf card.name
    executions := board.cards.map fun card => (persisted.executions.find? card.name).getD 0 }

theorem revive_eq_ok_iff {persisted : PersistedJob} {job : LiveJob} : persisted.revive = .ok job ↔
    ∃ rebuilt board, Board.rebuild persisted.id persisted.submission persisted.statuses = .ok rebuilt ∧
      rebuilt.running.toList.foldlM persisted.putBack rebuilt = .ok board ∧
      job = if persisted.status = .paused then (persisted.restored board).pausePending.1
        else persisted.restored board := by
  unfold revive
  constructor
  · intro h
    obtain ⟨rebuilt, hrebuild, h⟩ := bind_eq_ok_iff.mp h
    obtain ⟨board, hback, h⟩ := bind_eq_ok_iff.mp h
    exact ⟨rebuilt, board, hrebuild, hback, (Except.ok.inj h).symm⟩
  · rintro ⟨rebuilt, board, hrebuild, hback, rfl⟩
    exact bind_eq_ok_iff.mpr ⟨rebuilt, hrebuild, bind_eq_ok_iff.mpr ⟨board, hback, rfl⟩⟩

section Restored

variable {persisted : PersistedJob} {rebuilt board : Board}
  (hrebuild : Board.rebuild persisted.id persisted.submission persisted.statuses = .ok rebuilt)
  (hback : rebuilt.running.toList.foldlM persisted.putBack rebuilt = .ok board)
include hrebuild hback

theorem not_running_of_revive (id : TaskId) : board.placeOf id ≠ .ok .running := by
  rw [placeOf_putBack (Board.rebuilt_of_rebuild hrebuild).sound hback]
  cases rebuilt.placeOf id with
  | error fault => simp [Except.map]
  | ok place =>
      by_cases hrunning : place = .running <;> by_cases hpaused : persisted.status = .paused <;>
        simp [Except.map, backFrom, hrunning, hpaused]

theorem resolve_restored : persisted.submission.resolve board.job = .ok (board.cards.map Card.task) := by
  have hrebuilt := Board.rebuilt_of_rebuild hrebuild
  obtain ⟨-, hsame, -⟩ := foldlM_putBack_eq_ok hrebuilt.sound hback
  rw [hsame.job, hrebuilt.job, hsame.map_task]
  exact hrebuilt.resolved

-- What holds of every task where it was put back holds of the restored job.
theorem agrees_restored {relation : Place → TaskStatus → Prop}
    (hall : ∀ declared ∈ persisted.submission.tasks, ∀ place,
      Place.restores (Board.statusIn persisted.statuses declared) place →
        relation (persisted.backFrom place)
          (persisted.backStatus (Board.statusIn persisted.statuses declared))) :
    (persisted.restored board).Agrees relation := by
  have hrebuilt := Board.rebuilt_of_rebuild hrebuild
  intro id place hplace
  have hplace' : board.placeOf id = .ok place := hplace
  rw [placeOf_putBack hrebuilt.sound hback] at hplace'
  cases hold : rebuilt.placeOf id with
  | error fault =>
      rw [hold] at hplace'
      cases hplace'
  | ok source =>
      rw [hold] at hplace'
      cases hplace'
      obtain ⟨declared, hdeclared, hrestores⟩ := hrebuilt.place id source hold
      obtain ⟨card, hcard, -⟩ := Board.placeOf_eq_ok_iff.mp hplace
      have hindex := (Board.card_eq_ok_iff.mp hcard).2
      have hname : card.name = declared.name := by
        have hplanned := Submission.getElem?_of_resolve (resolve_restored hrebuild hback) id.index
        rw [List.getElem?_map, show board.cards[id.index]? = some card from hindex, hdeclared] at hplanned
        have htask := Option.some.inj hplanned
        rw [Card.name, htask]
        rfl
      refine ⟨_, ?_, hall declared (List.mem_of_getElem? hdeclared) source hrestores⟩
      rw [← statusOf_eq, ← hname, LiveJob.statusOf?, restored, List.getElem?_map,
        show board.cards[id.index]? = some card from hindex]
      rfl

theorem sound_restored : (persisted.restored board).Sound := by
  have hrebuilt := Board.rebuilt_of_rebuild hrebuild
  obtain ⟨hb, hsame, hfailed, -⟩ := foldlM_putBack_eq_ok hrebuilt.sound hback
  exact ⟨hb, hfailed.trans hrebuilt.failed, resolve_restored hrebuild hback,
    hsame.kind.trans hrebuilt.kind, by simp [restored, Board.size, LiveJob.ofBoard],
    agrees_restored hrebuild hback fun _ _ _ hrestores => admits_of_restores hrestores⟩

theorem statuses_restored_eq : (persisted.restored board).statuses =
    persisted.submission.tasks.map fun declared =>
      persisted.backStatus (Board.statusIn persisted.statuses declared) := by
  have hnames := LiveJob.map_name_cards (sound_restored hrebuild hback)
  have hcards : (persisted.restored board).statuses =
      (board.cards.map Card.name).map persisted.statusOf := by
    rw [List.map_map]
    rfl
  rw [hcards, show board.cards.map Card.name = _ from hnames, List.map_map]
  exact List.map_congr_left fun declared _ => persisted.statusOf_eq declared

end Restored

-- A revived job is sound and has no running tasks.
theorem sound_of_revive {persisted : PersistedJob} {job : LiveJob} (h : persisted.revive = .ok job) :
    job.Sound ∧ job.board.load = 0 ∧ job.id = persisted.id := by
  obtain ⟨rebuilt, board, hrebuild, hback, rfl⟩ := revive_eq_ok_iff.mp h
  have hrestored := sound_restored hrebuild hback
  have hrebuilt := Board.rebuilt_of_rebuild hrebuild
  obtain ⟨hb, hsame, -⟩ := foldlM_putBack_eq_ok hrebuilt.sound hback
  have hload : board.load = 0 := Board.load_eq_zero hb (not_running_of_revive hrebuild hback)
  have hid : board.job = persisted.id := hsame.job.trans hrebuilt.job
  split
  · exact ⟨LiveJob.sound_pausePending hrestored,
      (LiveJob.load_restate LiveJob.awaitsStart .paused).trans hload,
      (LiveJob.sameJob_restate LiveJob.awaitsStart .paused).id.trans hid⟩
  · exact ⟨hrestored, hload, hid⟩

end JobScheduler.PersistedJob
