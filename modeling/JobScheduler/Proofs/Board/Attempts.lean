import JobScheduler.Proofs.Board.Replay

namespace JobScheduler.Board

-- How often dispatch passes have looked at the tasks, in id order.
def attempts (board : Board) : List Nat := board.cards.map Card.attempts

theorem attempts_modifyCard (board : Board) (id : TaskId) (change : Card → Card)
    (hkeeps : ∀ card, (change card).attempts = card.attempts) :
    (board.modifyCard id change).attempts = board.attempts :=
  map_modify_of_keeps Card.attempts change hkeeps board.cards id.index

@[simp] theorem attempts_relocate (board : Board) (id : TaskId) (source target : Place) :
    (board.relocate id source target).attempts = board.attempts := by
  rw [attempts, relocate_cards]
  exact attempts_modifyCard board id (put target) fun _ => rfl

theorem attempts_notifyChild (progress : Board × List TaskId) (child : TaskId) :
    (notifyChild progress child).1.attempts = progress.1.attempts := by
  have hmet := attempts_modifyCard progress.1 child meetParent fun _ => rfl
  unfold notifyChild
  dsimp only
  split
  · split
    · rw [attempts, enter_cards]
      exact (attempts_modifyCard _ child (put .eligible) fun _ => rfl).trans hmet
    · exact hmet
  · exact hmet

theorem attempts_foldl_notifyChild (progress : Board × List TaskId) (children : List TaskId) :
    (children.foldl notifyChild progress).1.attempts = progress.1.attempts := by
  induction children generalizing progress with
  | nil => rfl
  | cons child rest ih => rw [List.foldl_cons, ih, attempts_notifyChild]

theorem attempts_foldl_notifyParent (board : Board) (parents : List TaskId) :
    (parents.foldl notifyParent board).attempts = board.attempts := by
  induction parents generalizing board with
  | nil => rfl
  | cons parent rest ih =>
      rw [List.foldl_cons, ih]
      exact attempts_modifyCard board parent settleChild fun _ => rfl

-- Only a dispatch pass looks at tasks to start them.
theorem attempts_finish {board board' : Board} {id : TaskId} {source : Place}
    {promoted : List TaskId} (h : board.finish id source = .ok (board', promoted)) :
    board'.attempts = board.attempts := by
  obtain ⟨card, hcard, rfl⟩ := placeOf_eq_ok_iff.mp (placeOf_of_finish h)
  rw [finish_eq hcard] at h
  dsimp only at h
  split at h
  · cases h
    rw [attempts_foldl_notifyParent, attempts_foldl_notifyChild, attempts_relocate]
  · cases h
    exact attempts_relocate board id card.place .done

theorem attempts_applyStatuses (board : Board) (statuses : SortedMap TaskId TaskStatus) :
    (board.applyStatuses statuses).1.attempts = board.attempts :=
  applyStatuses_induction (motive := fun board' => board'.attempts = board.attempts) rfl
    (fun _ _ _ _ h _ _ => by rw [attempts_relocate, h]) statuses

-- Boards with the same attempts agree on those of each task.
theorem attempts_of_card {a b : Board} (hsame : a.SameTasks b) (h : b.attempts = a.attempts)
    {id : TaskId} {card : Card} (hcard : a.card id = .ok card) :
    ∃ card', b.card id = .ok card' ∧ card'.attempts = card.attempts := by
  obtain ⟨card', hcard', -⟩ := hsame.card hcard
  have hold := (card_eq_ok_iff.mp hcard).2
  have hnew := (card_eq_ok_iff.mp hcard').2
  have hindex := congrArg (·[id.index]?) h
  simp only [attempts, List.getElem?_map, hold, hnew, Option.map_some, Option.some.injEq] at hindex
  exact ⟨card', hcard', hindex⟩

-- No dispatch pass has looked at a task yet.
def Untried (board : Board) : Prop := ∀ count ∈ board.attempts, count = 0

theorem Untried.of_attempts {board board' : Board} (h : board.Untried)
    (hattempts : board'.attempts = board.attempts) : board'.Untried := by
  rw [Untried, hattempts]
  exact h

theorem Untried.attempts_eq {a b : Board} (ha : a.Untried) (hb : b.Untried) (hsize : b.size = a.size) :
    b.attempts = a.attempts := by
  rw [List.eq_replicate_of_mem ha, List.eq_replicate_of_mem hb]
  congr 1
  rw [attempts, attempts, List.length_map, List.length_map]
  exact hsize

theorem untried_of_build {job : JobId} {priority : Priority} {kind : JobKind} {tasks : List PlannedTask}
    {board : Board} (h : build job priority kind tasks = .ok board) : board.Untried := by
  obtain ⟨hplan, rfl⟩ := build_eq_ok_iff.mp h
  intro count hcount
  obtain ⟨index, hindex⟩ := List.mem_iff_getElem?.mp hcount
  simp only [attempts, List.getElem?_map, getElem?_linkedCards hplan, Option.map_map,
    Option.map_eq_some_iff] at hindex
  obtain ⟨task, -, rfl⟩ := hindex
  rw [Function.comp_apply, Function.comp_apply, offer]
  split <;> split <;> rfl

section Moves

variable {board board' : Board} {id : TaskId} {source target : Place}

theorem attempts_move (h : board.move id source target = .ok board') : board'.attempts = board.attempts := by
  obtain ⟨-, rfl⟩ := move_eq_ok_iff.mp h
  exact attempts_relocate board id source target

theorem attempts_replayStatus {job : String} {task : Submission.Task} {status : TaskStatus}
    (h : replayStatus job board task id status = .ok board') : board'.attempts = board.attempts := by
  unfold replayStatus at h
  obtain ⟨place, -, h⟩ := bind_eq_ok_iff.mp h
  cases status with
  | finished | faulty | killed | waitingOnError =>
      obtain ⟨_, -, h⟩ := bind_eq_ok_iff.mp h
      cases h
      rfl
  | running | inError =>
      obtain ⟨_, -, h⟩ := bind_eq_ok_iff.mp h
      exact attempts_move (replaying_eq_ok_iff.mp h)
  | paused =>
      by_cases heligible : place = .eligible
      · have hpause : replaying (board.pause id) = .ok board' := by simpa [heligible] using h
        exact attempts_move (replaying_eq_ok_iff.mp hpause)
      · have heq : board = board' := by simpa [heligible, pure, Except.pure] using h
        rw [heq]
  | submitted | pending | aborted =>
      cases h
      rfl

end Moves

theorem attempts_replayTerminated {known : List TaskStatus} (rounds : Nat) {board board' : Board}
    (h : replayTerminated known rounds board = .ok board') : board'.attempts = board.attempts := by
  induction rounds generalizing board with
  | zero =>
      cases h
      rfl
  | succ rounds ih =>
      unfold replayTerminated at h
      cases hnext : board.nextTerminated? known with
      | none =>
          rw [hnext] at h
          cases h
          rfl
      | some id =>
          rw [hnext] at h
          obtain ⟨mid, hstart, h⟩ := bind_eq_ok_iff.mp h
          obtain ⟨ended, hend, hrest⟩ := bind_eq_ok_iff.mp h
          have hstarted := attempts_move (replaying_eq_ok_iff.mp hstart)
          have hended := attempts_finish (replaying_eq_ok_iff.mp hend)
          exact (ih hrest).trans (hended.trans hstarted)

theorem attempts_replayStatuses {job : String} {id : JobId} {board board' : Board} {index : Nat}
    {rest : List (Submission.Task × TaskStatus)}
    (h : replayStatuses job id board index rest = .ok board') : board'.attempts = board.attempts := by
  induction rest generalizing board index with
  | nil =>
      cases h
      rfl
  | cons entry rest ih =>
      unfold replayStatuses at h
      obtain ⟨mid, hstep, hrest⟩ := bind_eq_ok_iff.mp h
      exact (ih hrest).trans (attempts_replayStatus hstep)

-- A replay moves tasks without a pass having looked at them.
theorem untried_of_rebuild {id : JobId} {submission : Submission} {statuses : SortedMap String TaskStatus}
    {board : Board} (h : rebuild id submission statuses = .ok board) : board.Untried := by
  obtain ⟨base, drained, hstages⟩ := rebuild_eq_ok_iff.mp h
  obtain ⟨tasks, -, hbuild⟩ := hstages.built
  exact (untried_of_build hbuild).of_attempts
    ((attempts_replayStatuses hstages.settled).trans (attempts_replayTerminated _ hstages.replayed))

end JobScheduler.Board
