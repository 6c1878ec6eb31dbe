import JobScheduler.Board.Transition
import JobScheduler.Proofs.SortedMap

namespace JobScheduler

theorem TaskId.eq_of_index_eq {a b : TaskId} (hjob : a.job = b.job) (hindex : a.index = b.index) :
    a = b := by
  cases a; cases b; simp_all

-- Within a job a task is known by its index.
theorem TaskId.index_eq_iff {a b : TaskId} (hjob : a.job = b.job) : a.index = b.index ↔ a = b :=
  ⟨fun hindex => eq_of_index_eq hjob hindex, fun heq => congrArg TaskId.index heq⟩

namespace Board

theorem card_eq_ok_iff {board : Board} {id : TaskId} {card : Card} :
    board.card id = .ok card ↔ id.job = board.job ∧ board.cards[id.index]? = some card := by
  unfold Board.card
  split
  · simp_all
  · split <;> simp_all

theorem card_eq_error {board : Board} {id : TaskId} {fault : Fault}
    (h : board.card id = .error fault) : fault = .taskNotFound id := by
  unfold Board.card at h
  split at h
  · simpa using h.symm
  · split at h <;> simp_all

theorem placeOf_eq (board : Board) (id : TaskId) :
    board.placeOf id = (board.card id).map Card.place := by
  unfold placeOf
  cases board.card id <;> rfl

theorem placeOf_eq_ok_iff {board : Board} {id : TaskId} {place : Place} :
    board.placeOf id = .ok place ↔ ∃ card, board.card id = .ok card ∧ card.place = place := by
  rw [placeOf_eq]
  cases board.card id <;> simp [Except.map]

theorem placeOf_eq_error {board : Board} {id : TaskId} {fault : Fault}
    (h : board.placeOf id = .error fault) : fault = .taskNotFound id := by
  rw [placeOf_eq] at h
  cases hcard : board.card id with
  | ok card => simp [hcard, Except.map] at h
  | error fault' =>
      rw [hcard] at h
      cases h
      exact card_eq_error hcard

theorem placeOf_of_card {board : Board} {id : TaskId} {card : Card}
    (h : board.card id = .ok card) : board.placeOf id = .ok card.place :=
  placeOf_eq_ok_iff.mpr ⟨card, h, rfl⟩

theorem job_eq_of_placeOf {board : Board} {id : TaskId} {place : Place}
    (h : board.placeOf id = .ok place) : id.job = board.job := by
  obtain ⟨card, hcard, -⟩ := placeOf_eq_ok_iff.mp h
  exact (card_eq_ok_iff.mp hcard).1

-- Lookups see only the job and the cards of a board.
theorem card_congr {a b : Board} (hjob : a.job = b.job) (hcards : a.cards = b.cards) :
    a.card = b.card := by
  funext id
  simp [Board.card, hjob, hcards]

theorem placeOf_congr {a b : Board} (hjob : a.job = b.job) (hcards : a.cards = b.cards) :
    a.placeOf = b.placeOf := by
  funext id
  rw [placeOf_eq, placeOf_eq, card_congr hjob hcards]

section ModifyCard

variable (board : Board) (id : TaskId) (change : Card → Card)

@[simp] theorem modifyCard_job : (board.modifyCard id change).job = board.job := rfl

@[simp] theorem modifyCard_kind : (board.modifyCard id change).kind = board.kind := rfl

@[simp] theorem modifyCard_failed : (board.modifyCard id change).failed = board.failed := rfl

@[simp] theorem modifyCard_done : (board.modifyCard id change).done = board.done := rfl

@[simp] theorem modifyCard_cards :
    (board.modifyCard id change).cards = board.cards.modify id.index change := rfl

end ModifyCard

theorem card_modifyCard {board : Board} {id : TaskId} (change : Card → Card)
    (hjob : id.job = board.job) (other : TaskId) :
    (board.modifyCard id change).card other =
      if other = id then (board.card other).map change else board.card other := by
  by_cases h : other = id
  · subst h
    simp only [Board.card, modifyCard_job, modifyCard_cards, List.getElem?_modify_eq, if_true]
    split
    · rfl
    · cases board.cards[other.index]? <;> rfl
  · simp only [Board.card, modifyCard_job, modifyCard_cards, h, if_false]
    by_cases hj : other.job = board.job
    · have hindex : id.index ≠ other.index := fun he =>
        h ((TaskId.index_eq_iff (hj.trans hjob.symm)).mp he.symm)
      simp only [List.getElem?_modify_ne _ _ hindex]
    · simp [hj]

-- A change that keeps places is not seen by `placeOf`.
theorem placeOf_modifyCard_of_keeps {board : Board} {id : TaskId} {change : Card → Card}
    (hkeeps : ∀ card, (change card).place = card.place) :
    (board.modifyCard id change).placeOf = board.placeOf := by
  funext other
  simp only [placeOf_eq, Board.card, modifyCard_job, modifyCard_cards, List.getElem?_modify]
  split
  · rfl
  · cases board.cards[other.index]? with
    | none => rfl
    | some card => by_cases h : id.index = other.index <;> simp [h, Except.map, hkeeps]

@[simp] theorem put_place (place : Place) (card : Card) : (put place card).place = place := rfl

theorem placeOf_modifyCard_put {board : Board} {id : TaskId} {source : Place} (target : Place)
    (h : board.placeOf id = .ok source) (other : TaskId) :
    (board.modifyCard id (put target)).placeOf other =
      if other = id then .ok target else board.placeOf other := by
  rw [placeOf_eq, card_modifyCard _ (job_eq_of_placeOf h)]
  split
  · rename_i heq
    subst heq
    obtain ⟨card, hcard, -⟩ := placeOf_eq_ok_iff.mp h
    simp [hcard, Except.map]
  · rw [placeOf_eq]

def tryOnce (card : Card) : Card := { card with attempts := card.attempts + 1 }

theorem recordAttempt_eq (board : Board) (id : TaskId) :
    board.recordAttempt id =
      (board.card id).map fun card => (board.modifyCard id tryOnce, card.attempts + 1) := by
  unfold recordAttempt
  cases board.card id <;> rfl

section Sets

variable (board : Board) (id : TaskId) (place : Place)

@[simp] theorem leave_job : (board.leave id place).job = board.job := by cases place <;> rfl

@[simp] theorem leave_kind : (board.leave id place).kind = board.kind := by cases place <;> rfl

@[simp] theorem leave_failed : (board.leave id place).failed = board.failed := by cases place <;> rfl

@[simp] theorem leave_cards : (board.leave id place).cards = board.cards := by cases place <;> rfl

@[simp] theorem leave_done : (board.leave id place).done = board.done := by cases place <;> rfl

@[simp] theorem leave_priority : (board.leave id place).priority = board.priority := by
  cases place <;> rfl

@[simp] theorem enter_job : (board.enter id place).job = board.job := by cases place <;> rfl

@[simp] theorem enter_kind : (board.enter id place).kind = board.kind := by cases place <;> rfl

@[simp] theorem enter_failed : (board.enter id place).failed = board.failed := by cases place <;> rfl

@[simp] theorem enter_cards : (board.enter id place).cards = board.cards := by cases place <;> rfl

@[simp] theorem enter_priority : (board.enter id place).priority = board.priority := by
  cases place <;> rfl

@[simp] theorem enter_done :
    (board.enter id place).done = if place = .done then board.done + 1 else board.done := by
  cases place <;> rfl

end Sets

-- The board after a task has gone from `source` to `target`.
def relocate (board : Board) (id : TaskId) (source target : Place) : Board :=
  ((board.modifyCard id (put target)).leave id source).enter id target

@[simp] theorem relocate_job (board : Board) (id : TaskId) (source target : Place) :
    (board.relocate id source target).job = board.job := by simp [relocate]

@[simp] theorem relocate_kind (board : Board) (id : TaskId) (source target : Place) :
    (board.relocate id source target).kind = board.kind := by simp [relocate]

@[simp] theorem relocate_failed (board : Board) (id : TaskId) (source target : Place) :
    (board.relocate id source target).failed = board.failed := by simp [relocate]

@[simp] theorem relocate_priority (board : Board) (id : TaskId) (source target : Place) :
    (board.relocate id source target).priority = board.priority := by
  simp [relocate, modifyCard]

@[simp] theorem relocate_cards (board : Board) (id : TaskId) (source target : Place) :
    (board.relocate id source target).cards = board.cards.modify id.index (put target) := by
  simp [relocate]

-- A move is refused unless the task is there and stands at the source.
theorem move_eq (board : Board) (id : TaskId) (source target : Place) :
    board.move id source target = (board.card id).bind fun card =>
      if card.place = source then .ok (board.relocate id source target)
      else .error (.contract id (.misplaced source card.place)) := by
  unfold move relocate
  cases board.card id with
  | error fault => rfl
  | ok card =>
      by_cases h : card.place = source <;>
        simp [bind, Except.bind, pure, Except.pure, throw, throwThe, MonadExceptOf.throw, h]

theorem move_eq_ok_iff {board board' : Board} {id : TaskId} {source target : Place} :
    board.move id source target = .ok board' ↔
      board.placeOf id = .ok source ∧ board' = board.relocate id source target := by
  rw [move_eq, placeOf_eq]
  cases board.card id with
  | error fault => simp [Except.bind, Except.map]
  | ok card =>
      by_cases h : card.place = source
      · simp [Except.bind, Except.map, h, eq_comm]
      · simp [Except.bind, Except.map, h]

theorem move_of_placeOf {board : Board} {id : TaskId} {source : Place} (target : Place)
    (h : board.placeOf id = .ok source) :
    board.move id source target = .ok (board.relocate id source target) :=
  move_eq_ok_iff.mpr ⟨h, rfl⟩

theorem card_relocate {board : Board} {id : TaskId} {source : Place} (target : Place)
    (h : board.placeOf id = .ok source) (other : TaskId) :
    (board.relocate id source target).card other =
      if other = id then (board.card other).map (put target) else board.card other := by
  rw [← card_modifyCard (put target) (job_eq_of_placeOf h)]
  exact congrFun (card_congr (by simp) (by simp)) other

theorem placeOf_relocate {board : Board} {id : TaskId} {source : Place} (target : Place)
    (h : board.placeOf id = .ok source) (other : TaskId) :
    (board.relocate id source target).placeOf other =
      if other = id then .ok target else board.placeOf other := by
  rw [← placeOf_modifyCard_put target h]
  exact congrFun (placeOf_congr (by simp) (by simp)) other

end Board

end JobScheduler
