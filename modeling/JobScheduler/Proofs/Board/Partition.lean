import JobScheduler.Proofs.Board.Place

namespace JobScheduler.Board

-- The sum of a weight over the cards of a board.
def tally (board : Board) (weight : Card → Nat) : Nat := (board.cards.map weight).sum

theorem sum_map_modify {α : Type} (weight : α → Nat) (change : α → α) {items : List α} {index : Nat}
    {item : α} (h : items[index]? = some item) :
    ((items.modify index change).map weight).sum + weight item =
      (items.map weight).sum + weight (change item) := by
  induction items generalizing index with
  | nil => simp at h
  | cons first rest ih =>
      cases index with
      | zero =>
          have hfirst : first = item := by simpa using h
          subst hfirst
          simp only [List.modify_zero_cons, List.map_cons, List.sum_cons]
          omega
      | succ index =>
          have hrest := ih (by simpa using h)
          simp only [List.modify_succ_cons, List.map_cons, List.sum_cons]
          omega

theorem tally_congr {a b : Board} (h : a.cards = b.cards) : a.tally = b.tally := by
  funext weight
  simp [tally, h]

theorem tally_modifyCard {board : Board} {id : TaskId} {card : Card} (h : board.card id = .ok card)
    (change : Card → Card) (weight : Card → Nat) :
    (board.modifyCard id change).tally weight + weight card =
      board.tally weight + weight (change card) :=
  sum_map_modify weight change (card_eq_ok_iff.mp h).2

-- A change that keeps the weight of a card keeps the tally.
theorem tally_modifyCard_of_keeps (board : Board) (id : TaskId) {change : Card → Card}
    {weight : Card → Nat} (hkeeps : ∀ card, weight (change card) = weight card) :
    (board.modifyCard id change).tally weight = board.tally weight := by
  cases h : board.cards[id.index]? with
  | none =>
      have hlength : board.cards.length ≤ id.index := List.getElem?_eq_none_iff.mp h
      simp [tally, List.modify_eq_self hlength]
  | some card =>
      have hsum := sum_map_modify weight change h
      rw [hkeeps] at hsum
      exact Nat.add_right_cancel hsum

theorem tally_relocate {board : Board} {id : TaskId} {card : Card} (h : board.card id = .ok card)
    (target : Place) (weight : Card → Nat) :
    (board.relocate id card.place target).tally weight + weight card =
      board.tally weight + weight (put target card) := by
  have hcards : (board.relocate id card.place target).cards =
      (board.modifyCard id (put target)).cards := by simp
  rw [tally_congr hcards]
  exact tally_modifyCard h (put target) weight

def standsAt (place : Place) (card : Card) : Nat := if card.place = place then 1 else 0

theorem countP_eq_tally (board : Board) (test : Card → Bool) :
    board.cards.countP test = board.tally fun card => if test card then 1 else 0 := by
  rw [tally]
  induction board.cards with
  | nil => rfl
  | cons card rest ih => rw [List.countP_cons, List.map_cons, List.sum_cons, ih, Nat.add_comm]

theorem countAt_eq_tally (board : Board) (place : Place) :
    board.countAt place = board.tally (standsAt place) := by
  rw [countAt, countP_eq_tally]
  congr 1
  funext card
  simp [standsAt]

-- The slots that the running tasks of a board need.
def load (board : Board) : Nat :=
  ((board.cards.filter (·.place == .running)).map (·.resources)).sum

def demand (card : Card) : Nat := if card.place = .running then card.resources else 0

theorem load_eq_tally (board : Board) : board.load = board.tally demand := by
  simp only [load, tally]
  induction board.cards with
  | nil => rfl
  | cons card rest ih => by_cases h : card.place = .running <;> simp [demand, h, ih]

theorem countAt_relocate {board : Board} {id : TaskId} {source : Place}
    (h : board.placeOf id = .ok source) (target place : Place) :
    (board.relocate id source target).countAt place + (if source = place then 1 else 0) =
      board.countAt place + if target = place then 1 else 0 := by
  obtain ⟨card, hcard, rfl⟩ := placeOf_eq_ok_iff.mp h
  rw [countAt_eq_tally, countAt_eq_tally]
  exact tally_relocate hcard target (standsAt place)

theorem load_relocate {board : Board} {id : TaskId} {card : Card} (h : board.card id = .ok card)
    (target : Place) :
    (board.relocate id card.place target).load + (if card.place = .running then card.resources else 0) =
      board.load + if target = .running then card.resources else 0 := by
  rw [load_eq_tally, load_eq_tally]
  exact tally_relocate h target demand

theorem countAt_modifyCard_of_keeps (board : Board) (id : TaskId) {change : Card → Card}
    (hkeeps : ∀ card, (change card).place = card.place) (place : Place) :
    (board.modifyCard id change).countAt place = board.countAt place := by
  rw [countAt_eq_tally, countAt_eq_tally]
  exact tally_modifyCard_of_keeps board id fun card => by simp [standsAt, hkeeps]

theorem load_modifyCard_of_keeps (board : Board) (id : TaskId) {change : Card → Card}
    (hplace : ∀ card, (change card).place = card.place)
    (htask : ∀ card, (change card).task = card.task) :
    (board.modifyCard id change).load = board.load := by
  rw [load_eq_tally, load_eq_tally]
  exact tally_modifyCard_of_keeps board id fun card => by
    simp [demand, hplace, Card.resources, htask]

-- Every task stands somewhere.
theorem countAt_total (board : Board) :
    board.countAt .blocked + board.countAt .eligible + board.countAt .running +
      board.countAt .paused + board.countAt .done = board.size := by
  simp only [countAt, size]
  induction board.cards with
  | nil => rfl
  | cons card rest ih =>
      simp only [List.countP_cons, List.length_cons]
      cases card.place <;> simp <;> omega

theorem countAt_eq_size_iff (board : Board) (place : Place) :
    board.countAt place = board.size ↔ ∀ card ∈ board.cards, card.place = place := by
  simp only [countAt, size, List.countP_eq_length, beq_iff_eq]

end JobScheduler.Board

namespace JobScheduler

-- The places that have a partition of their own.
def Place.isPartition : Place → Bool
  | .eligible | .running | .paused => true
  | .blocked | .done => false

theorem Place.ne_done_of_isPartition {place : Place} (h : place.isPartition) : place ≠ .done := by
  rintro rfl
  cases h

theorem Place.ne_blocked_of_isPartition {place : Place} (h : place.isPartition) :
    place ≠ .blocked := by
  rintro rfl
  cases h

namespace Board

def partition (board : Board) : Place → SortedSet TaskId
  | .eligible => board.eligible
  | .running => board.running
  | .paused => board.paused
  | .blocked | .done => SortedMap.empty

-- The partitions hold exactly the tasks whose cards say so, and `done` counts the others
-- that will not move again.
structure Partitioned (board : Board) : Prop where
  member_iff : ∀ place, place.isPartition → ∀ id,
    (board.partition place).member id ↔ board.placeOf id = .ok place
  done_eq : board.done = board.countAt .done

theorem partition_leave (board : Board) (id : TaskId) (source place : Place) :
    (board.leave id source).partition place =
      if place = source then (board.partition place).erase id else board.partition place := by
  cases source <;> cases place <;> rfl

theorem partition_enter (board : Board) (id : TaskId) (target place : Place) :
    (board.enter id target).partition place =
      if place = target ∧ place.isPartition then (board.partition place).add id
      else board.partition place := by
  cases target <;> cases place <;> rfl

@[simp] theorem partition_modifyCard (board : Board) (id : TaskId) (change : Card → Card) :
    (board.modifyCard id change).partition = board.partition := by
  funext place
  cases place <;> rfl

theorem member_relocate {board : Board} {id : TaskId} {source : Place}
    (h : board.placeOf id = .ok source) (hp : board.Partitioned) (target : Place) {place : Place}
    (hplace : place.isPartition) (other : TaskId) :
    ((board.relocate id source target).partition place).member other ↔
      if other = id then target = place else (board.partition place).member other := by
  have hmem := hp.member_iff place hplace id
  rw [h] at hmem
  simp only [relocate, partition_enter, partition_leave, partition_modifyCard, hplace, and_true]
  by_cases ho : other = id
  · subst ho
    rw [if_pos rfl]
    by_cases ht : place = target
    · simp [ht.symm]
    · rw [if_neg ht]
      by_cases hs : place = source
      · simp [if_pos hs, Ne.symm ht]
      · have hnot : ¬source = place := Ne.symm hs
        simp [if_neg hs, hmem, hnot, Ne.symm ht]
  · rw [if_neg ho]
    split <;> split <;> simp [ho]

-- A task that is not done may go anywhere.
theorem Partitioned.relocate {board : Board} (hp : board.Partitioned) {id : TaskId} {source : Place}
    (h : board.placeOf id = .ok source) (hsource : source ≠ .done) (target : Place) :
    (board.relocate id source target).Partitioned := by
  constructor
  · intro place hplace other
    rw [member_relocate h hp target hplace, placeOf_relocate target h]
    split
    · simp
    · exact hp.member_iff place hplace other
  · have hcount := countAt_relocate h target .done
    have hdone := hp.done_eq
    simp only [hsource, if_false, Nat.add_zero] at hcount
    rw [hcount, ← hdone]
    cases target <;> simp [Board.relocate]

-- Partitions depend on the places of tasks alone.
theorem Partitioned.congr {board board' : Board} (hp : board.Partitioned)
    (hpartition : board'.partition = board.partition) (hdone : board'.done = board.done)
    (hplace : board'.placeOf = board.placeOf) (hcount : board'.countAt .done = board.countAt .done) :
    board'.Partitioned := by
  constructor
  · intro place hpl id
    rw [hpartition, hplace]
    exact hp.member_iff place hpl id
  · rw [hdone, hcount, hp.done_eq]

theorem Partitioned.modifyCard {board : Board} (hp : board.Partitioned) (id : TaskId)
    {change : Card → Card} (hkeeps : ∀ card, (change card).place = card.place) :
    (board.modifyCard id change).Partitioned :=
  hp.congr (partition_modifyCard board id change) rfl (placeOf_modifyCard_of_keeps hkeeps)
    (countAt_modifyCard_of_keeps board id hkeeps .done)

end Board

end JobScheduler
