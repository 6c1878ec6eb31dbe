import JobScheduler.Proofs.Board.Abandon

namespace JobScheduler

-- Where a new status takes a task of a board that has failed or not.
def Place.follow (failed : Bool) : TaskStatus → Place → Place
  | .paused, .eligible => .paused
  | .pending, .paused | .submitted, .paused => if failed then .paused else .eligible
  | _, place => place

-- A task that has followed a status is not moved by it again.
theorem Place.follow_follow (failed : Bool) (status : TaskStatus) (place : Place) :
    follow failed status (follow failed status place) = follow failed status place := by
  cases status <;> cases place <;> cases failed <;> rfl

-- Where new statuses take the task with an id. A task that has none stays.
def Place.redirect (failed : Bool) (statuses : SortedMap TaskId TaskStatus) (id : TaskId)
    (place : Place) : Place :=
  match statuses.find? id with
  | some status => place.follow failed status
  | none => place

theorem Place.redirect_blocked (failed : Bool) (statuses : SortedMap TaskId TaskStatus) (id : TaskId) :
    Place.blocked.redirect failed statuses id = .blocked := by
  unfold redirect
  split
  · rename_i status _
    cases status <;> rfl
  · rfl

section Entries

variable {first : TaskId} {status : TaskStatus} {rest : List (TaskId × TaskStatus)}
  (hinc : Increasing ((first, status) :: rest))

theorem Place.redirect_cons (failed : Bool) (id : TaskId) (place : Place) :
    place.redirect failed ⟨(first, status) :: rest, hinc⟩ id =
      if id = first then place.follow failed status else place.redirect failed ⟨rest, hinc.of_cons⟩ id := by
  by_cases hid : id = first
  · simp [redirect, SortedMap.find?, SortedMap.lookup, hid]
  · have hne : compare id first ≠ .eq := fun heq => hid (Std.LawfulEqOrd.eq_of_compare heq)
    simp [redirect, SortedMap.find?, SortedMap.lookup, hid, hne]

-- No id has two statuses.
theorem Place.redirect_rest (failed : Bool) (place : Place) :
    place.redirect failed ⟨rest, hinc.of_cons⟩ first = place := by
  simp [redirect, SortedMap.find?, SortedMap.lookup_rest_eq_none hinc]

end Entries

-- From the eligible to the paused partition or back.
def Place.Swaps (source target : Place) : Prop :=
  source = .eligible ∧ target = .paused ∨ source = .paused ∧ target = .eligible

theorem Place.Swaps.isPartition {source target : Place} (h : source.Swaps target) :
    source.isPartition ∧ target.isPartition := by
  rcases h with ⟨rfl, rfl⟩ | ⟨rfl, rfl⟩ <;> exact ⟨rfl, rfl⟩

theorem Place.Swaps.ne {source target : Place} (h : source.Swaps target) : target ≠ source := by
  rcases h with ⟨rfl, rfl⟩ | ⟨rfl, rfl⟩ <;> simp

namespace Board

theorem resume_eq_move {board : Board} (h : board.failed = false) (id : TaskId) :
    board.resume id = board.move id .paused .eligible := by
  simp [resume, h]

-- A status moves its task between the eligible and the paused partition, or does nothing.
theorem applyStatus_cases (board : Board) (moved : Nat) (id : TaskId) (status : TaskStatus) :
    (applyStatus (board, moved) (id, status) = (board, moved) ∧
      (board.placeOf id).map (Place.follow board.failed status) = board.placeOf id) ∨
    ∃ source target, board.placeOf id = .ok source ∧ Place.follow board.failed status source = target ∧
      source.Swaps target ∧
      applyStatus (board, moved) (id, status) = (board.relocate id source target, moved + 1) := by
  cases hplace : board.placeOf id with
  | error fault => exact .inl ⟨by simp [applyStatus, hplace], rfl⟩
  | ok place =>
      have hmove (target : Place) := move_of_placeOf target hplace
      by_cases hpause : status = .paused ∧ place = .eligible
      · obtain ⟨rfl, rfl⟩ := hpause
        exact .inr ⟨.eligible, .paused, rfl, rfl, .inl ⟨rfl, rfl⟩, by
          simp [applyStatus, hplace, bulkMove?, pause, hmove]⟩
      · by_cases hresume : (status = .pending ∨ status = .submitted) ∧ place = .paused ∧
          board.failed = false
        · obtain ⟨hstatus, rfl, hfailed⟩ := hresume
          refine .inr ⟨.paused, .eligible, rfl, ?_, .inr ⟨rfl, rfl⟩, ?_⟩
          · rcases hstatus with rfl | rfl <;> simp [Place.follow, hfailed]
          · rcases hstatus with rfl | rfl <;>
              simp [applyStatus, hplace, bulkMove?, resume, hfailed, hmove]
        · refine .inl ⟨?_, ?_⟩
          · cases status <;> cases place <;> simp_all [applyStatus, bulkMove?]
          · cases status <;> cases place <;> simp_all [Except.map, Place.follow]

theorem placeOf_applyStatus (board : Board) (moved : Nat) (id : TaskId) (status : TaskStatus)
    (other : TaskId) :
    (applyStatus (board, moved) (id, status)).1.placeOf other =
      if other = id then (board.placeOf id).map (Place.follow board.failed status)
      else board.placeOf other := by
  rcases applyStatus_cases board moved id status with ⟨heq, hfollow⟩ | ⟨source, target, hsource, hfollow, -, heq⟩
  · rw [heq, hfollow]
    split
    · rename_i h; rw [h]
    · rfl
  · rw [heq, placeOf_relocate target hsource, hsource]
    simp [Except.map, hfollow]

theorem sameTasks_applyStatus (board : Board) (moved : Nat) (id : TaskId) (status : TaskStatus) :
    board.SameTasks (applyStatus (board, moved) (id, status)).1 := by
  rcases applyStatus_cases board moved id status with ⟨heq, -⟩ | ⟨source, target, -, -, -, heq⟩
  · rw [heq]
    exact .refl board
  · rw [heq]
    exact .relocate board id source target

theorem failed_applyStatus (board : Board) (moved : Nat) (id : TaskId) (status : TaskStatus) :
    (applyStatus (board, moved) (id, status)).1.failed = board.failed := by
  rcases applyStatus_cases board moved id status with ⟨heq, -⟩ | ⟨_, _, _, -, _, heq⟩ <;> simp [heq]

-- A task that has been told its status is where the status takes it.
theorem settled_applyStatus (board : Board) (moved : Nat) (id : TaskId) (status : TaskStatus) :
    ((applyStatus (board, moved) (id, status)).1.placeOf id).map
        (Place.follow (applyStatus (board, moved) (id, status)).1.failed status) =
      (applyStatus (board, moved) (id, status)).1.placeOf id := by
  rw [failed_applyStatus, placeOf_applyStatus, if_pos rfl]
  cases board.placeOf id with
  | error fault => rfl
  | ok place => simp [Except.map, Place.follow_follow]

-- What holds of a board and survives moves between partitions survives new statuses.
theorem applyStatuses_induction {motive : Board → Prop} {board : Board} (h : motive board)
    (hmove : ∀ board id source target, motive board → board.placeOf id = .ok source →
      source.Swaps target → motive (board.relocate id source target))
    (statuses : SortedMap TaskId TaskStatus) : motive (board.applyStatuses statuses).1 := by
  unfold applyStatuses
  generalize statuses.entries = entries
  generalize 0 = moved
  induction entries generalizing board moved with
  | nil => exact h
  | cons entry rest ih =>
      obtain ⟨id, status⟩ := entry
      rw [List.foldl_cons]
      rcases applyStatus_cases board moved id status with ⟨heq, -⟩ | ⟨source, target, hsource, -, hswaps, heq⟩
      · rw [heq]
        exact ih h moved
      · rw [heq]
        exact ih (hmove board id source target h hsource hswaps) (moved + 1)

theorem failed_applyStatuses (board : Board) (statuses : SortedMap TaskId TaskStatus) :
    (board.applyStatuses statuses).1.failed = board.failed :=
  applyStatuses_induction (motive := fun board' => board'.failed = board.failed) rfl
    (fun _ _ _ _ h _ _ => by simpa using h) statuses

theorem priority_applyStatuses (board : Board) (statuses : SortedMap TaskId TaskStatus) :
    (board.applyStatuses statuses).1.priority = board.priority :=
  applyStatuses_induction (motive := fun board' => board'.priority = board.priority) rfl
    (fun _ _ _ _ h _ _ => by simpa using h) statuses

theorem sameTasks_applyStatuses (board : Board) (statuses : SortedMap TaskId TaskStatus) :
    board.SameTasks (board.applyStatuses statuses).1 :=
  applyStatuses_induction (motive := board.SameTasks) (.refl board)
    (fun _ _ _ _ h _ _ => h.trans (.relocate _ _ _ _)) statuses

-- Running tasks stay where they are.
theorem load_applyStatuses (board : Board) (statuses : SortedMap TaskId TaskStatus) :
    (board.applyStatuses statuses).1.load = board.load := by
  refine applyStatuses_induction (motive := fun board' => board'.load = board.load) rfl ?_ statuses
  intro board' id source target h hplace hswaps
  obtain ⟨card, hcard, rfl⟩ := placeOf_eq_ok_iff.mp hplace
  have hload := load_relocate hcard target
  rcases hswaps with ⟨hsource, rfl⟩ | ⟨hsource, rfl⟩ <;> rw [hsource] at hload ⊢ <;> simp at hload <;>
    omega

-- Each task goes where its own new status takes it.
theorem placeOf_applyStatuses (board : Board) (statuses : SortedMap TaskId TaskStatus) (id : TaskId) :
    (board.applyStatuses statuses).1.placeOf id =
      (board.placeOf id).map (Place.redirect board.failed statuses id) := by
  obtain ⟨entries, hinc⟩ := statuses
  rw [applyStatuses]
  generalize 0 = moved
  induction entries generalizing board moved with
  | nil =>
      show board.placeOf id = _
      cases board.placeOf id <;> rfl
  | cons entry rest ih =>
      obtain ⟨first, status⟩ := entry
      rw [List.foldl_cons, ih _ hinc.of_cons, failed_applyStatus, placeOf_applyStatus]
      by_cases hid : id = first
      · subst hid
        cases board.placeOf id with
        | error fault => simp [Except.map]
        | ok place => simp [Except.map, Place.redirect_cons, Place.redirect_rest hinc]
      · cases board.placeOf id with
        | error fault => simp [Except.map, hid]
        | ok place => simp [Except.map, Place.redirect_cons, hid]

section Departures

-- Whether new statuses take the task of a card elsewhere.
def departs (failed : Bool) (statuses : SortedMap TaskId TaskStatus) (card : Card) : Bool :=
  card.place.redirect failed statuses card.id != card.place

variable {board : Board} (hw : board.Wired) {first : TaskId} {status : TaskStatus}
  {rest : List (TaskId × TaskStatus)} (hinc : Increasing ((first, status) :: rest))
include hw hinc

-- A status that its task has followed asks for nothing more.
theorem countP_departs_of_settled
    (hsettled : (board.placeOf first).map (Place.follow board.failed status) = board.placeOf first) :
    board.cards.countP (departs board.failed ⟨rest, hinc.of_cons⟩) =
      board.cards.countP (departs board.failed ⟨(first, status) :: rest, hinc⟩) := by
  apply List.countP_congr
  intro card hcard
  rw [departs, departs, Place.redirect_cons hinc]
  split
  · rename_i hid
    rw [← hid, placeOf_of_card (hw.card_id_of_mem hcard), Except.map, Except.ok.injEq] at hsettled
    rw [hsettled, hid, Place.redirect_rest hinc]
  · rfl

-- A task that has followed its status is one less to depart.
theorem countP_departs_relocate {source target : Place} (hsource : board.placeOf first = .ok source)
    (hfollow : source.follow board.failed status = target) (hne : target ≠ source) :
    (board.relocate first source target).cards.countP
        (departs board.failed ⟨(first, status) :: rest, hinc⟩) + 1 =
      board.cards.countP (departs board.failed ⟨(first, status) :: rest, hinc⟩) := by
  obtain ⟨card, hcard, rfl⟩ := placeOf_eq_ok_iff.mp hsource
  have hid : card.id = first := hw.id_of_card hcard
  have hid' : (put target card).id = first := hid
  have hstays : target.follow board.failed status = target := by
    rw [← hfollow, Place.follow_follow]
  have hsum := tally_relocate hcard target fun card =>
    if departs board.failed ⟨(first, status) :: rest, hinc⟩ card then 1 else 0
  rw [← countP_eq_tally, ← countP_eq_tally] at hsum
  simpa [departs, Place.redirect_cons, hid, hid', hfollow, hstays, hne] using hsum

-- Those that have departed and those that are still to depart are as many after a status as
-- before it.
theorem count_applyStatus (moved : Nat) :
    (applyStatus (board, moved) (first, status)).2 +
        (applyStatus (board, moved) (first, status)).1.cards.countP
          (departs board.failed ⟨rest, hinc.of_cons⟩) =
      moved + board.cards.countP (departs board.failed ⟨(first, status) :: rest, hinc⟩) := by
  have hw' := hw.congr (sameTasks_applyStatus board moved first status)
  have hsettled := countP_departs_of_settled hw' hinc (settled_applyStatus board moved first status)
  rw [failed_applyStatus] at hsettled
  rw [hsettled]
  rcases applyStatus_cases board moved first status with
    ⟨heq, -⟩ | ⟨source, target, hsource, hfollow, hswaps, heq⟩
  · rw [heq]
  · have hone := countP_departs_relocate hw hinc hsource hfollow hswaps.ne
    simp only [heq]
    omega

end Departures

theorem count_foldl_applyStatus {board : Board} (hw : board.Wired) (moved : Nat)
    {entries : List (TaskId × TaskStatus)} (hinc : Increasing entries) :
    (entries.foldl applyStatus (board, moved)).2 =
      moved + board.cards.countP (departs board.failed ⟨entries, hinc⟩) := by
  induction entries generalizing board moved with
  | nil => simp [departs, Place.redirect, SortedMap.find?, SortedMap.lookup]
  | cons entry rest ih =>
      obtain ⟨first, status⟩ := entry
      have hw' := hw.congr (sameTasks_applyStatus board moved first status)
      rw [List.foldl_cons, ih hw' _ hinc.of_cons, failed_applyStatus, count_applyStatus hw hinc]

-- Counted are the tasks that have left their places.
theorem count_applyStatuses {board : Board} (hw : board.Wired) (statuses : SortedMap TaskId TaskStatus) :
    (board.applyStatuses statuses).2 = (board.cards.map Card.id).countP fun id =>
      (board.applyStatuses statuses).1.placeOf id ≠ board.placeOf id := by
  have hcount : (board.applyStatuses statuses).2 = _ := count_foldl_applyStatus hw 0 statuses.increasing
  rw [hcount, Nat.zero_add, List.countP_map]
  apply List.countP_congr
  intro card hcard
  have hplace := placeOf_of_card (hw.card_id_of_mem hcard)
  simp [departs, placeOf_applyStatuses, hplace, Except.map]

section Redirected

def redirectCard (failed : Bool) (statuses : SortedMap TaskId TaskStatus) (card : Card) : Card :=
  put (card.place.redirect failed statuses card.id) card

variable (board : Board) (statuses : SortedMap TaskId TaskStatus)

-- The board on which every task has gone where its own new status takes it, all at once.
def redirected : Board :=
  let board := { board with cards := board.cards.map (redirectCard board.failed statuses) }
  { board with
    eligible := SortedSet.ofList (board.idsAt .eligible)
    paused := SortedSet.ofList (board.idsAt .paused) }

-- Nothing of a card but its place is touched.
theorem map_put_applyStatuses :
    (board.applyStatuses statuses).1.cards.map (put .blocked) = board.cards.map (put .blocked) :=
  applyStatuses_induction (motive := fun board' => board'.cards.map (put .blocked) =
      board.cards.map (put .blocked)) rfl
    (fun _ _ _ target h _ _ => by
      rw [relocate_cards, map_modify_of_keeps (put .blocked) (put target) (fun _ => rfl), h]) statuses

theorem running_applyStatuses : (board.applyStatuses statuses).1.running = board.running :=
  applyStatuses_induction (motive := fun board' => board'.running = board.running) rfl
    (fun _ _ _ _ h _ hswaps => by
      rcases hswaps with ⟨rfl, rfl⟩ | ⟨rfl, rfl⟩ <;> exact h) statuses

theorem done_applyStatuses : (board.applyStatuses statuses).1.done = board.done :=
  applyStatuses_induction (motive := fun board' => board'.done = board.done) rfl
    (fun _ _ _ _ h _ hswaps => by
      rcases hswaps with ⟨rfl, rfl⟩ | ⟨rfl, rfl⟩ <;> exact h) statuses

variable {board}

theorem eq_put_of_put_eq {card card' : Card} {place : Place} (h : put place card' = put place card) :
    card' = put card'.place card := by
  cases card
  cases card'
  simp_all [put]

theorem cards_applyStatuses (hw : board.Wired) :
    (board.applyStatuses statuses).1.cards = (board.redirected statuses).cards := by
  apply List.ext_getElem?
  intro index
  have hrest := congrArg (·[index]?) (map_put_applyStatuses board statuses)
  simp only [redirected, List.getElem?_map] at hrest ⊢
  cases hcard : board.cards[index]? with
  | none => simpa [hcard] using hrest
  | some card =>
      rw [hcard, Option.map_some, Option.map_eq_some_iff] at hrest
      obtain ⟨card', hcard', hput⟩ := hrest
      have hok := hw.card_eq_ok_of_getElem? hcard
      have hok' : (board.applyStatuses statuses).1.card card.id = .ok card' := by
        rw [hw.ids index card hcard, ← (sameTasks_applyStatuses board statuses).job]
        exact card_eq_ok_iff.mpr ⟨rfl, hcard'⟩
      have hplace := placeOf_applyStatuses board statuses card.id
      rw [placeOf_of_card hok, placeOf_of_card hok', Except.map, Except.ok.injEq] at hplace
      rw [hcard', Option.map_some, redirectCard, ← hplace, ← eq_put_of_put_eq hput]

end Redirected

end Board

end JobScheduler
