import JobScheduler.Proofs.Board.Partition
import JobScheduler.Proofs.Board.Wiring

namespace JobScheduler

theorem TaskId.compare_of_index_lt (job : JobId) {a b : Nat} (h : a < b) :
    compare (⟨job, a⟩ : TaskId) ⟨job, b⟩ = .lt := by
  have hindex : compare a b = .lt := Nat.compare_eq_lt.mpr h
  change (compare job job).then (compare a b) = .lt
  rw [hindex]
  simp

-- Where a failure leaves a task.
def Place.afterFailure : Place → Place
  | .eligible | .running => .done
  | place => place

namespace Board

-- The tasks at a place, in id order.
def idsAt (board : Board) (place : Place) : List TaskId :=
  (board.cards.filter (·.place == place)).map (·.id)

theorem length_idsAt (board : Board) (place : Place) :
    (board.idsAt place).length = board.countAt place := by
  simp [idsAt, countAt, List.countP_eq_length_filter]

theorem mem_idsAt_iff {board : Board} (hw : board.Wired) {id : TaskId} {place : Place} :
    id ∈ board.idsAt place ↔ board.placeOf id = .ok place := by
  simp only [idsAt, List.mem_map, List.mem_filter, beq_iff_eq, placeOf_eq_ok_iff]
  constructor
  · rintro ⟨card, ⟨hmem, hplace⟩, rfl⟩
    exact ⟨card, hw.card_id_of_mem hmem, hplace⟩
  · rintro ⟨card, hcard, hplace⟩
    exact ⟨card, ⟨Wired.mem_of_card hcard, hplace⟩, hw.id_of_card hcard⟩

theorem Wired.increasing {board : Board} (hw : board.Wired) :
    board.cards.Pairwise fun a b => compare a.id b.id = .lt := by
  rw [List.pairwise_iff_getElem]
  intro i j hi hj hlt
  rw [hw.ids i _ (List.getElem?_eq_getElem hi), hw.ids j _ (List.getElem?_eq_getElem hj)]
  exact TaskId.compare_of_index_lt board.job hlt

theorem idsAt_increasing {board : Board} (hw : board.Wired) (place : Place) :
    (board.idsAt place).Pairwise fun a b => compare a b = .lt :=
  List.pairwise_map.mpr (hw.increasing.sublist List.filter_sublist)

theorem Partitioned.toList_partition {board : Board} (hp : board.Partitioned) (hw : board.Wired)
    {place : Place} (hplace : place.isPartition) :
    (board.partition place).toList = board.idsAt place :=
  SortedSet.toList_eq_of_increasing (idsAt_increasing hw place) fun id => by
    rw [hp.member_iff place hplace id, mem_idsAt_iff hw]

theorem Partitioned.partition_eq {board : Board} (hp : board.Partitioned) (hw : board.Wired)
    {place : Place} (hplace : place.isPartition) :
    board.partition place = SortedSet.ofList (board.idsAt place) := by
  apply SortedSet.ext_toList
  rw [hp.toList_partition hw hplace]
  exact (SortedSet.toList_eq_of_increasing (idsAt_increasing hw place) fun _ =>
    SortedSet.member_ofList).symm

section PutAll

variable (board : Board) (place : Place)

theorem putAll_cons (id : TaskId) (rest : List TaskId) :
    board.putAll place (id :: rest) = (board.modifyCard id (put place)).putAll place rest := rfl

@[simp] theorem putAll_job (ids : List TaskId) : (board.putAll place ids).job = board.job := by
  induction ids generalizing board with
  | nil => rfl
  | cons id rest ih => rw [putAll_cons, ih]; rfl

@[simp] theorem putAll_done (ids : List TaskId) : (board.putAll place ids).done = board.done := by
  induction ids generalizing board with
  | nil => rfl
  | cons id rest ih => rw [putAll_cons, ih]; rfl

@[simp] theorem putAll_failed (ids : List TaskId) :
    (board.putAll place ids).failed = board.failed := by
  induction ids generalizing board with
  | nil => rfl
  | cons id rest ih => rw [putAll_cons, ih]; rfl

@[simp] theorem putAll_partition (ids : List TaskId) :
    (board.putAll place ids).partition = board.partition := by
  induction ids generalizing board with
  | nil => rfl
  | cons id rest ih => rw [putAll_cons, ih, partition_modifyCard]

theorem SameTasks.putAll (ids : List TaskId) : board.SameTasks (board.putAll place ids) := by
  induction ids generalizing board with
  | nil => exact .refl board
  | cons id rest ih => exact (SameTasks.modifyCard board id (put place) fun _ => rfl).trans (ih _)

variable {board place}

theorem placeOf_putAll (place : Place) {ids : List TaskId}
    (hknown : ∀ id ∈ ids, ∃ source, board.placeOf id = .ok source) (other : TaskId) :
    (board.putAll place ids).placeOf other =
      if other ∈ ids then .ok place else board.placeOf other := by
  induction ids generalizing board with
  | nil => simp [putAll]
  | cons id rest ih =>
      obtain ⟨⟨source, hsource⟩, hrest⟩ := List.forall_mem_cons.mp hknown
      have hput := placeOf_modifyCard_put place hsource
      have hknown' (next : TaskId) (hnext : next ∈ rest) :
          ∃ source, (board.modifyCard id (put place)).placeOf next = .ok source := by
        rw [hput]
        split
        · exact ⟨place, rfl⟩
        · exact hrest next hnext
      rw [putAll_cons, ih hknown', hput]
      by_cases hmem : other ∈ rest <;> by_cases heq : other = id <;> simp [hmem, heq]

-- Tasks that have not terminated are added to those that have.
theorem countAt_putAll_done {ids : List TaskId} (hnodup : ids.Nodup)
    (hopen : ∀ id ∈ ids, ∃ source, board.placeOf id = .ok source ∧ source ≠ .done) :
    (board.putAll .done ids).countAt .done = board.countAt .done + ids.length := by
  induction ids generalizing board with
  | nil => rfl
  | cons id rest ih =>
      obtain ⟨hid, hrest⟩ := List.nodup_cons.mp hnodup
      obtain ⟨⟨source, hsource, hdone⟩, hopen⟩ := List.forall_mem_cons.mp hopen
      have hput := placeOf_modifyCard_put .done hsource
      have hcount := countAt_relocate hsource .done .done
      have hsame : (board.relocate id source .done).countAt .done =
          (board.modifyCard id (put .done)).countAt .done := by simp [countAt]
      rw [hsame, if_neg hdone, if_pos rfl] at hcount
      rw [putAll_cons, ih hrest, List.length_cons]
      · omega
      · intro next hnext
        rw [hput, if_neg (by rintro rfl; exact hid hnext)]
        exact hopen next hnext

end PutAll

section Fail

variable {board : Board}

@[simp] theorem failed_fail (board : Board) : board.fail.1.failed = true := rfl

theorem sameTasks_fail (board : Board) : board.SameTasks board.fail.1 := by
  have h := SameTasks.putAll board .done (board.eligible.toList ++ board.running.toList)
  exact ⟨h.job, h.kind, h.fixed⟩

variable (hp : board.Partitioned)
include hp

theorem Partitioned.mem_toList_iff (place : Place) (hplace : place.isPartition) {id : TaskId} :
    id ∈ (board.partition place).toList ↔ board.placeOf id = .ok place := by
  rw [SortedSet.mem_toList_iff, hp.member_iff place hplace]

theorem Partitioned.mem_eligible_iff {id : TaskId} :
    id ∈ board.eligible.toList ↔ board.placeOf id = .ok .eligible := hp.mem_toList_iff .eligible rfl

theorem Partitioned.mem_running_iff {id : TaskId} :
    id ∈ board.running.toList ↔ board.placeOf id = .ok .running := hp.mem_toList_iff .running rfl

theorem Partitioned.mem_paused_iff {id : TaskId} :
    id ∈ board.paused.toList ↔ board.placeOf id = .ok .paused := hp.mem_toList_iff .paused rfl

-- The tasks that a failure abandons.
theorem mem_eligible_append_running_iff (id : TaskId) :
    id ∈ board.eligible.toList ++ board.running.toList ↔
      board.placeOf id = .ok .eligible ∨ board.placeOf id = .ok .running := by
  rw [List.mem_append]
  exact or_congr hp.mem_eligible_iff hp.mem_running_iff

theorem nodup_eligible_append_running :
    (board.eligible.toList ++ board.running.toList).Nodup := by
  refine List.nodup_append.mpr ⟨SortedSet.nodup_toList _, SortedSet.nodup_toList _, ?_⟩
  rintro id he _ hr rfl
  have heligible := hp.mem_eligible_iff.mp he
  have hrunning := hp.mem_running_iff.mp hr
  rw [heligible] at hrunning
  cases hrunning

theorem placeOf_fail (id : TaskId) :
    board.fail.1.placeOf id = (board.placeOf id).map Place.afterFailure := by
  have hmem := mem_eligible_append_running_iff hp id
  have hopen (other : TaskId) (hother : other ∈ board.eligible.toList ++ board.running.toList) :
      ∃ source, board.placeOf other = .ok source := by
    rcases (mem_eligible_append_running_iff hp other).mp hother with h | h <;> exact ⟨_, h⟩
  have hput := placeOf_putAll .done hopen id
  refine Eq.trans (hput : board.fail.1.placeOf id = _) ?_
  cases hplace : board.placeOf id with
  | error fault => simp [hmem, hplace, Except.map]
  | ok place => cases place <;> simp [hmem, hplace, Except.map, Place.afterFailure]

theorem Partitioned.fail : board.fail.1.Partitioned := by
  constructor
  · intro place hplace id
    rw [placeOf_fail hp]
    cases place with
    | eligible =>
        cases board.placeOf id with
        | error fault => simp [partition, Board.fail, Except.map]
        | ok place => cases place <;> simp [partition, Board.fail, Except.map, Place.afterFailure]
    | running =>
        cases board.placeOf id with
        | error fault => simp [partition, Board.fail, Except.map]
        | ok place => cases place <;> simp [partition, Board.fail, Except.map, Place.afterFailure]
    | paused =>
        have hsame : board.fail.1.partition .paused = board.partition .paused :=
          congrFun (putAll_partition board .done
            (board.eligible.toList ++ board.running.toList)) .paused
        rw [hsame, hp.member_iff .paused rfl]
        cases board.placeOf id with
        | error fault => simp [Except.map]
        | ok place => cases place <;> simp [Except.map, Place.afterFailure]
    | blocked => cases hplace
    | done => cases hplace
  · have hcount := countAt_putAll_done (nodup_eligible_append_running hp) fun id hid => by
      rcases (mem_eligible_append_running_iff hp _).mp hid with h | h <;> exact ⟨_, h, by simp⟩
    rw [List.length_append, ← hp.done_eq] at hcount
    exact hcount.symm

end Fail

section Teardown

-- The board on which `teardown` gives up blocked tasks, with the paused ones done already.
def unpaused (board : Board) : Board := board.fail.1.putAll .done board.fail.1.paused.toList

@[simp] theorem failed_teardown (board : Board) : board.teardown.1.failed = true :=
  putAll_failed board.fail.1 .done board.fail.1.paused.toList

theorem teardown_cards (board : Board) :
    board.teardown.1.cards = board.unpaused.cards.map abandonBlocked := rfl

theorem sameTasks_teardown (board : Board) : board.SameTasks board.teardown.1 := by
  have h := (sameTasks_fail board).trans (.putAll board.fail.1 .done board.fail.1.paused.toList)
  refine ⟨h.job, h.kind, ?_⟩
  have hkeeps (card : Card) : (abandonBlocked card).fixed = card.fixed := by
    unfold abandonBlocked
    split <;> rfl
  rw [teardown_cards, List.map_map]
  exact (List.map_congr_left fun card _ => hkeeps card).trans h.fixed

variable {board : Board} (hp : board.Partitioned)
include hp

theorem placeOf_unpaused (id : TaskId) :
    board.unpaused.placeOf id = (board.placeOf id).map fun place =>
      if place = .blocked then .blocked else .done := by
  have hfail := hp.fail
  have hmem : id ∈ board.fail.1.paused.toList ↔ _ := hfail.mem_paused_iff
  have hopen (other : TaskId) (hother : other ∈ board.fail.1.paused.toList) :
      ∃ source, board.fail.1.placeOf other = .ok source :=
    ⟨_, hfail.mem_paused_iff.mp hother⟩
  have hput := placeOf_putAll .done hopen id
  refine Eq.trans (hput : board.unpaused.placeOf id = _) ?_
  rw [placeOf_fail hp] at hmem ⊢
  cases hplace : board.placeOf id with
  | error fault => simp [hmem, hplace, Except.map]
  | ok place => cases place <;> simp [hmem, hplace, Except.map, Place.afterFailure]

-- Nothing is left to do on a board that was torn down.
theorem placeOf_teardown (id : TaskId) :
    board.teardown.1.placeOf id = (board.placeOf id).map fun _ => .done := by
  have hcards : board.teardown.1.placeOf id = (board.unpaused.placeOf id).map fun place =>
      if place = .blocked then .done else place := by
    have hjob : board.teardown.1.job = board.unpaused.job := rfl
    simp only [placeOf_eq, Board.card, hjob, teardown_cards, List.getElem?_map]
    split
    · rfl
    · cases board.unpaused.cards[id.index]? with
      | none => rfl
      | some card =>
          by_cases h : card.place = .blocked <;> simp [Except.map, abandonBlocked, put, h]
  rw [hcards, placeOf_unpaused hp]
  cases board.placeOf id with
  | error fault => rfl
  | ok place => cases place <;> rfl

theorem Partitioned.teardown : board.teardown.1.Partitioned := by
  have hfail := hp.fail
  constructor
  · intro place hplace id
    rw [placeOf_teardown hp]
    have hunpaused : board.unpaused.partition = board.fail.1.partition := putAll_partition _ _ _
    have hempty : board.teardown.1.partition place = SortedMap.empty := by
      cases place with
      | eligible => exact congrFun hunpaused .eligible
      | running => exact congrFun hunpaused .running
      | paused | blocked | done => rfl
    rw [hempty]
    cases board.placeOf id with
    | error fault => simp [Except.map]
    | ok place' => simp [Except.map, (Place.ne_done_of_isPartition hplace).symm]
  · have hcount := countAt_putAll_done (SortedSet.nodup_toList board.fail.1.paused) fun id hid =>
      ⟨_, hfail.mem_paused_iff.mp hid, by simp⟩
    have habandon : board.teardown.1.countAt .done =
        board.unpaused.countAt .done + board.unpaused.countAt .blocked := by
      simp only [countAt, teardown_cards]
      induction board.unpaused.cards with
      | nil => rfl
      | cons card rest ih =>
          simp only [List.map_cons, List.countP_cons, ih]
          cases hcard : card.place <;> simp [abandonBlocked, put, hcard] <;> omega
    rw [habandon, show board.unpaused.countAt .done = _ from hcount, ← hfail.done_eq]
    have hdone : board.unpaused.done = board.fail.1.done := putAll_done _ _ _
    rw [← hdone]
    rfl

end Teardown

end Board

end JobScheduler
