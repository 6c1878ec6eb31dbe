import JobScheduler.Proofs.Board.Abandon
import JobScheduler.Proofs.Board.Building
import JobScheduler.Proofs.Board.Bulk
import JobScheduler.Proofs.Board.Counter

namespace JobScheduler.Board

-- Cards, partitions and counters of a board agree. What a job that was given up counts is
-- of no use to anyone any more.
structure Sound (board : Board) : Prop where
  wired : board.Wired
  partitioned : board.Partitioned
  counted : board.failed = false → board.Counted [] []

section Built

variable {job : JobId} {priority : Priority} {kind : JobKind} {tasks : List PlannedTask}

theorem linkedCards_fresh (hplan : checkPlan job kind tasks.length 0 tasks = .ok ()) {card : Card}
    (h : card ∈ linkedCards kind tasks) :
    card.place = .blocked ∧ card.unmet = card.parents.length ∧
      card.remaining = card.children.length := by
  obtain ⟨index, hindex, rfl⟩ := List.mem_iff_getElem.mp h
  have hcard := getElem?_linkedCards hplan index
  rw [List.getElem?_eq_getElem hindex] at hcard
  cases htask : tasks[index]? with
  | none => simp [htask] at hcard
  | some task =>
      rw [htask, Option.map_some] at hcard
      rw [Option.some.inj hcard]
      split <;> simp [wire, Card.new]

variable {board : Board} (h : build job priority kind tasks = .ok board)
include h

-- No task has moved yet: those that wait for nobody are eligible and the others blocked.
theorem fresh_of_build {card : Card} (hcard : card ∈ board.cards) :
    card.place = (if card.unmet = 0 then .eligible else .blocked) ∧
      card.unmet = card.parents.length ∧ card.remaining = card.children.length := by
  obtain ⟨hplan, rfl⟩ := build_eq_ok_iff.mp h
  obtain ⟨linked, hlinked, rfl⟩ := List.mem_map.mp hcard
  obtain ⟨hblocked, hunmet, hremaining⟩ := linkedCards_fresh hplan hlinked
  unfold offer
  split <;> simp_all

theorem failed_of_build : board.failed = false := by
  rw [(build_eq_ok_iff.mp h).2]

theorem not_done_of_build {id : TaskId} {place : Place} (hplace : board.placeOf id = .ok place) :
    place = .eligible ∨ place = .blocked := by
  obtain ⟨card, hcard, rfl⟩ := placeOf_eq_ok_iff.mp hplace
  rw [(fresh_of_build h (Wired.mem_of_card hcard)).1]
  split
  · exact .inl rfl
  · exact .inr rfl

theorem eligible_of_build :
    board.eligible = SortedSet.ofList (board.idsAt .eligible) := by
  obtain ⟨hplan, rfl⟩ := build_eq_ok_iff.mp h
  have hids : ((linkedCards kind tasks).map offer).filter (·.place == .eligible) =
      ((linkedCards kind tasks).filter (·.unmet == 0)).map offer := by
    rw [List.filter_map]
    congr 1
    apply List.filter_congr
    intro card hcard
    have hblocked := (linkedCards_fresh hplan hcard).1
    by_cases hunmet : card.unmet = 0
    · simp [offer, hunmet]
    · have hne : (Place.blocked == Place.eligible) = false := rfl
      simp [offer, hunmet, hblocked, hne]
  have hid (card : Card) : (offer card).id = card.id := congrArg (·.1.id) (offer_fixed card)
  simp only [idsAt, hids, List.map_map, Function.comp_def, hid]

theorem partitioned_of_build : board.Partitioned := by
  have hw := wired_of_build h
  have helsewhere (place : Place) (hne : place ≠ .eligible) (hne' : place ≠ .blocked) (id : TaskId) :
      board.placeOf id ≠ .ok place := fun hplace => by
    rcases not_done_of_build h hplace with heq | heq
    · exact hne heq
    · exact hne' heq
  constructor
  · intro place hplace id
    cases place with
    | eligible =>
        rw [partition, eligible_of_build h, SortedSet.member_ofList, mem_idsAt_iff hw]
    | running =>
        have hempty : board.partition .running = SortedMap.empty := by
          rw [(build_eq_ok_iff.mp h).2]
          rfl
        simp [hempty, helsewhere]
    | paused =>
        have hempty : board.partition .paused = SortedMap.empty := by
          rw [(build_eq_ok_iff.mp h).2]
          rfl
        simp [hempty, helsewhere]
    | blocked => cases hplace
    | done => cases hplace
  · have hdone : board.done = 0 := by rw [(build_eq_ok_iff.mp h).2]
    rw [hdone, eq_comm, countAt, List.countP_eq_zero]
    intro card hcard
    have hne := helsewhere .done (by simp) (by simp) card.id
    rw [placeOf_of_card (hw.card_id_of_mem hcard)] at hne
    simpa using hne

theorem counted_of_build : board.Counted [] [] := by
  have hw := wired_of_build h
  have hall {ids : List TaskId} (hknown : ∀ id ∈ ids, ∃ card, board.card id = .ok card) :
      ids.countP board.unfinished = ids.length := by
    rw [List.countP_eq_length]
    intro id hid
    obtain ⟨card, hcard⟩ := hknown id hid
    rw [unfinished_of_placeOf (placeOf_of_card hcard)]
    rcases not_done_of_build h (placeOf_of_card hcard) with heq | heq <;> simp [heq]
  constructor <;> intro id card hcard <;> have hmem := Wired.mem_of_card hcard <;>
    obtain ⟨hplace, hunmet, hremaining⟩ := fresh_of_build h hmem
  · rw [hall fun parent hparent => hw.card_of_parent hmem hparent]
    exact hunmet
  · rw [hall fun child hchild => hw.card_of_child hmem hchild]
    exact hremaining
  · rw [hplace]
    split <;> simp_all

theorem sound_of_build : board.Sound :=
  ⟨wired_of_build h, partitioned_of_build h, fun _ => counted_of_build h⟩

end Built

theorem exists_card_of_modifyCard {board : Board} {id other : TaskId} {change : Card → Card}
    {card' : Card} (h : (board.modifyCard id change).card other = .ok card') :
    ∃ card, board.card other = .ok card ∧ (card' = card ∨ card' = change card) := by
  obtain ⟨hjob, hcard⟩ := card_eq_ok_iff.mp h
  rw [modifyCard_cards, List.getElem?_modify] at hcard
  obtain ⟨card, hold, hnew⟩ := Option.map_eq_some_iff.mp hcard
  refine ⟨card, card_eq_ok_iff.mpr ⟨hjob, hold⟩, ?_⟩
  split at hnew
  · exact .inr hnew.symm
  · exact .inl hnew.symm

-- Counters look at nothing else of a card.
theorem Counted.modifyCard {board : Board} {children parents : List TaskId}
    (hc : board.Counted children parents) (id : TaskId) {change : Card → Card}
    (hfixed : ∀ card, (change card).fixed = card.fixed)
    (hplace : ∀ card, (change card).place = card.place)
    (hunmet : ∀ card, (change card).unmet = card.unmet)
    (hremaining : ∀ card, (change card).remaining = card.remaining) :
    (board.modifyCard id change).Counted children parents := by
  have hunfinished : (board.modifyCard id change).unfinished = board.unfinished :=
    unfinished_congr (placeOf_modifyCard_of_keeps hplace)
  have hparents (card : Card) : (change card).parents = card.parents :=
    congrArg (·.2.1) (hfixed card)
  have hchildren (card : Card) : (change card).children = card.children :=
    congrArg (·.2.2) (hfixed card)
  constructor <;> intro other card' hcard' <;>
    obtain ⟨card, hcard, rfl | rfl⟩ := exists_card_of_modifyCard hcard'
  · rw [hunfinished, hc.unmet other _ hcard]
  · rw [hunfinished, hunmet, hparents, hc.unmet other card hcard]
  · rw [hunfinished, hc.remaining other _ hcard]
  · rw [hunfinished, hremaining, hchildren, hc.remaining other card hcard]
  · exact hc.blocked other _ hcard
  · rw [hplace, hunmet]
    exact hc.blocked other card hcard

namespace Sound

variable {board : Board} (hs : board.Sound)
include hs

theorem relocate {id : TaskId} {source target : Place} (h : board.placeOf id = .ok source)
    (hsource : source.isPartition) (htarget : target.isPartition) :
    (board.relocate id source target).Sound where
  wired := hs.wired.congr (.relocate board id source target)
  partitioned := hs.partitioned.relocate h (Place.ne_done_of_isPartition hsource) target
  counted hfailed := (hs.counted (by simpa using hfailed)).relocate h hsource htarget

theorem finish {board' : Board} {id : TaskId} {source : Place} {promoted : List TaskId}
    (hsource : source.isPartition) (h : board.finish id source = .ok (board', promoted)) :
    board'.Sound := by
  have hplace := placeOf_of_finish h
  obtain ⟨final, promoted', hfinal, hpromotes⟩ := finish_promotes hs.wired hplace
  rw [h] at hfinal
  cases hfinal
  have hmoved := hs.partitioned.relocate hplace (Place.ne_done_of_isPartition hsource) .done
  refine ⟨?_, hpromotes.partitioned hmoved, fun hfailed => ?_⟩
  · exact hs.wired.congr ((SameTasks.relocate board id source .done).trans hpromotes.same)
  · rw [hpromotes.failed, relocate_failed] at hfailed
    exact (hs.counted hfailed).finish hs.wired hsource h

theorem modifyCard (id : TaskId) {change : Card → Card}
    (hfixed : ∀ card, (change card).fixed = card.fixed)
    (hplace : ∀ card, (change card).place = card.place)
    (hunmet : ∀ card, (change card).unmet = card.unmet)
    (hremaining : ∀ card, (change card).remaining = card.remaining) :
    (board.modifyCard id change).Sound where
  wired := hs.wired.congr (.modifyCard board id change hfixed)
  partitioned := hs.partitioned.modifyCard id hplace
  counted hfailed := (hs.counted hfailed).modifyCard id hfixed hplace hunmet hremaining

theorem setPriority (priority : Priority) : (board.setPriority priority).Sound :=
  ⟨⟨hs.wired.1, hs.wired.2, hs.wired.3, hs.wired.4⟩, ⟨hs.partitioned.1, hs.partitioned.2⟩,
    fun hfailed => ⟨(hs.counted hfailed).1, (hs.counted hfailed).2, (hs.counted hfailed).3⟩⟩

theorem fail : board.fail.1.Sound :=
  ⟨hs.wired.congr (sameTasks_fail board), hs.partitioned.fail, fun hfailed => by simp at hfailed⟩

theorem teardown : board.teardown.1.Sound :=
  ⟨hs.wired.congr (sameTasks_teardown board), hs.partitioned.teardown, fun hfailed => by simp at hfailed⟩

theorem applyStatuses (statuses : SortedMap TaskId TaskStatus) :
    (board.applyStatuses statuses).1.Sound :=
  applyStatuses_induction (motive := Sound) hs
    (fun _ _ _ _ h hplace hswaps =>
      h.relocate hplace hswaps.isPartition.1 hswaps.isPartition.2) statuses

-- Moves made one after the other come to the same as all of them at once.
theorem applyStatuses_eq_redirected (statuses : SortedMap TaskId TaskStatus) :
    (board.applyStatuses statuses).1 = board.redirected statuses := by
  have hnext := hs.applyStatuses statuses
  have hsame := sameTasks_applyStatuses board statuses
  have hcards := cards_applyStatuses statuses hs.wired
  have hpartition (place : Place) (hplace : place.isPartition) :
      (board.applyStatuses statuses).1.partition place =
        SortedSet.ofList ((board.redirected statuses).idsAt place) := by
    rw [hnext.partitioned.partition_eq hnext.wired hplace, idsAt, idsAt, hcards]
  have heligible : (board.applyStatuses statuses).1.eligible = (board.redirected statuses).eligible :=
    hpartition .eligible rfl
  have hpaused : (board.applyStatuses statuses).1.paused = (board.redirected statuses).paused :=
    hpartition .paused rfl
  exact (Board.mk.injEq ..).mpr ⟨hsame.job, priority_applyStatuses board statuses, hsame.kind, hcards,
    heligible, running_applyStatuses board statuses, hpaused, done_applyStatuses board statuses,
    failed_applyStatuses board statuses⟩

-- A task that has started or may start waits for nobody.
theorem parents_done (hfailed : board.failed = false) {id : TaskId} {card : Card}
    (hcard : board.card id = .ok card) (hplace : card.place ≠ .blocked) {parent : TaskId}
    (hparent : parent ∈ card.parents) : board.placeOf parent = .ok .done := by
  have hcounted := hs.counted hfailed
  have hunmet : card.unmet = 0 := Decidable.byContradiction fun hne =>
    hplace ((hcounted.blocked id card hcard).mpr hne)
  have hnone := hcounted.unmet id card hcard
  rw [hunmet, List.count_nil, Nat.add_zero, eq_comm, List.countP_eq_zero] at hnone
  obtain ⟨other, hother⟩ := hs.wired.card_of_parent (Wired.mem_of_card hcard) hparent
  have hdone := hnone parent hparent
  rw [unfinished_of_placeOf (placeOf_of_card hother)] at hdone
  rw [placeOf_of_card hother]
  simpa using hdone

-- A blocked task waits for somebody.
theorem exists_unfinished_parent (hfailed : board.failed = false) {id : TaskId} {card : Card}
    (hcard : board.card id = .ok card) (hplace : card.place = .blocked) : ∃ parent ∈ card.parents, board.unfinished parent := by
  have hcounted := hs.counted hfailed
  have hunmet := (hcounted.blocked id card hcard).mp hplace
  rw [hcounted.unmet id card hcard, List.count_nil, Nat.add_zero] at hunmet
  exact List.countP_pos_iff.mp (Nat.pos_of_ne_zero hunmet)

theorem running_pos_iff : 0 < board.counts.running ↔ ∃ id, board.placeOf id = .ok .running := by
  change 0 < board.running.size ↔ _
  rw [SortedSet.size_eq_length_toList, List.length_pos_iff_exists_mem]
  exact exists_congr fun id => hs.partitioned.mem_running_iff

theorem done_pos_iff : 0 < board.counts.done ↔ ∃ id, board.placeOf id = .ok .done := by
  change 0 < board.done ↔ _
  rw [hs.partitioned.done_eq, countAt, List.countP_pos_iff]
  constructor
  · rintro ⟨card, hmem, hdone⟩
    exact ⟨card.id, (placeOf_of_card (hs.wired.card_id_of_mem hmem)).trans
      (congrArg Except.ok (beq_iff_eq.mp hdone))⟩
  · rintro ⟨id, hdone⟩
    obtain ⟨card, hcard, hplace⟩ := placeOf_eq_ok_iff.mp hdone
    exact ⟨card, Wired.mem_of_card hcard, beq_iff_eq.mpr hplace⟩

theorem not_running (hnone : board.counts.running = 0) (id : TaskId) : board.placeOf id ≠ .ok .running :=
  fun hid => Nat.ne_of_gt (hs.running_pos_iff.mpr ⟨id, hid⟩) hnone

end Sound

end JobScheduler.Board
