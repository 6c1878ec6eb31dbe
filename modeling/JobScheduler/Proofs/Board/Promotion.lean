import JobScheduler.Proofs.Board.Partition
import JobScheduler.Proofs.Board.Wiring

namespace JobScheduler.Board

-- Some blocked tasks have become eligible and nothing else has moved.
structure Promotes (board board' : Board) (promoted : List TaskId) : Prop where
  same : board.SameTasks board'
  failed : board'.failed = board.failed
  priority : board'.priority = board.priority
  nodup : promoted.Nodup
  blocked : ∀ id ∈ promoted, board.placeOf id = .ok .blocked
  place : ∀ id, board'.placeOf id = if id ∈ promoted then .ok .eligible else board.placeOf id
  load : board'.load = board.load
  partitioned : board.Partitioned → board'.Partitioned

theorem Promotes.refl (board : Board) : board.Promotes board [] :=
  ⟨.refl board, rfl, rfl, .nil, by simp, by simp, rfl, id⟩

-- A change that keeps places, tasks and links promotes nothing.
theorem Promotes.modifyCard {board board' : Board} {promoted : List TaskId}
    (h : board.Promotes board' promoted) (id : TaskId) (change : Card → Card)
    (hplace : ∀ card, (change card).place = card.place)
    (hfixed : ∀ card, (change card).fixed = card.fixed) :
    board.Promotes (board'.modifyCard id change) promoted where
  same := h.same.trans (.modifyCard board' id change hfixed)
  failed := h.failed
  priority := h.priority
  nodup := h.nodup
  blocked := h.blocked
  place := by rw [placeOf_modifyCard_of_keeps hplace]; exact h.place
  load := by
    rw [load_modifyCard_of_keeps board' id hplace fun card => congrArg Prod.fst (hfixed card)]
    exact h.load
  partitioned hp := (h.partitioned hp).modifyCard id hplace

theorem load_relocate_blocked {board : Board} {id : TaskId} {target : Place}
    (h : board.placeOf id = .ok .blocked) (htarget : target ≠ .running) :
    (board.relocate id .blocked target).load = board.load := by
  obtain ⟨card, hcard, hplace⟩ := placeOf_eq_ok_iff.mp h
  have hload := load_relocate hcard target
  rw [hplace] at hload
  simpa [htarget] using hload

theorem Promotes.relocate {board board' : Board} {promoted : List TaskId}
    (h : board.Promotes board' promoted) {id : TaskId} (hid : board'.placeOf id = .ok .blocked) :
    board.Promotes (board'.relocate id .blocked .eligible) (promoted ++ [id]) := by
  have hnew : id ∉ promoted := by
    intro hmem
    have hplace := h.place id
    rw [if_pos hmem, hid] at hplace
    cases hplace
  have hold : board.placeOf id = .ok .blocked := by
    have hplace := h.place id
    rwa [if_neg hnew, hid, eq_comm] at hplace
  constructor
  · exact h.same.trans (.relocate board' id .blocked .eligible)
  · simp [h.failed]
  · simp [h.priority]
  · exact List.nodup_append.mpr ⟨h.nodup, by simp, by
      intro a ha b hb heq
      rw [heq, List.mem_singleton.mp hb] at ha
      exact hnew ha⟩
  · intro other hother
    rcases List.mem_append.mp hother with hother | hother
    · exact h.blocked other hother
    · rw [List.mem_singleton.mp hother]
      exact hold
  · intro other
    rw [placeOf_relocate .eligible hid, h.place]
    by_cases heq : other = id <;> simp [heq]
  · rw [load_relocate_blocked hid (by simp), h.load]
  · intro hp
    exact (h.partitioned hp).relocate hid (by simp) .eligible

theorem card_modifyCard_self {board : Board} {id : TaskId} {card : Card}
    (h : board.card id = .ok card) (change : Card → Card) :
    (board.modifyCard id change).card id = .ok (change card) := by
  rw [card_modifyCard change (card_eq_ok_iff.mp h).1, if_pos rfl, h]
  rfl

theorem notifyChild_eq {board : Board} {child : TaskId} {card : Card}
    (h : board.card child = .ok card) (promoted : List TaskId) :
    notifyChild (board, promoted) child =
      if card.unmet - 1 = 0 ∧ card.place = .blocked then
        ((board.modifyCard child meetParent).relocate child .blocked .eligible, promoted ++ [child])
      else (board.modifyCard child meetParent, promoted) := by
  have hcard := (card_eq_ok_iff.mp (card_modifyCard_self h meetParent)).2
  simp only [notifyChild, hcard]
  rfl

theorem Promotes.notifyChild {board board' : Board} {promoted : List TaskId}
    (h : board.Promotes board' promoted) {child : TaskId} {card : Card}
    (hcard : board'.card child = .ok card) :
    board.Promotes (notifyChild (board', promoted) child).1
      (notifyChild (board', promoted) child).2 := by
  have hmet := h.modifyCard child meetParent (fun _ => rfl) (fun _ => rfl)
  rw [notifyChild_eq hcard]
  split
  · rename_i hpromote
    have hplace := placeOf_of_card (card_modifyCard_self hcard meetParent)
    exact hmet.relocate (hplace.trans (congrArg _ hpromote.2))
  · exact hmet

theorem Promotes.foldl_notifyChild {board board' : Board} {promoted : List TaskId}
    (h : board.Promotes board' promoted) {children : List TaskId}
    (hknown : ∀ child ∈ children, ∃ card, board.card child = .ok card) :
    board.Promotes (children.foldl Board.notifyChild (board', promoted)).1
      (children.foldl Board.notifyChild (board', promoted)).2 := by
  induction children generalizing board' promoted with
  | nil => exact h
  | cons child rest ih =>
      obtain ⟨hchild, hrest⟩ := List.forall_mem_cons.mp hknown
      obtain ⟨card, hcard⟩ := hchild
      obtain ⟨card', hcard', -⟩ := h.same.card hcard
      exact ih (h.notifyChild hcard') hrest

theorem Promotes.foldl_notifyParent {board board' : Board} {promoted : List TaskId}
    (h : board.Promotes board' promoted) (parents : List TaskId) :
    board.Promotes (parents.foldl notifyParent board') promoted := by
  induction parents generalizing board' with
  | nil => exact h
  | cons parent rest ih => exact ih (h.modifyCard parent settleChild (fun _ => rfl) (fun _ => rfl))

-- The children are told in order, then the parents.
theorem finish_eq {board : Board} {id : TaskId} {card : Card} (h : board.card id = .ok card) :
    board.finish id card.place =
      let moved := board.relocate id card.place .done
      let told := card.children.foldl notifyChild (moved, [])
      if board.kind = .taskFlow then .ok (card.parents.foldl notifyParent told.1, told.2)
      else .ok (moved, []) := by
  have hplace := placeOf_of_card h
  have hmoved : (board.relocate id card.place .done).card id = .ok (put .done card) := by
    rw [card_relocate .done hplace, if_pos rfl, h]
    rfl
  unfold finish
  rw [move_of_placeOf .done hplace]
  by_cases hkind : board.kind = .taskFlow <;>
    simp [bind, Except.bind, pure, Except.pure, hmoved, hkind, put]

theorem placeOf_of_finish {board : Board} {id : TaskId} {source : Place} {result : Board × List TaskId}
    (h : board.finish id source = .ok result) : board.placeOf id = .ok source := by
  cases hmove : board.move id source .done with
  | error fault => simp [finish, hmove, bind, Except.bind] at h
  | ok moved => exact (move_eq_ok_iff.mp hmove).1

-- A task can be killed where it has a partition.
theorem kill_eq_ok_iff {board : Board} {id : TaskId} {result : Board × List TaskId} :
    board.kill id = .ok result ↔
      ∃ place, board.placeOf id = .ok place ∧ place.isPartition ∧ board.finish id place = .ok result := by
  unfold kill
  cases board.placeOf id with
  | error fault => simp [bind, Except.bind]
  | ok place =>
      cases place <;>
        simp [bind, Except.bind, throw, throwThe, MonadExceptOf.throw, Place.isPartition]

-- A task that terminates goes to done, and after that only blocked tasks move.
theorem finish_promotes {board : Board} (hw : board.Wired) {id : TaskId} {source : Place}
    (h : board.placeOf id = .ok source) :
    ∃ board' promoted, board.finish id source = .ok (board', promoted) ∧
      (board.relocate id source .done).Promotes board' promoted := by
  obtain ⟨card, hcard, rfl⟩ := placeOf_eq_ok_iff.mp h
  have hsame := SameTasks.relocate board id card.place .done
  have hknown (child : TaskId) (hchild : child ∈ card.children) :
      ∃ other, (board.relocate id card.place .done).card child = .ok other := by
    obtain ⟨other, hother⟩ := hw.card_of_child (Wired.mem_of_card hcard) hchild
    obtain ⟨other', hother', -⟩ := hsame.card hother
    exact ⟨other', hother'⟩
  rw [finish_eq hcard]
  dsimp only
  split
  · exact ⟨_, _, rfl, ((Promotes.refl _).foldl_notifyChild hknown).foldl_notifyParent _⟩
  · exact ⟨_, _, rfl, .refl _⟩

end JobScheduler.Board
