import JobScheduler.Proofs.Board.Promotion

namespace JobScheduler.Board

-- Whether a task is there and has not terminated.
def unfinished (board : Board) (id : TaskId) : Bool :=
  match board.placeOf id with
  | .ok place => place != .done
  | .error _ => false

-- Every card counts its unfinished parents and children, and the blocked tasks are those
-- with an unfinished parent. A parent whose termination one of `children` has not been
-- told of, or a child that one of `parents` has not been told of, still counts.
structure Counted (board : Board) (children parents : List TaskId) : Prop where
  unmet : ∀ id card, board.card id = .ok card →
    card.unmet = card.parents.countP board.unfinished + children.count id
  remaining : ∀ id card, board.card id = .ok card →
    card.remaining = card.children.countP board.unfinished + parents.count id
  blocked : ∀ id card, board.card id = .ok card → (card.place = .blocked ↔ card.unmet ≠ 0)

theorem unfinished_congr {a b : Board} (h : a.placeOf = b.placeOf) : a.unfinished = b.unfinished := by
  funext id
  rw [unfinished, unfinished, h]

theorem unfinished_of_placeOf {board : Board} {id : TaskId} {place : Place}
    (h : board.placeOf id = .ok place) : board.unfinished id = (place != .done) := by
  simp [unfinished, h]

theorem Promotes.unfinished {board board' : Board} {promoted : List TaskId}
    (h : board.Promotes board' promoted) : board'.unfinished = board.unfinished := by
  funext id
  by_cases hmem : id ∈ promoted
  · have hplace := h.place id
    rw [if_pos hmem] at hplace
    rw [unfinished_of_placeOf hplace, unfinished_of_placeOf (h.blocked id hmem)]
    rfl
  · rw [Board.unfinished, Board.unfinished, h.place id, if_neg hmem]

-- Moves between places other than done leave tasks unfinished.
theorem unfinished_relocate {board : Board} {id : TaskId} {source target : Place}
    (h : board.placeOf id = .ok source) (hsource : source ≠ .done) (htarget : target ≠ .done) :
    (board.relocate id source target).unfinished = board.unfinished := by
  funext other
  by_cases ho : other = id
  · subst ho
    have hmoved := (placeOf_relocate target h other).trans (if_pos rfl)
    rw [unfinished_of_placeOf h, unfinished_of_placeOf hmoved, bne_iff_ne.mpr hsource,
      bne_iff_ne.mpr htarget]
  · simp [unfinished, placeOf_relocate target h, ho]

theorem countP_eq_add_count {ids : List TaskId} {p q : TaskId → Bool} {id : TaskId} (hp : p id = true)
    (hq : q id = false) (hothers : ∀ other, other ≠ id → q other = p other) :
    ids.countP p = ids.countP q + ids.count id := by
  induction ids with
  | nil => rfl
  | cons first rest ih =>
      rw [List.countP_cons, List.countP_cons, List.count_cons, ih]
      by_cases heq : first = id
      · subst heq
        simp [hp, hq]
        omega
      · simp [heq, hothers first heq]
        omega

theorem countP_unfinished_relocate_done {board : Board} {id : TaskId} {source : Place}
    (h : board.placeOf id = .ok source) (hsource : source ≠ .done) (ids : List TaskId) :
    ids.countP board.unfinished =
      ids.countP (board.relocate id source .done).unfinished + ids.count id := by
  have hdone := (placeOf_relocate .done h id).trans (if_pos rfl)
  refine countP_eq_add_count ?_ ?_ fun other hne => ?_
  · rw [unfinished_of_placeOf h, bne_iff_ne.mpr hsource]
  · rw [unfinished_of_placeOf hdone]
    rfl
  · simp [unfinished, placeOf_relocate .done h, hne]

-- A move changes nothing of a card but its place.
theorem exists_card_of_relocate {board : Board} {id : TaskId} {source target : Place}
    (h : board.placeOf id = .ok source) (hblocked : source ≠ .blocked) (htarget : target ≠ .blocked)
    {other : TaskId} {card' : Card} (hcard' : (board.relocate id source target).card other = .ok card') :
    ∃ card, board.card other = .ok card ∧ card'.parents = card.parents ∧
      card'.children = card.children ∧ card'.unmet = card.unmet ∧
      card'.remaining = card.remaining ∧ (card'.place = .blocked ↔ card.place = .blocked) := by
  rw [card_relocate target h] at hcard'
  split at hcard'
  · rename_i heq
    obtain ⟨card, hcard, hplace⟩ := placeOf_eq_ok_iff.mp h
    rw [heq, hcard] at hcard'
    cases hcard'
    refine ⟨card, heq ▸ hcard, rfl, rfl, rfl, rfl, ?_⟩
    simp [htarget, hplace, hblocked]
  · exact ⟨card', hcard', rfl, rfl, rfl, rfl, Iff.rfl⟩

namespace Counted

variable {board : Board} {children parents : List TaskId}

-- One card has changed in its counters or its place, and nothing has become finished.
theorem update {board' : Board} {children' parents' : List TaskId}
    (hc : board.Counted children parents) {id : TaskId} {card : Card}
    (hcard : board'.card id = .ok card)
    (hothers : ∀ other, other ≠ id → board'.card other = board.card other)
    (hunfinished : board'.unfinished = board.unfinished)
    (hchildren : ∀ other, other ≠ id → children'.count other = children.count other)
    (hparents : ∀ other, other ≠ id → parents'.count other = parents.count other)
    (hunmet : card.unmet = card.parents.countP board.unfinished + children'.count id)
    (hremaining : card.remaining = card.children.countP board.unfinished + parents'.count id)
    (hblocked : card.place = .blocked ↔ card.unmet ≠ 0) : board'.Counted children' parents' := by
  constructor <;> intro other card' hcard' <;> by_cases heq : other = id
  · subst heq
    rw [hcard, Except.ok.injEq] at hcard'
    rw [← hcard', hunfinished, hunmet]
  · rw [hothers other heq] at hcard'
    rw [hunfinished, hchildren other heq]
    exact hc.unmet other card' hcard'
  · subst heq
    rw [hcard, Except.ok.injEq] at hcard'
    rw [← hcard', hunfinished, hremaining]
  · rw [hothers other heq] at hcard'
    rw [hunfinished, hparents other heq]
    exact hc.remaining other card' hcard'
  · subst heq
    rw [hcard, Except.ok.injEq] at hcard'
    rw [← hcard']
    exact hblocked
  · rw [hothers other heq] at hcard'
    exact hc.blocked other card' hcard'

-- A task that has started or may start moves on without terminating.
theorem relocate (hc : board.Counted children parents) {id : TaskId} {source target : Place}
    (h : board.placeOf id = .ok source) (hsource : source.isPartition)
    (htarget : target.isPartition) : (board.relocate id source target).Counted children parents := by
  obtain ⟨card, hcard, rfl⟩ := placeOf_eq_ok_iff.mp h
  have hmoved : (board.relocate id card.place target).card id = .ok (put target card) := by
    rw [card_relocate target h, if_pos rfl, hcard]
    rfl
  have hstarted : card.unmet = 0 := Decidable.byContradiction fun hne =>
    Place.ne_blocked_of_isPartition hsource ((hc.blocked id card hcard).mpr hne)
  refine hc.update hmoved ?_ ?_ (fun _ _ => rfl) (fun _ _ => rfl) (hc.unmet id card hcard)
    (hc.remaining id card hcard) ?_
  · intro other hne
    rw [card_relocate target h, if_neg hne]
  · exact unfinished_relocate h (Place.ne_done_of_isPartition hsource)
      (Place.ne_done_of_isPartition htarget)
  · simp [put, hstarted, Place.ne_blocked_of_isPartition htarget]

-- When a task terminates, its children and its parents have to be told.
theorem relocate_done (hc : board.Counted [] []) (hw : board.Wired) {id : TaskId} {card : Card}
    (h : board.card id = .ok card) (hplace : card.place.isPartition) :
    (board.relocate id card.place .done).Counted card.children card.parents := by
  have hsource := placeOf_of_card h
  have hid := hw.id_of_card h
  have hmem := Wired.mem_of_card h
  have hunfinished := countP_unfinished_relocate_done hsource
    (Place.ne_done_of_isPartition hplace)
  have hcards (other : TaskId) (card' : Card)
      (h' : (board.relocate id card.place .done).card other = .ok card') :=
    exists_card_of_relocate hsource (Place.ne_blocked_of_isPartition hplace) (by simp) h'
  constructor
  · intro other card' hcard'
    obtain ⟨old, hold, hparents, -, hunmet, -, -⟩ := hcards other card' hcard'
    have hcount := hw.count_children hmem (Wired.mem_of_card hold)
    rw [hid, hw.id_of_card hold] at hcount
    rw [hunmet, hparents, hc.unmet other old hold, hunfinished, hcount]
    rfl
  · intro other card' hcard'
    obtain ⟨old, hold, -, hchildren, -, hremaining, -⟩ := hcards other card' hcard'
    have hcount := hw.count_children (Wired.mem_of_card hold) hmem
    rw [hid, hw.id_of_card hold] at hcount
    rw [hremaining, hchildren, hc.remaining other old hold, hunfinished, hcount]
    rfl
  · intro other card' hcard'
    obtain ⟨old, hold, -, -, hunmet, -, hblocked⟩ := hcards other card' hcard'
    rw [hunmet, hblocked]
    exact hc.blocked other old hold

-- The next child is told. Its count was not zero before, so it is blocked, and it is
-- promoted when the count comes down to zero.
theorem notifyChild {child : TaskId} {rest : List TaskId}
    (hc : board.Counted (child :: rest) parents) {card : Card} (h : board.card child = .ok card)
    (promoted : List TaskId) :
    (notifyChild (board, promoted) child).1.Counted rest parents := by
  have hjob := (card_eq_ok_iff.mp h).1
  have hunmet := hc.unmet child card h
  rw [List.count_cons_self] at hunmet
  have hblocked : card.place = .blocked := (hc.blocked child card h).mpr (by omega)
  have hmet := card_modifyCard_self h meetParent
  have hplaceMet : (board.modifyCard child meetParent).placeOf child = .ok .blocked :=
    (placeOf_of_card hmet).trans (congrArg _ hblocked)
  have hunfinished : (board.modifyCard child meetParent).unfinished = board.unfinished :=
    unfinished_congr (placeOf_modifyCard_of_keeps fun _ => rfl)
  have hrest (other : TaskId) (hne : other ≠ child) :
      rest.count other = (child :: rest).count other := (List.count_cons_of_ne hne.symm).symm
  rw [notifyChild_eq h]
  split
  · rename_i hpromote
    have hmoved : ((board.modifyCard child meetParent).relocate child .blocked .eligible).card
        child = .ok (put .eligible (meetParent card)) := by
      rw [card_relocate .eligible hplaceMet, if_pos rfl, hmet]
      rfl
    refine hc.update hmoved ?_ ?_ hrest (fun _ _ => rfl) ?_ (hc.remaining child card h) ?_
    · intro other hne
      rw [card_relocate .eligible hplaceMet, if_neg hne, card_modifyCard meetParent hjob,
        if_neg hne]
    · exact (unfinished_relocate hplaceMet (by simp) (by simp)).trans hunfinished
    · simp only [put, meetParent]
      omega
    · simp [put, meetParent, hpromote.1]
  · rename_i hstays
    have hleft : card.unmet - 1 ≠ 0 := fun hzero => hstays ⟨hzero, hblocked⟩
    refine hc.update hmet ?_ hunfinished hrest (fun _ _ => rfl) ?_ (hc.remaining child card h) ?_
    · intro other hne
      rw [card_modifyCard meetParent hjob, if_neg hne]
    · simp only [meetParent]
      omega
    · simp [meetParent, hblocked, hleft]

theorem notifyParent {parent : TaskId} {rest : List TaskId}
    (hc : board.Counted children (parent :: rest)) {card : Card}
    (h : board.card parent = .ok card) : (notifyParent board parent).Counted children rest := by
  have hremaining := hc.remaining parent card h
  rw [List.count_cons_self] at hremaining
  refine hc.update (card_modifyCard_self h settleChild) ?_ ?_ (fun _ _ => rfl) ?_
    (hc.unmet parent card h) ?_ (hc.blocked parent card h)
  · intro other hne
    rw [Board.notifyParent, card_modifyCard settleChild (card_eq_ok_iff.mp h).1, if_neg hne]
  · exact unfinished_congr (placeOf_modifyCard_of_keeps fun _ => rfl)
  · intro other hne
    exact (List.count_cons_of_ne hne.symm).symm
  · simp only [settleChild]
    omega

theorem foldl_notifyChild {base : Board} {promoted : List TaskId}
    (hpromotes : base.Promotes board promoted) (hc : board.Counted children parents)
    (hknown : ∀ child ∈ children, ∃ card, base.card child = .ok card) :
    (children.foldl Board.notifyChild (board, promoted)).1.Counted [] parents := by
  induction children generalizing board promoted with
  | nil => exact hc
  | cons child rest ih =>
      obtain ⟨⟨card, hcard⟩, hrest⟩ := List.forall_mem_cons.mp hknown
      obtain ⟨card', hcard', -⟩ := hpromotes.same.card hcard
      exact ih (hpromotes.notifyChild hcard') (hc.notifyChild hcard' promoted) hrest

theorem foldl_notifyParent {base : Board} {promoted : List TaskId}
    (hpromotes : base.Promotes board promoted) (hc : board.Counted children parents)
    (hknown : ∀ parent ∈ parents, ∃ card, base.card parent = .ok card) :
    (parents.foldl Board.notifyParent board).Counted children [] := by
  induction parents generalizing board with
  | nil => exact hc
  | cons parent rest ih =>
      obtain ⟨⟨card, hcard⟩, hrest⟩ := List.forall_mem_cons.mp hknown
      obtain ⟨card', hcard', -⟩ := hpromotes.same.card hcard
      exact ih (hpromotes.modifyCard parent settleChild (fun _ => rfl) (fun _ => rfl))
        (hc.notifyParent hcard') hrest

end Counted

-- After a termination every counter is exact again.
theorem Counted.finish {board board' : Board} {id : TaskId} {source : Place}
    {promoted : List TaskId} (hc : board.Counted [] []) (hw : board.Wired)
    (hsource : source.isPartition) (h : board.finish id source = .ok (board', promoted)) :
    board'.Counted [] [] := by
  obtain ⟨card, hcard, rfl⟩ := placeOf_eq_ok_iff.mp (placeOf_of_finish h)
  have hmem := Wired.mem_of_card hcard
  have hsame := SameTasks.relocate board id card.place .done
  have hmoved := hc.relocate_done hw hcard hsource
  rw [finish_eq hcard] at h
  dsimp only at h
  split at h
  · cases h
    have hknown {other : TaskId} (hother : ∃ old, board.card other = .ok old) :
        ∃ new, (board.relocate id card.place .done).card other = .ok new := by
      obtain ⟨old, hold⟩ := hother
      obtain ⟨new, hnew, -⟩ := hsame.card hold
      exact ⟨new, hnew⟩
    have hchildren (child : TaskId) (hchild : child ∈ card.children) :=
      hknown (hw.card_of_child hmem hchild)
    have hparents (parent : TaskId) (hparent : parent ∈ card.parents) :=
      hknown (hw.card_of_parent hmem hparent)
    have hpromotes := Promotes.refl (board.relocate id card.place .done)
    exact (hmoved.foldl_notifyChild hpromotes hchildren).foldl_notifyParent
      (hpromotes.foldl_notifyChild hchildren) hparents
  · rename_i hkind
    cases h
    -- Without links there is nobody to tell.
    have hparents (other : Card) (hother : other ∈ board.cards) : other.parents = [] := by
      rw [hw.parents other hother, if_neg hkind]
    have hchildren : card.children = [] := by
      rw [hw.children card hmem, List.flatMap_eq_nil_iff]
      intro other hother
      simp [hparents other hother]
    rwa [hchildren, hparents card hmem] at hmoved

end JobScheduler.Board
