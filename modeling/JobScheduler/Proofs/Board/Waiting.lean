import Mathlib.Logic.Function.Iterate
import JobScheduler.Proofs.Board.History

namespace JobScheduler.Board

-- What the news that a parent has terminated makes of a card.
def told (card : Card) : Card :=
  if (meetParent card).unmet = 0 ∧ card.place = .blocked then put .eligible (meetParent card)
  else meetParent card

section Told

variable {board : Board}

theorem card_notifyChild {child : TaskId} {card : Card} (h : board.card child = .ok card)
    (promoted : List TaskId) (other : TaskId) :
    (notifyChild (board, promoted) child).1.card other =
      if other = child then (board.card other).map told else board.card other := by
  have hjob := (card_eq_ok_iff.mp h).1
  have hmet (other : TaskId) : (board.modifyCard child meetParent).card other =
      if other = child then (board.card other).map meetParent else board.card other :=
    card_modifyCard meetParent hjob other
  have hplace := placeOf_of_card (card_modifyCard_self h meetParent)
  rw [notifyChild_eq h]
  split
  · rename_i hpromote
    have hblocked : (board.modifyCard child meetParent).placeOf child = .ok .blocked :=
      hplace.trans (congrArg _ hpromote.2)
    rw [card_relocate .eligible hblocked, hmet]
    by_cases heq : other = child
    · subst heq
      simp [h, Except.map, told, meetParent, hpromote]
    · simp [heq]
  · rename_i hstays
    rw [hmet]
    by_cases heq : other = child
    · subst heq
      simp [h, Except.map, told, meetParent, hstays]
    · simp [heq]

-- A card hears the news as often as its task is among the children.
theorem card_foldl_notifyChild {children : List TaskId} (promoted : List TaskId)
    (hknown : ∀ child ∈ children, ∃ card, board.card child = .ok card) {other : TaskId} {card : Card}
    (h : board.card other = .ok card) :
    (children.foldl notifyChild (board, promoted)).1.card other =
      .ok (told^[children.count other] card) := by
  induction children generalizing board promoted card with
  | nil => exact h
  | cons child rest ih =>
      obtain ⟨⟨first, hfirst⟩, hrest⟩ := List.forall_mem_cons.mp hknown
      have hcards := card_notifyChild hfirst promoted
      have hknown' (next : TaskId) (hnext : next ∈ rest) :
          ∃ card, (notifyChild (board, promoted) child).1.card next = .ok card := by
        obtain ⟨old, hold⟩ := hrest next hnext
        rw [hcards, hold]
        split
        · exact ⟨told old, rfl⟩
        · exact ⟨old, rfl⟩
      rw [List.foldl_cons]
      by_cases heq : other = child
      · subst heq
        have hnext := (hcards other).trans (if_pos rfl)
        rw [h] at hnext
        rw [List.count_cons_self, Function.iterate_succ_apply]
        exact ih _ hknown' hnext
      · rw [List.count_cons_of_ne (Ne.symm heq)]
        exact ih _ hknown' (by rw [hcards, if_neg heq, h])

theorem told_iterate (times : Nat) {card : Card} (hwaits : card.place = .blocked → 0 < card.unmet) :
    (told^[times] card).parents = card.parents ∧ (told^[times] card).unmet = card.unmet - times ∧
      ((told^[times] card).place = .blocked ↔ card.place = .blocked ∧ times < card.unmet) := by
  induction times generalizing card with
  | zero => exact ⟨rfl, rfl, ⟨fun h => ⟨h, hwaits h⟩, And.left⟩⟩
  | succ times ih =>
      rw [Function.iterate_succ_apply]
      by_cases hlast : card.unmet - 1 = 0 ∧ card.place = .blocked
      · have heq : told card = put .eligible (meetParent card) := if_pos hlast
        have htold : (told card).place = .blocked → 0 < (told card).unmet := by simp [heq]
        obtain ⟨hparents, hunmet, hblocked⟩ := ih htold
        refine ⟨by rw [hparents, heq]; rfl, ?_, ?_⟩
        · rw [hunmet, heq]
          simp only [put, meetParent]
          omega
        · rw [hblocked, heq]
          simp only [put_place, reduceCtorEq, false_and, false_iff, not_and]
          omega
      · have heq : told card = meetParent card := if_neg hlast
        have hleft : (told card).place = .blocked → 0 < (told card).unmet := by
          rw [heq]
          intro hplace
          exact Nat.pos_of_ne_zero fun hzero => hlast ⟨hzero, hplace⟩
        obtain ⟨hparents, hunmet, hblocked⟩ := ih hleft
        refine ⟨by rw [hparents, heq]; rfl, ?_, ?_⟩
        · rw [hunmet, heq]
          simp only [meetParent]
          omega
        · rw [hblocked, heq]
          simp only [meetParent]
          refine and_congr_right fun _ => ?_
          omega

end Told

theorem exists_card_modifyCard {board : Board} {other : TaskId} {card : Card}
    (h : board.card other = .ok card) (id : TaskId) (change : Card → Card) :
    ∃ card', (board.modifyCard id change).card other = .ok card' ∧
      (card' = card ∨ card' = change card) := by
  obtain ⟨hjob, hcard⟩ := card_eq_ok_iff.mp h
  by_cases heq : id.index = other.index
  · refine ⟨change card, card_eq_ok_iff.mpr ⟨hjob, ?_⟩, .inr rfl⟩
    simp [heq, hcard]
  · refine ⟨card, card_eq_ok_iff.mpr ⟨hjob, ?_⟩, .inl rfl⟩
    simp [heq, hcard]

-- Parents count no more than their unfinished children.
theorem card_foldl_notifyParent {board : Board} (parents : List TaskId) {other : TaskId} {card : Card}
    (h : board.card other = .ok card) :
    ∃ card', (parents.foldl notifyParent board).card other = .ok card' ∧
      card'.parents = card.parents ∧ card'.unmet = card.unmet ∧ card'.place = card.place := by
  induction parents generalizing board card with
  | nil => exact ⟨card, h, rfl, rfl, rfl⟩
  | cons parent rest ih =>
      obtain ⟨next, hnext, rfl | rfl⟩ := exists_card_modifyCard h parent settleChild
      · exact ih hnext
      · have hsettled := ih hnext
        exact hsettled

-- Every blocked task has a parent to wait for.
def Waiting (board : Board) : Prop :=
  ∀ id card, board.card id = .ok card → card.place = .blocked → 0 < card.unmet

-- A termination takes its links off the cards of the children. Blocked are after it the
-- tasks that were and have links left.
theorem card_of_finish {board board' : Board} (hw : board.Wired) (hwaits : board.Waiting)
    {id : TaskId} {source : Place} (hsource : source ≠ .blocked) {promoted : List TaskId}
    (h : board.finish id source = .ok (board', promoted)) {other : TaskId} {card : Card}
    (hcard : board.card other = .ok card) :
    ∃ card', board'.card other = .ok card' ∧ card'.parents = card.parents ∧
      card'.unmet = card.unmet - card.parents.count id ∧
      (card'.place = .blocked ↔ card.place = .blocked ∧ card.parents.count id < card.unmet) := by
  have hplace := placeOf_of_finish h
  obtain ⟨self, hself, rfl⟩ := placeOf_eq_ok_iff.mp hplace
  have hmem := Wired.mem_of_card hself
  obtain ⟨moved, hmoved, -⟩ := (SameTasks.relocate board id self.place .done).card hcard
  obtain ⟨old, hold, hparents, -, hunmet, -, hblocked⟩ :=
    exists_card_of_relocate hplace hsource (by simp) hmoved
  rw [hcard] at hold
  cases hold
  have hmovedWaits (hb : moved.place = .blocked) : 0 < moved.unmet := by
    rw [hunmet]
    exact hwaits other card hcard (hblocked.mp hb)
  rw [finish_eq hself] at h
  dsimp only at h
  split at h
  · cases h
    have hknown (child : TaskId) (hchild : child ∈ self.children) :
        ∃ card, (board.relocate id self.place .done).card child = .ok card := by
      obtain ⟨old, hold⟩ := hw.card_of_child hmem hchild
      obtain ⟨new, hnew, -⟩ := (SameTasks.relocate board id self.place .done).card hold
      exact ⟨new, hnew⟩
    have hcount : self.children.count other = card.parents.count id := by
      have hcount := hw.count_children hmem (Wired.mem_of_card hcard)
      rwa [hw.id_of_card hself, hw.id_of_card hcard] at hcount
    have htold := card_foldl_notifyChild [] hknown hmoved
    obtain ⟨hparents', hunmet', hblocked'⟩ :=
      told_iterate (self.children.count other) hmovedWaits
    obtain ⟨card', hcard', hparents'', hunmet'', hplace''⟩ :=
      card_foldl_notifyParent self.parents htold
    refine ⟨card', hcard', ?_, ?_, ?_⟩
    · rw [hparents'', hparents', hparents]
    · rw [hunmet'', hunmet', hunmet, hcount]
    · rw [hplace'', hblocked', hblocked, hunmet, hcount]
  · rename_i hkind
    cases h
    -- Without links there is nobody to tell.
    have hnone : card.parents = [] := by
      rw [hw.parents card (Wired.mem_of_card hcard), if_neg hkind]
    refine ⟨moved, hmoved, hparents, by simp [hunmet, hnone], ?_⟩
    rw [hblocked, hnone, List.count_nil]
    exact ⟨fun hb => ⟨hb, hwaits other card hcard hb⟩, And.left⟩

-- What comes of a call: a task that has started or may start moves on or terminates, or
-- the call does something else of its own, or it is refused.
inductive Effect (board : Board) : Board → Prop
  | refused : Effect board board
  | moved (id : TaskId) (source target : Place) (hplace : board.placeOf id = .ok source)
      (hsource : source.isPartition) (htarget : target.isPartition)
      (hopen : source = .paused → board.failed = false) : Effect board (board.relocate id source target)
  | finished (id : TaskId) (source : Place) (hsource : source.isPartition) {board' : Board}
      {promoted : List TaskId} (hfinish : board.finish id source = .ok (board', promoted)) :
      Effect board board'
  | tried (id : TaskId) : Effect board (board.modifyCard id tryOnce)
  | restated (statuses : SortedMap TaskId TaskStatus) : Effect board (board.applyStatuses statuses).1
  | reprioritized (priority : Priority) : Effect board (board.setPriority priority)
  | failed : Effect board board.fail.1
  | tornDown : Effect board board.teardown.1

theorem effect_of_move {board board' : Board} {id : TaskId} {source target : Place}
    (hsource : source.isPartition) (htarget : target.isPartition)
    (hopen : source = .paused → board.failed = false) (h : board.move id source target = .ok board') :
    board.Effect board' := by
  obtain ⟨hplace, rfl⟩ := move_eq_ok_iff.mp h
  exact .moved id source target hplace hsource htarget hopen

theorem effect_of_finish {board board' : Board} {id : TaskId} {source : Place}
    (hsource : source.isPartition) (h : (board.finish id source).map (·.1) = .ok board') :
    board.Effect board' := by
  cases hfinish : board.finish id source with
  | error fault => simp [hfinish, Except.map] at h
  | ok result =>
      rw [hfinish] at h
      cases h
      exact .finished id source hsource hfinish

theorem effect_of_carryOut {board board' : Board} {call : Call} (h : board.carryOut call = .ok board') :
    board.Effect board' := by
  cases call with
  | start id | pause id | restart id | pauseOnError id => exact effect_of_move rfl rfl (by simp) h
  | resume id =>
      cases hfailed : board.failed with
      | true => simp [carryOut, resume, hfailed] at h
      | false =>
          rw [carryOut, resume_eq_move hfailed] at h
          exact effect_of_move rfl rfl (fun _ => hfailed) h
  | terminate id | terminateInError id => exact effect_of_finish rfl h
  | kill id =>
      cases hkill : board.kill id with
      | error fault => simp [carryOut, hkill, Except.map] at h
      | ok result =>
          obtain ⟨place, -, hplace, hfinish⟩ := kill_eq_ok_iff.mp hkill
          rw [carryOut, hkill, ← hfinish] at h
          exact effect_of_finish hplace h
  | recordAttempt id =>
      rw [carryOut, recordAttempt_eq] at h
      cases hcard : board.card id with
      | error fault => simp [hcard, Except.map] at h
      | ok card =>
          rw [hcard] at h
          cases h
          exact .tried id
  | applyStatuses statuses => cases h; exact .restated statuses
  | setPriority priority => cases h; exact .reprioritized priority
  | fail => cases h; exact .failed
  | teardown => cases h; exact .tornDown

theorem effect_of_obey (board : Board) (call : Call) : board.Effect (board.obey call) := by
  unfold obey
  cases h : board.carryOut call with
  | error fault => exact .refused
  | ok board' => exact effect_of_carryOut h

-- Links and counts are as before, and no task has been blocked anew.
def Untold (board board' : Board) : Prop :=
  ∀ id card', board'.card id = .ok card' → ∃ card, board.card id = .ok card ∧
    card'.parents = card.parents ∧ card'.unmet = card.unmet ∧
    (card'.place = .blocked → card.place = .blocked)

theorem Untold.trans {a b c : Board} (h : a.Untold b) (h' : b.Untold c) : a.Untold c := by
  intro id card hcard
  obtain ⟨mid, hmid, hparents', hunmet', hblocked'⟩ := h' id card hcard
  obtain ⟨first, hfirst, hparents, hunmet, hblocked⟩ := h id mid hmid
  exact ⟨first, hfirst, hparents'.trans hparents, hunmet'.trans hunmet, hblocked ∘ hblocked'⟩

theorem untold_of_card_eq {a b : Board} (h : b.card = a.card) : a.Untold b := by
  intro id card hcard
  exact ⟨card, h ▸ hcard, rfl, rfl, fun hblocked => hblocked⟩

theorem untold_relocate {board : Board} {id : TaskId} {source target : Place}
    (h : board.placeOf id = .ok source) (hsource : source ≠ .blocked) (htarget : target ≠ .blocked) :
    board.Untold (board.relocate id source target) := by
  intro other card' hcard'
  obtain ⟨card, hcard, hparents, -, hunmet, -, hblocked⟩ :=
    exists_card_of_relocate h hsource htarget hcard'
  exact ⟨card, hcard, hparents, hunmet, hblocked.mp⟩

theorem untold_modifyCard (board : Board) (id : TaskId) {change : Card → Card}
    (hparents : ∀ card, (change card).parents = card.parents)
    (hunmet : ∀ card, (change card).unmet = card.unmet)
    (hblocked : ∀ card, (change card).place = .blocked → card.place = .blocked) :
    board.Untold (board.modifyCard id change) := by
  intro other card' hcard'
  obtain ⟨card, hcard, rfl | rfl⟩ := exists_card_of_modifyCard hcard'
  · exact ⟨card', hcard, rfl, rfl, fun hblocked => hblocked⟩
  · exact ⟨card, hcard, hparents card, hunmet card, hblocked card⟩

theorem untold_putAll_done (board : Board) (ids : List TaskId) :
    board.Untold (board.putAll .done ids) := by
  induction ids generalizing board with
  | nil => exact untold_of_card_eq rfl
  | cons id rest ih =>
      have hput : board.Untold (board.modifyCard id (put .done)) :=
        untold_modifyCard board id (fun _ => rfl) (fun _ => rfl) (by simp)
      exact hput.trans (ih _)

theorem untold_fail (board : Board) : board.Untold board.fail.1 :=
  (untold_putAll_done board (board.eligible.toList ++ board.running.toList)).trans
    (untold_of_card_eq (card_congr rfl rfl))

theorem untold_applyStatuses (board : Board) (statuses : SortedMap TaskId TaskStatus) :
    board.Untold (board.applyStatuses statuses).1 :=
  applyStatuses_induction (motive := board.Untold) (untold_of_card_eq rfl)
    (fun _ _ _ _ h hplace hswaps => h.trans (untold_relocate hplace
      (Place.ne_blocked_of_isPartition hswaps.isPartition.1)
      (Place.ne_blocked_of_isPartition hswaps.isPartition.2))) statuses

theorem untold_teardown (board : Board) : board.Untold board.teardown.1 := by
  refine ((untold_fail board).trans (untold_putAll_done _ board.fail.1.paused.toList)).trans ?_
  intro id card' hcard'
  obtain ⟨hjob, hindex⟩ := card_eq_ok_iff.mp hcard'
  rw [teardown_cards, List.getElem?_map] at hindex
  obtain ⟨card, hcard, rfl⟩ := Option.map_eq_some_iff.mp hindex
  refine ⟨card, card_eq_ok_iff.mpr ⟨hjob, hcard⟩, ?_⟩
  unfold abandonBlocked
  split <;> simp [put]

theorem Waiting.untold {a b : Board} (h : a.Waiting) (huntold : a.Untold b) : b.Waiting := by
  intro id card hcard hplace
  obtain ⟨old, hold, -, hunmet, hblocked⟩ := huntold id card hcard
  rw [hunmet]
  exact h id old hold (hblocked hplace)

theorem Waiting.finish {board board' : Board} (hwaits : board.Waiting) (hw : board.Wired)
    {id : TaskId} {source : Place} (hsource : source ≠ .blocked) {promoted : List TaskId}
    (h : board.finish id source = .ok (board', promoted)) (hsame : board.SameTasks board') :
    board'.Waiting := by
  intro other card hcard hplace
  obtain ⟨old, hold, -⟩ := hsame.symm.card hcard
  obtain ⟨card', hcard', -, hunmet, hblocked⟩ := card_of_finish hw hwaits hsource h hold
  rw [hcard] at hcard'
  cases hcard'
  have hleft := (hblocked.mp hplace).2
  omega

-- Nothing that is asked of a board leaves a task blocked with no parent to wait for.
theorem Waiting.obey {board : Board} (hs : board.Sound) (hwaits : board.Waiting) (call : Call) :
    (board.obey call).Waiting := by
  have heffect := effect_of_obey board call
  have hsame := (obeyed hs call).2.1
  revert heffect hsame
  generalize board.obey call = board'
  intro heffect hsame
  cases heffect with
  | refused => exact hwaits
  | moved id source target hplace hsource htarget =>
      exact hwaits.untold (untold_relocate hplace (Place.ne_blocked_of_isPartition hsource)
        (Place.ne_blocked_of_isPartition htarget))
  | finished id source hsource hfinish =>
      exact hwaits.finish hs.wired (Place.ne_blocked_of_isPartition hsource) hfinish hsame
  | tried id =>
      exact hwaits.untold (untold_modifyCard board id (fun _ => rfl) (fun _ => rfl) fun _ h => h)
  | restated statuses => exact hwaits.untold (untold_applyStatuses board statuses)
  | reprioritized priority => exact hwaits.untold (untold_of_card_eq (card_congr rfl rfl))
  | failed => exact hwaits.untold (untold_fail board)
  | tornDown => exact hwaits.untold (untold_teardown board)

theorem waiting_of_build {job : JobId} {priority : Priority} {kind : JobKind} {tasks : List PlannedTask}
    {board : Board} (h : build job priority kind tasks = .ok board) : board.Waiting := by
  intro id card hcard hplace
  exact Nat.pos_of_ne_zero (((counted_of_build h).blocked id card hcard).mp hplace)

theorem Waiting.obeyAll {board : Board} (hs : board.Sound) (hwaits : board.Waiting)
    (calls : List Call) : (board.obeyAll calls).Waiting := by
  induction calls generalizing board with
  | nil => exact hwaits
  | cons call rest ih => exact ih (obeyed hs call).1 (hwaits.obey hs call)

end JobScheduler.Board
