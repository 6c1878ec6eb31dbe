import JobScheduler.Proofs.Desk.Serve
import JobScheduler.Proofs.Job.Progress

namespace JobScheduler

-- What a pass that accepts every task leaves behind needs more than is left of the budget.
theorem Selection.lt_of_not_chosen {cards : List Card} (hpos : ∀ card ∈ cards, 0 < card.resources)
    (budget : Nat) {card : Card} (hcard : card ∈ cards)
    (hnot : card ∉ (among (fun _ => true) budget cards).chosen) :
    budget - ((among (fun _ => true) budget cards).chosen.map Card.resources).sum < card.resources := by
  induction cards generalizing budget with
  | nil => cases hcard
  | cons first rest ih =>
      obtain ⟨-, hrest⟩ := List.forall_mem_cons.mp hpos
      unfold among at hnot ⊢
      by_cases hzero : budget = 0
      · rw [if_pos hzero, hzero, Nat.zero_sub]
        exact hpos card hcard
      · rw [if_neg hzero] at hnot ⊢
        by_cases hfits : first.resources ≤ budget ∧ true = true
        · rw [if_pos hfits] at hnot ⊢
          have hlater : card ∈ rest := (List.mem_cons.mp hcard).resolve_left fun heq =>
            hnot (List.mem_cons.mpr (.inl heq))
          have hbound := ih hrest (budget - first.resources) hlater fun hmem =>
            hnot (List.mem_cons_of_mem _ hmem)
          simp only [List.map_cons, List.sum_cons]
          omega
        · rw [if_neg hfits] at hnot ⊢
          rcases List.mem_cons.mp hcard with rfl | hlater
          · have hlarge : budget < card.resources := by simpa using hfits
            dsimp only
            omega
          · exact ih hrest budget hlater hnot

namespace LiveJob

-- The job after a pass over its tasks.
def served (job : LiveJob) (selection : Selection) : LiveJob :=
  selection.chosen.foldl started (selection.considered.foldl attempted job)

-- What a pass makes of the card of a task.
def serving (selection : Selection) (id : TaskId) (card : Card) : Card :=
  if id ∈ selection.chosen.map Card.id then Board.put .running (Board.tryOnce card)
  else if id ∈ selection.considered.map Card.id then Board.tryOnce card
  else card

theorem serving_resources (selection : Selection) (id : TaskId) (card : Card) :
    (serving selection id card).resources = card.resources := by
  unfold serving
  split
  · rfl
  · split <;> rfl

theorem serving_place (selection : Selection) (id : TaskId) (card : Card) :
    (serving selection id card).place =
      if id ∈ selection.chosen.map Card.id then .running else card.place := by
  unfold serving
  split
  · rfl
  · split <;> rfl

-- Every task that waits for a worker needs more slots than these.
def Starved (job : LiveJob) (free : Nat) : Prop :=
  ∀ task ∈ job.board.eligible.toList, ∃ card, job.board.card task = .ok card ∧ free < card.resources

theorem card_foldl_started {job : LiveJob} {cards : List Card} (hnodup : (cards.map Card.id).Nodup)
    (heligible : ∀ card ∈ cards, job.board.placeOf card.id = .ok .eligible) (id : TaskId) :
    (cards.foldl started job).board.card id =
      if id ∈ cards.map Card.id then (job.board.card id).map (Board.put .running)
      else job.board.card id := by
  induction cards generalizing job with
  | nil => simp
  | cons first rest ih =>
      obtain ⟨hfresh, hnodup⟩ := List.nodup_cons.mp hnodup
      obtain ⟨hfirst, hrest⟩ := List.forall_mem_cons.mp heligible
      have hlater (card : Card) (hcard : card ∈ rest) :
          (job.started first).board.placeOf card.id = .ok .eligible := by
        have hne : card.id ≠ first.id := fun heq => hfresh (heq ▸ List.mem_map_of_mem hcard)
        rw [started_board, Board.placeOf_relocate .running hfirst, if_neg hne]
        exact hrest card hcard
      rw [List.foldl_cons, ih hnodup hlater, started_board, Board.card_relocate .running hfirst]
      by_cases hid : id = first.id
      · subst hid
        simp [hfresh]
      · simp [hid]

variable {job : LiveJob} (hs : job.Sound) (accepts : Card → Bool) (budget : Nat)
include hs

theorem advances_served :
    job.Advances (job.served (Selection.among accepts budget job.board.eligibleCards)) :=
  (DeskM.run_serve ⟨budget, budget⟩ hs accepts).2.1

-- Only cards of tasks that a pass has looked at change, and of these only the places of
-- the tasks that it starts.
theorem card_served (id : TaskId) :
    (job.served (Selection.among accepts budget job.board.eligibleCards)).board.card id =
      (job.board.card id).map
        (serving (Selection.among accepts budget job.board.eligibleCards) id) := by
  have hconsidered := Selection.considered_sublist accepts budget job.board.eligibleCards
  have hchosen := Selection.chosen_sublist accepts budget job.board.eligibleCards
  generalize Selection.among accepts budget job.board.eligibleCards = selection at *
  have hnodup : (selection.considered.map Card.id).Nodup := by
    have hall : (job.board.eligibleCards.map Card.id).Nodup := by
      rw [Board.map_id_eligibleCards hs.board]
      exact SortedSet.nodup_toList _
    exact hall.sublist (hconsidered.map Card.id)
  have hknown (card : Card) (hcard : card ∈ selection.considered) :=
    Board.card_of_eligibleCards hs.board (hconsidered.subset hcard)
  have hattempted (id : TaskId) : (selection.considered.foldl attempted job).board.card id =
      if id ∈ selection.considered.map Card.id then (job.board.card id).map Board.tryOnce
      else job.board.card id :=
    card_foldl_attempted hnodup
      (fun card hcard => (Board.card_eq_ok_iff.mp (hknown card hcard).1).1) id
  have heligible (card : Card) (hcard : card ∈ selection.chosen) :
      (selection.considered.foldl attempted job).board.placeOf card.id = .ok .eligible := by
    have hmem := hchosen.subset hcard
    rw [Board.placeOf_eq, hattempted, if_pos (List.mem_map_of_mem hmem), (hknown card hmem).1]
    exact congrArg Except.ok (hknown card hmem).2
  rw [served, card_foldl_started (hnodup.sublist (hchosen.map Card.id)) heligible, hattempted]
  by_cases hin : id ∈ selection.chosen.map Card.id
  · have hlooked : id ∈ selection.considered.map Card.id := (hchosen.map Card.id).subset hin
    have hserving : serving selection id = Board.put .running ∘ Board.tryOnce := by
      funext card
      rw [serving, if_pos hin]
      rfl
    rw [if_pos hin, if_pos hlooked, hserving]
    cases job.board.card id <;> rfl
  · have hserving : serving selection id =
        if id ∈ selection.considered.map Card.id then Board.tryOnce else fun card => card := by
      funext card
      rw [serving, if_neg hin]
      split <;> rfl
    rw [if_neg hin, hserving]
    split
    · rfl
    · cases job.board.card id <;> rfl

-- A pass finishes nothing.
theorem not_isComplete_served (hopen : ¬job.board.isComplete) :
    ¬(job.served (Selection.among accepts budget job.board.eligibleCards)).board.isComplete := by
  have hserved := (advances_served hs accepts budget).sound
  obtain ⟨task, place, hplace, hne⟩ := hs.board.not_isComplete_iff.mp hopen
  obtain ⟨card, hcard, rfl⟩ := Board.placeOf_eq_ok_iff.mp hplace
  have hcard' := card_served hs accepts budget task
  rw [hcard] at hcard'
  refine hserved.board.not_isComplete_iff.mpr ⟨task, _, Board.placeOf_of_card hcard', ?_⟩
  unfold serving
  split
  · simp
  · split <;> exact hne

theorem starved_served :
    let selection := Selection.among (fun _ => true) budget job.board.eligibleCards
    (job.served selection).Starved (budget - (selection.chosen.map Card.resources).sum) := by
  intro selection task htask
  have hserved := (advances_served hs (fun _ => true) budget).sound
  obtain ⟨card', hcard', heligible⟩ :=
    Board.placeOf_eq_ok_iff.mp (hserved.board.partitioned.mem_eligible_iff.mp htask)
  refine ⟨card', hcard', ?_⟩
  have hcards := card_served hs (fun _ => true) budget task
  rw [hcard'] at hcards
  cases hcard : job.board.card task with
  | error fault =>
      rw [hcard] at hcards
      cases hcards
  | ok card =>
      rw [hcard] at hcards
      have hserving : card' = serving selection task card := Except.ok.inj hcards
      rw [hserving, serving_place] at heligible
      rw [hserving, serving_resources]
      split at heligible
      · cases heligible
      · rename_i hnot
        have hmem : card ∈ job.board.eligibleCards := by
          have hin := hs.board.partitioned.mem_eligible_iff.mpr
            ((Board.placeOf_of_card hcard).trans (congrArg Except.ok heligible))
          exact List.mem_filterMap.mpr ⟨task, hin, (Board.card_eq_ok_iff.mp hcard).2⟩
        have hpos (other : Card) (hother : other ∈ job.board.eligibleCards) : 0 < other.resources :=
          hs.resources_pos (Board.Wired.mem_of_card (Board.card_of_eligibleCards hs.board hother).1)
        refine Selection.lt_of_not_chosen hpos budget hmem fun hchosen => hnot ?_
        rw [← hs.board.wired.id_of_card hcard]
        exact List.mem_map_of_mem hchosen

end LiveJob

end JobScheduler
