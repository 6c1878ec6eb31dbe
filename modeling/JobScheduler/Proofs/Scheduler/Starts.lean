import JobScheduler.Proofs.Scheduler.Halts
import JobScheduler.Proofs.Scheduler.Serve

namespace JobScheduler

-- What a pass makes of the card of a task that it does not start: it may have looked at
-- it, if it waited for a worker.
structure Card.PassedOver (card card' : Card) : Prop where
  place : card'.place = card.place
  attempts : card.attempts ≤ card'.attempts
  eligible : card.place ≠ .eligible → card'.attempts = card.attempts

theorem Card.PassedOver.refl (card : Card) : card.PassedOver card := ⟨rfl, Nat.le_refl _, fun _ => rfl⟩

theorem Card.PassedOver.trans {a b c : Card} (h : a.PassedOver b) (h' : b.PassedOver c) :
    a.PassedOver c where
  place := h'.place.trans h.place
  attempts := Nat.le_trans h.attempts h'.attempts
  eligible hplace := (h'.eligible (h.place.symm ▸ hplace)).trans (h.eligible hplace)

theorem Card.passedOver_trans {a b c : Option Card} (h : Option.Rel PassedOver a b)
    (h' : Option.Rel PassedOver b c) : Option.Rel PassedOver a c := by
  cases h with
  | none => exact h'
  | some hpassed =>
      cases h' with
      | some hpassed' => exact .some (hpassed.trans hpassed')

namespace Scheduler

-- What a pass does to the tasks. Those that it hands out have waited for a worker, and
-- each is handed out under a number of its own.
structure Starts (scheduler scheduler' : Scheduler) (assignments : List Assignment) : Prop where
  nextId : scheduler'.registry.nextId = scheduler.registry.nextId
  pending : scheduler'.pending = scheduler.pending
  gone : ∀ id, scheduler.registry.find? id = none → scheduler'.registry.find? id = none
  nodup : (assignments.map Assignment.task).Nodup
  started : ∀ assignment ∈ assignments, ∃ card card',
    scheduler.card? assignment.task = some card ∧ card.place = .eligible ∧
      card.attempts < assignment.attempt ∧
      scheduler'.card? assignment.task = some card' ∧ card'.place = .running ∧
      card'.attempts = assignment.attempt
  others : ∀ task, task ∉ assignments.map Assignment.task →
    Option.Rel Card.PassedOver (scheduler.card? task) (scheduler'.card? task)

theorem Starts.refl (scheduler : Scheduler) : scheduler.Starts scheduler [] where
  nextId := rfl
  pending := rfl
  gone _ hnone := hnone
  nodup := List.nodup_nil
  started _ h := by cases h
  others task _ := by
    cases scheduler.card? task with
    | none => exact .none
    | some card => exact .some (.refl card)

variable {scheduler scheduler' : Scheduler} {assignments : List Assignment}

section PassedOver

variable (h : scheduler.Starts scheduler' assignments) {task : TaskId}
  (htask : task ∉ assignments.map Assignment.task)
include h htask

theorem Starts.after {card : Card} (hcard : scheduler.card? task = some card) :
    ∃ card', scheduler'.card? task = some card' ∧ card.PassedOver card' := by
  have hothers := h.others task htask
  rw [hcard] at hothers
  generalize scheduler'.card? task = found at hothers
  cases hothers with
  | some hpassed => exact ⟨_, rfl, hpassed⟩

theorem Starts.before {card' : Card} (hcard' : scheduler'.card? task = some card') :
    ∃ card, scheduler.card? task = some card ∧ card.PassedOver card' := by
  have hothers := h.others task htask
  rw [hcard'] at hothers
  generalize scheduler.card? task = found at hothers
  cases hothers with
  | some hpassed => exact ⟨_, rfl, hpassed⟩

end PassedOver

theorem Starts.trans {scheduler'' : Scheduler} {later : List Assignment}
    (h : scheduler.Starts scheduler' assignments) (h' : scheduler'.Starts scheduler'' later) :
    scheduler.Starts scheduler'' (assignments ++ later) := by
  -- What the first pass hands out runs, and no later one starts it again.
  have happart {task : TaskId} (hfirst : task ∈ assignments.map Assignment.task) :
      task ∉ later.map Assignment.task := by
    intro hlater
    obtain ⟨a, ha, rfl⟩ := List.mem_map.mp hfirst
    obtain ⟨b, hb, hsame⟩ := List.mem_map.mp hlater
    obtain ⟨-, card, -, -, -, hcard, hrunning, -⟩ := h.started a ha
    obtain ⟨card', -, hcard', heligible, -⟩ := h'.started b hb
    rw [hsame, hcard, Option.some.injEq] at hcard'
    rw [← hcard', hrunning] at heligible
    cases heligible
  refine ⟨h'.nextId.trans h.nextId, h'.pending.trans h.pending,
    fun id hnone => h'.gone id (h.gone id hnone), ?_, fun a ha => ?_, fun task htask => ?_⟩
  · rw [List.map_append]
    exact List.nodup_append.mpr ⟨h.nodup, h'.nodup, fun _ hfirst _ hlater heq =>
      happart hfirst (heq ▸ hlater)⟩
  · rcases List.mem_append.mp ha with hfirst | hlater
    · obtain ⟨card, card', hcard, hplace, hlt, hcard', hrunning, hattempts⟩ := h.started a hfirst
      obtain ⟨card'', hfinal, hpassed⟩ := h'.after (happart (List.mem_map_of_mem hfirst)) hcard'
      exact ⟨card, card'', hcard, hplace, hlt, hfinal, hpassed.place.trans hrunning,
        (hpassed.eligible (by rw [hrunning]; simp)).trans hattempts⟩
    · obtain ⟨card', card'', hcard', hplace, hlt, hfinal⟩ := h'.started a hlater
      obtain ⟨card, hcard, hpassed⟩ :=
        h.before (fun hfirst => happart hfirst (List.mem_map_of_mem hlater)) hcard'
      exact ⟨card, card'', hcard, hpassed.place.symm.trans hplace,
        Nat.lt_of_le_of_lt hpassed.attempts hlt, hfinal⟩
  · rw [List.map_append, List.mem_append, not_or] at htask
    exact Card.passedOver_trans (h.others task htask.1) (h'.others task htask.2)

theorem Starts.queued (scheduler : Scheduler) (queue : ReadyQueue) :
    scheduler.Starts { scheduler with queue } [] :=
  ⟨rfl, rfl, fun _ h => h, List.nodup_nil, fun _ h => (List.not_mem_nil h).elim, (Starts.refl scheduler).others⟩

section Attended

variable (hs : scheduler.Sound) (accepts : Card → Bool) {job : LiveJob}
  (hjob : scheduler.registry.find? job.id = some job)
include hs hjob

theorem card?_attended (task : TaskId) :
    (scheduler.attended accepts job).card? task =
      if task.job = job.id then
        (scheduler.card? task).map (LiveJob.serving (scheduler.selection accepts job) task)
      else scheduler.card? task := by
  split
  · rename_i htask
    rw [card?, card?, find?_attended hs accepts hjob, if_pos htask, htask, hjob, Option.bind_some,
      Option.bind_some, selection, LiveJob.card_served (hs.live hjob) accepts scheduler.slots.free]
    cases job.board.card task <;> rfl
  · rename_i htask
    exact card?_congr ((find?_attended hs accepts hjob task.job).trans (if_neg htask))

-- A task that a pass has looked at was waiting for a worker.
theorem card?_of_considered {card : Card}
    (hcard : card ∈ (scheduler.selection accepts job).considered) :
    scheduler.card? card.id = some card ∧ card.id.job = job.id ∧ card.place = .eligible := by
  have hsound := hs.live hjob
  obtain ⟨hok, heligible⟩ := Board.card_of_eligibleCards hsound.board
    ((Selection.considered_sublist accepts scheduler.slots.free job.board.eligibleCards).subset hcard)
  have hid : card.id.job = job.id := (Board.card_eq_ok_iff.mp hok).1
  exact ⟨card?_eq_some_iff.mpr ⟨job, hid ▸ hjob, hok⟩, hid, heligible⟩

theorem starts_attended :
    scheduler.Starts (scheduler.attended accepts job)
      (job.handedOut (scheduler.selection accepts job)) := by
  have hsound := hs.live hjob
  have hafter := card?_attended hs accepts hjob
  have hlooked {card : Card} (hcard : card ∈ (scheduler.selection accepts job).considered) :=
    card?_of_considered hs accepts hjob hcard
  have hchosen : (scheduler.selection accepts job).chosen.Sublist
      (scheduler.selection accepts job).considered :=
    Selection.chosen_sublist accepts scheduler.slots.free job.board.eligibleCards
  have htasks : (job.handedOut (scheduler.selection accepts job)).map Assignment.task =
      (scheduler.selection accepts job).chosen.map Card.id := by
    rw [LiveJob.handedOut, List.map_map]
    rfl
  refine ⟨rfl, rfl, fun id hnone => ?_, ?_, fun assignment hassignment => ?_, fun task htask => ?_⟩
  · have hne : id ≠ job.id := fun heq => by
      rw [heq, hjob] at hnone
      cases hnone
    rw [find?_attended hs accepts hjob, if_neg hne, hnone]
  · have hnodup : (job.board.eligibleCards.map Card.id).Nodup := by
      rw [Board.map_id_eligibleCards hsound.board]
      exact SortedSet.nodup_toList _
    have hsublist := Selection.considered_sublist accepts scheduler.slots.free job.board.eligibleCards
    rw [htasks]
    exact hnodup.sublist ((hchosen.trans hsublist).map Card.id)
  · obtain ⟨card, hcard, rfl⟩ := List.mem_map.mp hassignment
    obtain ⟨hbefore, hid, heligible⟩ := hlooked (hchosen.subset hcard)
    have hserving : LiveJob.serving (scheduler.selection accepts job) card.id card =
        Board.put .running (Board.tryOnce card) := if_pos (List.mem_map_of_mem hcard)
    refine ⟨card, Board.put .running (Board.tryOnce card), hbefore, heligible, Nat.lt_succ_self _, ?_,
      rfl, rfl⟩
    exact (hafter card.id).trans (by rw [if_pos hid, hbefore, Option.map_some, hserving])
  · rw [htasks] at htask
    rw [hafter task]
    split
    · cases hcard : scheduler.card? task with
      | none => exact .none
      | some card =>
          refine .some ?_
          rw [LiveJob.serving, if_neg htask]
          split
          · rename_i hmem
            obtain ⟨looked, hin, rfl⟩ := List.mem_map.mp hmem
            obtain ⟨hbefore, -, heligible⟩ := hlooked hin
            rw [hcard, Option.some.injEq] at hbefore
            exact ⟨rfl, Nat.le_succ _, fun hplace => absurd (hbefore ▸ heligible) hplace⟩
          · exact .refl card
    · exact (Starts.refl scheduler).others task List.not_mem_nil

omit hs hjob in
-- A pass over the jobs starts what it hands out, and nothing else.
theorem Serves.starts {ids : List JobId} {final : Scheduler} {assignments : List Assignment}
    (h : Serves accepts ids scheduler assignments final) (hs : scheduler.Sound) :
    scheduler.Starts final assignments := by
  induction h with
  | spent => exact .refl _
  | gone _ _ ih => exact (Starts.queued _ _).trans (ih (hs.queued _))
  | job hjob _ ih => exact (starts_attended hs accepts hjob).trans (ih (hs.attended accepts hjob))

end Attended

theorem Starts.runs_iff (h : scheduler.Starts scheduler' assignments) (hs : scheduler.Sound)
    (hs' : scheduler'.Sound) (task : TaskId) :
    scheduler'.Runs task ↔ scheduler.Runs task ∨ task ∈ assignments.map Assignment.task := by
  rw [Scheduler.runs_iff hs, Scheduler.runs_iff hs']
  by_cases htask : task ∈ assignments.map Assignment.task
  · obtain ⟨assignment, hassignment, rfl⟩ := List.mem_map.mp htask
    obtain ⟨-, card', -, -, -, hcard', hrunning, -⟩ := h.started assignment hassignment
    exact iff_of_true ⟨card', hcard', hrunning⟩ (.inr htask)
  · constructor
    · rintro ⟨card', hcard', hrunning⟩
      obtain ⟨card, hcard, hpassed⟩ := h.before htask hcard'
      exact .inl ⟨card, hcard, hpassed.place.symm.trans hrunning⟩
    · rintro (⟨card, hcard, hrunning⟩ | hmem)
      · obtain ⟨card', hcard', hpassed⟩ := h.after htask hcard
        exact ⟨card', hcard', hpassed.place.trans hrunning⟩
      · exact absurd hmem htask

end Scheduler

end JobScheduler
