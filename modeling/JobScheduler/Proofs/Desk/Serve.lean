import JobScheduler.Proofs.Desk.Turns
import JobScheduler.Scheduler.Dispatch

namespace JobScheduler

namespace Selection

variable (accepts : Card → Bool)

theorem considered_sublist (budget : Nat) (cards : List Card) :
    (among accepts budget cards).considered.Sublist cards := by
  induction cards generalizing budget with
  | nil => exact .slnil
  | cons card rest ih =>
      unfold among
      split
      · exact List.nil_sublist _
      · split
        · exact (ih _).cons_cons card
        · exact (ih _).cons_cons card

theorem chosen_sublist (budget : Nat) (cards : List Card) :
    (among accepts budget cards).chosen.Sublist (among accepts budget cards).considered := by
  induction cards generalizing budget with
  | nil => exact .slnil
  | cons card rest ih =>
      unfold among
      split
      · exact .slnil
      · split
        · exact (ih _).cons_cons card
        · exact (ih _).cons card

-- What is chosen fits into the budget all together.
theorem sum_chosen_le (budget : Nat) (cards : List Card) :
    ((among accepts budget cards).chosen.map Card.resources).sum ≤ budget := by
  induction cards generalizing budget with
  | nil => simp [among]
  | cons card rest ih =>
      unfold among
      split
      · simp
      · split
        · rename_i hfits
          have hrest := ih (budget - card.resources)
          simp only [List.map_cons, List.sum_cons]
          omega
        · exact ih budget

end Selection

namespace Board

theorem card_of_eligibleCards {board : Board} (hb : board.Sound) {card : Card}
    (h : card ∈ board.eligibleCards) :
    board.card card.id = .ok card ∧ card.place = .eligible := by
  obtain ⟨id, hid, hcard⟩ := List.mem_filterMap.mp h
  have hplace := hb.partitioned.mem_eligible_iff.mp hid
  have hok := card_eq_ok_iff.mpr ⟨job_eq_of_placeOf hplace, hcard⟩
  rw [placeOf_of_card hok] at hplace
  rw [hb.wired.id_of_card hok]
  exact ⟨hok, Except.ok.inj hplace⟩

-- Eligible cards come in the order of their ids.
theorem map_id_eligibleCards {board : Board} (hb : board.Sound) :
    board.eligibleCards.map Card.id = board.eligible.toList := by
  have hone (id : TaskId) (hid : id ∈ board.eligible.toList) :
      ∃ card, board.cards[id.index]? = some card ∧ card.id = id := by
    have hplace := hb.partitioned.mem_eligible_iff.mp hid
    obtain ⟨card, hcard, -⟩ := placeOf_eq_ok_iff.mp hplace
    exact ⟨card, (card_eq_ok_iff.mp hcard).2, hb.wired.id_of_card hcard⟩
  unfold eligibleCards
  generalize board.eligible.toList = ids at hone ⊢
  induction ids with
  | nil => rfl
  | cons id rest ih =>
      obtain ⟨hid, hrest⟩ := List.forall_mem_cons.mp hone
      obtain ⟨card, hcard, hsame⟩ := hid
      rw [List.filterMap_cons, hcard]
      simp only [List.map_cons, hsame, ih hrest]

end Board

namespace LiveJob

-- A dispatch pass has looked at a task.
def attempted (job : LiveJob) (card : Card) : LiveJob :=
  { job with board := job.board.modifyCard card.id Board.tryOnce }

theorem advances_attempted {job : LiveJob} (hs : job.Sound) (card : Card) :
    job.Advances (job.attempted card) :=
  .of_view hs
    ⟨.modifyCard job.board card.id Board.tryOnce fun _ => rfl, rfl, rfl, rfl⟩
    (hs.board.modifyCard card.id (fun _ => rfl) (fun _ => rfl) (fun _ => rfl) fun _ => rfl)
    (Board.placeOf_modifyCard_of_keeps fun _ => rfl) rfl rfl

theorem load_attempted (job : LiveJob) (card : Card) :
    (job.attempted card).board.load = job.board.load :=
  Board.load_modifyCard_of_keeps job.board card.id (fun _ => rfl) fun _ => rfl

theorem all_attempted {job : LiveJob} (hs : job.Sound) (cards : List Card) :
    job.Advances (cards.foldl attempted job) ∧
      (cards.foldl attempted job).board.load = job.board.load ∧
      (cards.foldl attempted job).submission = job.submission := by
  induction cards generalizing job with
  | nil => exact ⟨advances_books hs job.results job.executions, rfl, rfl⟩
  | cons first rest ih =>
      have hfirst := advances_attempted hs first
      obtain ⟨hrest, hload, hsubmission⟩ := ih hfirst.sound
      exact ⟨hfirst.trans hrest, hload.trans (load_attempted job first), hsubmission⟩

theorem card_attempted {job : LiveJob} {card : Card} (hjob : card.id.job = job.id) (id : TaskId) :
    (job.attempted card).board.card id =
      if id = card.id then (job.board.card id).map Board.tryOnce else job.board.card id :=
  Board.card_modifyCard Board.tryOnce hjob id

-- Each task that a pass has looked at counts one attempt more.
theorem card_foldl_attempted {job : LiveJob} {cards : List Card} (hnodup : (cards.map Card.id).Nodup)
    (hjob : ∀ card ∈ cards, card.id.job = job.id) (id : TaskId) :
    (cards.foldl attempted job).board.card id =
      if id ∈ cards.map Card.id then (job.board.card id).map Board.tryOnce else job.board.card id := by
  induction cards generalizing job with
  | nil => simp
  | cons first rest ih =>
      obtain ⟨hfresh, hnodup⟩ := List.nodup_cons.mp hnodup
      obtain ⟨hfirst, hrest⟩ := List.forall_mem_cons.mp hjob
      have hlater : ∀ card ∈ rest, card.id.job = (job.attempted first).id := hrest
      rw [List.foldl_cons, ih hnodup hlater, card_attempted hfirst]
      by_cases hid : id = first.id
      · subst hid
        simp [hfresh]
      · simp [hid]

-- An eligible task has got its worker. The first one makes its job a running one.
def started (job : LiveJob) (card : Card) : LiveJob :=
  let job := setStatus .running (job.shift card.id .eligible .running) card.id
  if job.status = .pending then { job with status := .running } else job

@[simp] theorem started_submission (job : LiveJob) (card : Card) :
    (job.started card).submission = job.submission := by
  unfold started
  dsimp only
  split <;> rfl

theorem started_board (job : LiveJob) (card : Card) :
    (job.started card).board = job.board.relocate card.id .eligible .running := by
  unfold started
  dsimp only
  split <;> rfl

theorem started_status (job : LiveJob) (card : Card) :
    (job.started card).status = if job.status = .pending then .running else job.status := by
  unfold started
  dsimp only
  split
  · rename_i h
    exact (if_pos h).symm
  · rename_i h
    exact (if_neg h).symm

theorem isHeld_started (job : LiveJob) (card : Card) : (job.started card).isHeld = job.isHeld := by
  rw [Bool.eq_iff_iff, isHeld_iff, isHeld_iff, started_status]
  by_cases hpending : job.status = .pending <;> simp [hpending]

-- Whatever has terminated in the later job had terminated before.
def Spares (job job' : LiveJob) : Prop :=
  ∀ id status, job'.statusOf? id = some status → status.isTerminated →
    job.statusOf? id = some status

theorem spares_attempted (job : LiveJob) (cards : List Card) :
    job.Spares (cards.foldl attempted job) := by
  have hstatuses : (cards.foldl attempted job).statuses = job.statuses := by
    induction cards generalizing job with
    | nil => rfl
    | cons first rest ih => exact ih (job.attempted first)
  intro id status hstatus _
  rw [statusOf?, hstatuses] at hstatus
  exact hstatus

theorem spares_started (job : LiveJob) (cards : List Card) :
    job.Spares (cards.foldl started job) := by
  induction cards generalizing job with
  | nil => exact fun _ _ hstatus _ => hstatus
  | cons first rest ih =>
      intro id status hstatus hterminated
      have hlater := ih (job.started first) id status hstatus hterminated
      have hstatuses : (job.started first).statuses = job.statuses.set first.id.index .running := by
        unfold started
        dsimp only
        split <;> rfl
      rw [statusOf?, hstatuses, List.getElem?_set] at hlater
      split at hlater
      · split at hlater
        · cases hlater
          cases hterminated
        · cases hlater
      · exact hlater

theorem isHeld_served (job : LiveJob) (considered chosen : List Card) :
    (chosen.foldl started (considered.foldl attempted job)).isHeld = job.isHeld := by
  have hstarted (job : LiveJob) : (chosen.foldl started job).isHeld = job.isHeld := by
    induction chosen generalizing job with
    | nil => rfl
    | cons first rest ih => exact (ih (job.started first)).trans (job.isHeld_started first)
  have hattempted : (considered.foldl attempted job).isHeld = job.isHeld := by
    induction considered generalizing job with
    | nil => rfl
    | cons first rest ih => exact ih (job.attempted first)
  rw [hstarted, hattempted]

-- A pass over the tasks of a job ends none of them.
theorem spares_served (job : LiveJob) (considered chosen : List Card) :
    job.Spares (chosen.foldl started (considered.foldl attempted job)) := by
  intro id status hstatus hterminated
  have hattempted := spares_started _ chosen id status hstatus hterminated
  exact spares_attempted job considered id status hattempted hterminated

section Started

variable {job : LiveJob} (hs : job.Sound) {card card' : Card}
  (hcard : job.board.card card.id = .ok card') (heligible : card'.place = .eligible)
include hs hcard heligible

theorem advances_started : job.Advances (job.started card) := by
  have hplace := Board.placeOf_of_card hcard
  rw [heligible] at hplace
  have hmoved : Moved job (job.started card) job.isHeld card.id .running .running [] := by
    refine (moved_shift hs.board hplace rfl rfl job.isHeld .running).congr ⟨rfl, rfl, rfl⟩ ?_
    unfold started
    dsimp only
    split <;> exact ⟨rfl, rfl, rfl⟩
  have hfits : Place.running.fits job.isHeld .running = true := by cases job.isHeld <;> rfl
  have herror : (job.started card).hasTasksInError ↔ job.hasTasksInError :=
    ⟨hmoved.hasTasksInError_of (by simp), hmoved.hasTasksInError_keep hs hplace (by simp)⟩
  refine hmoved.advances hs hplace (by simp) (Place.admits_of_fits hfits) fun hc => ?_
  refine ⟨hmoved.fits rfl (job.isHeld_started card) hplace hfits hc.fits, ?_, ?_, ?_⟩
  · rw [started_status]
    split
    · rfl
    · exact hc.live
  · rw [started_status, herror]
    by_cases hpending : job.status = .pending
    · have hnone : ¬job.hasTasksInError := fun hhas => by
        have hin := hc.inError.mpr ⟨by simp [hpending], hhas⟩
        rw [hpending] at hin
        cases hin
      simp [hpending, hnone]
    · simpa [hpending] using hc.inError
  · intro hpending
    rw [started_status] at hpending
    split at hpending
    · cases hpending
    · rename_i hne
      exact absurd hpending hne

omit hs in
theorem load_started : (job.started card).board.load = job.board.load + card'.resources := by
  have hload := Board.load_relocate hcard .running
  rw [heligible] at hload
  rw [started_board]
  simpa using hload

end Started

end LiveJob

namespace Slots

theorem take_take (slots : Slots) (a b : Nat) : (slots.take a).take b = slots.take (a + b) := by
  simp [take, Nat.sub_sub]

end Slots

namespace DeskM

variable {job : LiveJob} (slots : Slots)

theorem run_noteAttempt {card card' : Card} (hcard : job.board.card card.id = .ok card') :
    noteAttempt card ⟨job, slots⟩ = .ok () ⟨job.attempted card, slots⟩ := by
  have hrecord : transition (·.recordAttempt card.id) ⟨job, slots⟩ =
      .ok (card'.attempts + 1) ⟨job.attempted card, slots⟩ :=
    run_transition slots (by rw [Board.recordAttempt_eq, hcard]; rfl)
  simp only [noteAttempt, run_bind, hrecord, run_pure]

theorem run_forM_noteAttempt (hs : job.Sound) {cards : List Card}
    (h : ∀ card ∈ cards, ∃ card', job.board.card card.id = .ok card') :
    cards.forM noteAttempt ⟨job, slots⟩ = .ok () ⟨cards.foldl LiveJob.attempted job, slots⟩ := by
  induction cards generalizing job with
  | nil => rfl
  | cons first rest ih =>
      obtain ⟨⟨card, hcard⟩, hrest⟩ := List.forall_mem_cons.mp h
      simp only [List.forM, run_bind, run_noteAttempt slots hcard]
      refine ih (LiveJob.advances_attempted hs first).sound fun other hother => ?_
      obtain ⟨card', hcard'⟩ := hrest other hother
      have hsame := Board.SameTasks.modifyCard job.board first.id Board.tryOnce fun _ => rfl
      obtain ⟨card'', hcard'', -⟩ := hsame.card hcard'
      exact ⟨card'', hcard''⟩

theorem run_startTask {card card' : Card} (hcard : job.board.card card.id = .ok card')
    (heligible : card'.place = .eligible) :
    startTask card ⟨job, slots⟩ = .ok (.ofCard job.submission.name card')
      ⟨job.started card, slots.take card.resources⟩ := by
  have hplace := Board.placeOf_of_card hcard
  rw [heligible] at hplace
  have hstart : moveTask (·.start card.id) ⟨job, slots⟩ =
      .ok () ⟨job.shift card.id .eligible .running, slots⟩ :=
    run_moveTask _ (Board.move_of_placeOf .running hplace)
  have hmoved : (job.started card).board.card card.id = .ok (Board.put .running card') := by
    rw [LiveJob.started_board, Board.card_relocate .running hplace, if_pos rfl, hcard]
    rfl
  simp only [startTask, run_bind, hstart, run_takeSlots, run_setStatus, run_theJob]
  by_cases hpending : (job.shift card.id .eligible .running).status = .pending
  · have hjob : job.started card = { LiveJob.setStatus .running
        (job.shift card.id .eligible .running) card.id with status := .running } := if_pos hpending
    rw [hjob] at hmoved
    rw [if_pos (show (LiveJob.setStatus .running (job.shift card.id .eligible .running)
      card.id).status = .pending from hpending)]
    simp only [run_bind, run_setJobStatus, run_theJob, run_theCard _ hmoved, run_pure, hjob]
    rfl
  · have hjob : job.started card = LiveJob.setStatus .running
        (job.shift card.id .eligible .running) card.id := if_neg hpending
    rw [hjob] at hmoved
    rw [if_neg (show ¬(LiveJob.setStatus .running (job.shift card.id .eligible .running)
      card.id).status = .pending from hpending)]
    simp only [run_bind, run_theJob, run_theCard _ hmoved, run_pure, hjob]
    rfl

theorem run_mapM_startTask (hs : job.Sound) {cards : List Card}
    (hnodup : (cards.map Card.id).Nodup)
    (h : ∀ card ∈ cards, job.board.card card.id = .ok (Board.tryOnce card) ∧ card.place = .eligible) :
    cards.mapM startTask ⟨job, slots⟩ =
        .ok (cards.map fun card => .ofCard job.submission.name (Board.tryOnce card))
          ⟨cards.foldl LiveJob.started job, slots.take (cards.map Card.resources).sum⟩ ∧
      job.Advances (cards.foldl LiveJob.started job) ∧
      (cards.foldl LiveJob.started job).board.load =
        job.board.load + (cards.map Card.resources).sum := by
  induction cards generalizing job slots with
  | nil => exact ⟨rfl, LiveJob.advances_books hs job.results job.executions, rfl⟩
  | cons first rest ih =>
      obtain ⟨⟨hcard, heligible⟩, hrest⟩ := List.forall_mem_cons.mp h
      obtain ⟨hfresh, hnodup⟩ := List.nodup_cons.mp hnodup
      have hadvances := LiveJob.advances_started hs hcard heligible
      have hplace := Board.placeOf_of_card hcard
      have hnext (card : Card) (hmem : card ∈ rest) :
          (job.started first).board.card card.id = .ok (Board.tryOnce card) ∧ card.place = .eligible := by
        have hne : card.id ≠ first.id := fun heq => hfresh (heq ▸ List.mem_map_of_mem hmem)
        rw [LiveJob.started_board, Board.card_relocate .running (hplace.trans (congrArg _ heligible)),
          if_neg hne]
        exact hrest card hmem
      obtain ⟨hrun, hrestAdvances, hload⟩ :=
        ih (slots.take first.resources) hadvances.sound hnodup hnext
      refine ⟨?_, hadvances.trans hrestAdvances, ?_⟩
      · simp only [List.mapM_cons, run_bind, run_startTask slots hcard heligible]
        rw [hrun]
        simp [run_pure, Slots.take_take]
      · rw [List.foldl_cons, hload, LiveJob.load_started hcard heligible]
        simp [Card.resources, Board.tryOnce, Nat.add_assoc]

-- A pass over the tasks of one job. Those it starts are chosen among the eligible ones by
-- the free slots, and all of their slots are taken.
theorem run_serve (hs : job.Sound) (accepts : Card → Bool) :
    let selection := Selection.among accepts slots.free job.board.eligibleCards
    let job' := selection.chosen.foldl LiveJob.started (selection.considered.foldl LiveJob.attempted job)
    let needed := (selection.chosen.map Card.resources).sum
    serve accepts ⟨job, slots⟩ =
        .ok (selection.chosen.map fun card =>
          .ofCard job.submission.name (Board.tryOnce card)) ⟨job', slots.take needed⟩ ∧
      job.Advances job' ∧ job'.board.load = job.board.load + needed ∧ needed ≤ slots.free := by
  intro selection job' needed
  have hconsidered : selection.considered.Sublist job.board.eligibleCards :=
    Selection.considered_sublist accepts _ _
  have hchosen : selection.chosen.Sublist selection.considered :=
    Selection.chosen_sublist accepts _ _
  have hids := Board.map_id_eligibleCards hs.board
  have hnodup : (selection.considered.map Card.id).Nodup := by
    have hall : (job.board.eligibleCards.map Card.id).Nodup := by
      rw [hids]
      exact SortedSet.nodup_toList _
    exact hall.sublist (hconsidered.map Card.id)
  have hcard (card : Card) (h : card ∈ selection.considered) :
      job.board.card card.id = .ok card ∧ card.place = .eligible :=
    Board.card_of_eligibleCards hs.board (hconsidered.subset h)
  have hjob (card : Card) (h : card ∈ selection.considered) : card.id.job = job.id :=
    (Board.card_eq_ok_iff.mp (hcard card h).1).1
  obtain ⟨hattempted, hload, hsubmission⟩ := LiveJob.all_attempted hs selection.considered
  have hready (card : Card) (h : card ∈ selection.chosen) :
      (selection.considered.foldl LiveJob.attempted job).board.card card.id =
        .ok (Board.tryOnce card) ∧ card.place = .eligible := by
    obtain ⟨hok, heligible⟩ := hcard card (hchosen.subset h)
    rw [LiveJob.card_foldl_attempted hnodup hjob, if_pos (List.mem_map_of_mem (hchosen.subset h)), hok]
    exact ⟨rfl, heligible⟩
  obtain ⟨hrun, hstarted, hload'⟩ := run_mapM_startTask slots hattempted.sound
    (hnodup.sublist (hchosen.map Card.id)) hready
  refine ⟨?_, hattempted.trans hstarted, ?_, Selection.sum_chosen_le accepts _ _⟩
  · have hforM := run_forM_noteAttempt slots hs fun card h => ⟨card, (hcard card h).1⟩
    rw [hsubmission] at hrun
    change (do selection.considered.forM noteAttempt; selection.chosen.mapM startTask)
      (⟨job, slots⟩ : Desk) = _
    rw [run_bind, hforM]
    exact hrun
  · rw [hload', hload]

end DeskM

end JobScheduler
