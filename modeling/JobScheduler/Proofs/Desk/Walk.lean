import JobScheduler.Proofs.Desk.Served

namespace JobScheduler

-- A walk over tasks with a budget of slots: what is left of the budget, the tasks that it
-- reached before that was used up, and those that it started.
structure Walk where
  budget : Nat
  walked : List TaskId
  started : List Assignment
deriving DecidableEq

namespace Walk

-- One walk over tasks of any jobs. A task is started if it needs no more than is left and
-- is accepted as it is.
def along (accepts : Card → Bool) (budget : Nat) : List (LiveJob × Card) → Walk
  | [] => ⟨budget, [], []⟩
  | (job, card) :: rest =>
      if budget = 0 then ⟨0, [], []⟩
      else if card.resources ≤ budget ∧ accepts card then
        let later := along accepts (budget - card.resources) rest
        ⟨later.budget, card.id :: later.walked,
          .ofCard job.submission.name (Board.tryOnce card) :: later.started⟩
      else
        let later := along accepts budget rest
        ⟨later.budget, card.id :: later.walked, later.started⟩

def starts (walk : Walk) (task : TaskId) : Prop := task ∈ walk.started.map Assignment.task

instance (walk : Walk) (task : TaskId) : Decidable (walk.starts task) :=
  inferInstanceAs (Decidable (task ∈ walk.started.map Assignment.task))

-- What a walk makes of a card.
def mark (walk : Walk) (card : Card) : Card :=
  if walk.starts card.id then Board.put .running (Board.tryOnce card)
  else if card.id ∈ walk.walked then Board.tryOnce card
  else card

section Along

variable (accepts : Card → Bool)

theorem along_zero (entries : List (LiveJob × Card)) : along accepts 0 entries = ⟨0, [], []⟩ := by
  cases entries with
  | nil => rfl
  | cons entry rest => simp [along]

-- The budget goes from one part of a walk to the next.
theorem along_append (budget : Nat) (first rest : List (LiveJob × Card)) :
    along accepts budget (first ++ rest) =
      let before := along accepts budget first
      let after := along accepts before.budget rest
      ⟨after.budget, before.walked ++ after.walked, before.started ++ after.started⟩ := by
  induction first generalizing budget with
  | nil => rfl
  | cons entry later ih =>
      obtain ⟨job, card⟩ := entry
      simp only [List.cons_append, along]
      by_cases hspent : budget = 0
      · simp [hspent, along_zero]
      · by_cases hfits : card.resources ≤ budget ∧ accepts card
        · simp [hspent, hfits, ih]
        · simp [hspent, hfits, ih]

-- Over the tasks of one job a walk chooses as a pass over that job does.
theorem along_map (job : LiveJob) (budget : Nat) (cards : List Card) :
    along accepts budget (cards.map (job, ·)) =
      let selection := Selection.among accepts budget cards
      ⟨budget - (selection.chosen.map Card.resources).sum, selection.considered.map Card.id,
        selection.chosen.map fun card => .ofCard job.submission.name (Board.tryOnce card)⟩ := by
  induction cards generalizing budget with
  | nil => rfl
  | cons card rest ih =>
      simp only [List.map_cons, along, Selection.among]
      by_cases hspent : budget = 0
      · simp [hspent]
      · by_cases hfits : card.resources ≤ budget ∧ accepts card
        · simp [hspent, hfits, ih, Nat.sub_sub]
        · simp [hspent, hfits, ih]

-- A walk starts only what it reaches, and it reaches only what it is sent along.
theorem mem_walked_of_starts {budget : Nat} {entries : List (LiveJob × Card)} {task : TaskId}
    (h : (along accepts budget entries).starts task) : task ∈ (along accepts budget entries).walked := by
  induction entries generalizing budget with
  | nil => cases h
  | cons entry rest ih =>
      obtain ⟨job, card⟩ := entry
      unfold along at h ⊢
      by_cases hspent : budget = 0
      · rw [if_pos hspent] at h
        cases h
      · rw [if_neg hspent] at h ⊢
        by_cases hfits : card.resources ≤ budget ∧ accepts card
        · rw [if_pos hfits] at h ⊢
          rcases List.mem_cons.mp h with rfl | hlater
          · exact List.mem_cons_self
          · exact List.mem_cons_of_mem _ (ih hlater)
        · rw [if_neg hfits] at h ⊢
          exact List.mem_cons_of_mem _ (ih h)

theorem walked_sublist (budget : Nat) (entries : List (LiveJob × Card)) :
    (along accepts budget entries).walked.Sublist (entries.map (·.2.id)) := by
  induction entries generalizing budget with
  | nil => exact .slnil
  | cons entry rest ih =>
      obtain ⟨job, card⟩ := entry
      simp only [along]
      split
      · exact List.nil_sublist _
      · split
        · exact (ih _).cons_cons card.id
        · exact (ih _).cons_cons card.id

end Along

end Walk

-- A board whose cards are found changed has these changed cards.
theorem Board.cards_eq_of_card {a b : Board} (hw : a.Wired) (hjob : b.job = a.job)
    {change : TaskId → Card → Card} (h : ∀ id, b.card id = (a.card id).map (change id)) :
    b.cards = a.cards.map fun card => change card.id card := by
  apply List.ext_getElem?
  intro index
  have hcard := h ⟨a.job, index⟩
  rw [List.getElem?_map]
  cases hindex : a.cards[index]? with
  | some card =>
      have hid : card.id = ⟨a.job, index⟩ := hw.ids index card hindex
      have hok : a.card ⟨a.job, index⟩ = .ok card := card_eq_ok_iff.mpr ⟨rfl, hindex⟩
      rw [hok] at hcard
      rw [(card_eq_ok_iff.mp hcard).2, Option.map_some, hid]
  | none =>
      cases hindex' : b.cards[index]? with
      | none => rfl
      | some card' =>
          have hok : b.card ⟨a.job, index⟩ = .ok card' := card_eq_ok_iff.mpr ⟨hjob.symm, hindex'⟩
          rw [hok, Board.card] at hcard
          simp [hindex, Except.map] at hcard

namespace LiveJob

-- Nothing has changed but where tasks stand and what is shown of them.
structure Undisturbed (job job' : LiveJob) : Prop where
  id : job'.id = job.id
  submission : job'.submission = job.submission
  results : job'.results = job.results
  executions : job'.executions = job.executions
  priority : job'.board.priority = job.board.priority
  kind : job'.board.kind = job.board.kind
  paused : job'.board.paused = job.board.paused
  done : job'.board.done = job.board.done
  failed : job'.board.failed = job.board.failed

theorem Undisturbed.refl (job : LiveJob) : job.Undisturbed job := ⟨rfl, rfl, rfl, rfl, rfl, rfl, rfl, rfl, rfl⟩

theorem Undisturbed.trans {a b c : LiveJob} (h : a.Undisturbed b) (h' : b.Undisturbed c) :
    a.Undisturbed c where
  id := h'.id.trans h.id
  submission := h'.submission.trans h.submission
  results := h'.results.trans h.results
  executions := h'.executions.trans h.executions
  priority := h'.priority.trans h.priority
  kind := h'.kind.trans h.kind
  paused := h'.paused.trans h.paused
  done := h'.done.trans h.done
  failed := h'.failed.trans h.failed

theorem undisturbed_foldl {step : LiveJob → Card → LiveJob}
    (hstep : ∀ (job : LiveJob) (card : Card), job.Undisturbed (step job card)) (job : LiveJob) (cards : List Card) :
    job.Undisturbed (cards.foldl step job) := by
  induction cards generalizing job with
  | nil => exact .refl job
  | cons first rest ih => exact (hstep job first).trans (ih (step job first))

theorem undisturbed_attempted (job : LiveJob) (card : Card) : job.Undisturbed (job.attempted card) :=
  ⟨rfl, rfl, rfl, rfl, rfl, rfl, rfl, rfl, rfl⟩

theorem undisturbed_started (job : LiveJob) (card : Card) : job.Undisturbed (job.started card) := by
  unfold started
  dsimp only
  split <;> exact ⟨rfl, rfl, rfl, rfl, rfl, rfl, rfl, rfl, rfl⟩

theorem undisturbed_served (job : LiveJob) (selection : Selection) :
    job.Undisturbed (job.served selection) :=
  (undisturbed_foldl undisturbed_attempted job selection.considered).trans
    (undisturbed_foldl undisturbed_started _ selection.chosen)

theorem statuses_foldl_attempted (job : LiveJob) (cards : List Card) :
    (cards.foldl attempted job).statuses = job.statuses ∧
      (cards.foldl attempted job).status = job.status := by
  induction cards generalizing job with
  | nil => exact ⟨rfl, rfl⟩
  | cons first rest ih => exact ih (job.attempted first)

theorem statuses_started (job : LiveJob) (card : Card) :
    (job.started card).statuses = job.statuses.set card.id.index .running := by
  unfold started
  dsimp only
  split <;> rfl

-- The first task that is started sets its job going.
theorem status_foldl_started (job : LiveJob) (cards : List Card) :
    (cards.foldl started job).status =
      if job.status = .pending ∧ cards ≠ [] then .running else job.status := by
  induction cards generalizing job with
  | nil => simp
  | cons first rest ih =>
      rw [List.foldl_cons, ih, started_status]
      by_cases hpending : job.status = .pending <;> simp [hpending]

theorem statusOf?_foldl_started {job : LiveJob} {cards : List Card}
    (hknown : ∀ card ∈ cards, card.id.job = job.id ∧ card.id.index < job.statuses.length)
    {task : TaskId} (htask : task.job = job.id) :
    (cards.foldl started job).statusOf? task =
      if task ∈ cards.map Card.id then some .running else job.statusOf? task := by
  induction cards generalizing job with
  | nil => simp
  | cons first rest ih =>
      obtain ⟨⟨hjob, hindex⟩, hrest⟩ := List.forall_mem_cons.mp hknown
      have hid := (undisturbed_started job first).id
      have hlater (card : Card) (hcard : card ∈ rest) :
          card.id.job = (job.started first).id ∧
            card.id.index < (job.started first).statuses.length := by
        rw [hid, statuses_started, List.length_set]
        exact hrest card hcard
      rw [List.foldl_cons, ih hlater (htask.trans hid.symm)]
      have hfirst : (job.started first).statusOf? task =
          if task = first.id then some .running else job.statusOf? task := by
        rw [statusOf?, statuses_started, List.getElem?_set]
        by_cases heq : task = first.id
        · simp [heq, hindex]
        · have hindex : first.id.index ≠ task.index := fun hsame =>
            heq ((TaskId.index_eq_iff (hjob.trans htask.symm)).mp hsame).symm
          simp [hindex, heq, statusOf?]
      rw [hfirst]
      by_cases hmem : task ∈ rest.map Card.id <;> by_cases heq : task = first.id <;>
        simp_all

-- The job after a walk that reached some of its tasks and started some of these.
structure Marked (walk : Walk) (job job' : LiveJob) : Prop where
  undisturbed : job.Undisturbed job'
  status : job'.status =
    if job.status = .pending ∧ ∃ assignment ∈ walk.started, assignment.task.job = job.id then .running
    else job.status
  length : job'.statuses.length = job.statuses.length
  statusOf? : ∀ task, task.job = job.id →
    job'.statusOf? task = if walk.starts task then some .running else job.statusOf? task
  cards : job'.board.cards = job.board.cards.map walk.mark
  eligible : ∀ task, task ∈ job'.board.eligible.toList ↔
    task ∈ job.board.eligible.toList ∧ ¬walk.starts task
  running : ∀ task, task ∈ job'.board.running.toList ↔
    task ∈ job.board.running.toList ∨ task.job = job.id ∧ walk.starts task

theorem marked_of_nothing (job : LiveJob) (budget : Nat) : Marked ⟨budget, [], []⟩ job job := by
  have hmark : Walk.mark ⟨budget, [], []⟩ = fun card => card := by
    funext card
    simp [Walk.mark, Walk.starts]
  exact ⟨.refl job, by simp, rfl, by simp [Walk.starts], by simp [hmark], by simp [Walk.starts],
    by simp [Walk.starts]⟩

-- For a job only its own tasks matter.
theorem Marked.congr {a b : Walk} {job job' : LiveJob} (h : Marked a job job') (hs : job.Sound)
    (hwalked : ∀ task : TaskId, task.job = job.id → (task ∈ b.walked ↔ task ∈ a.walked))
    (hstarts : ∀ task : TaskId, task.job = job.id → (b.starts task ↔ a.starts task)) :
    Marked b job job' := by
  refine ⟨h.undisturbed, ?_, h.length, fun task htask => ?_, ?_, fun task => ?_, fun task => ?_⟩
  · have hsome (walk : Walk) : (∃ assignment ∈ walk.started, assignment.task.job = job.id) ↔
        ∃ task : TaskId, task.job = job.id ∧ walk.starts task := by
      constructor
      · rintro ⟨assignment, hmem, hjob⟩
        exact ⟨assignment.task, hjob, List.mem_map_of_mem hmem⟩
      · rintro ⟨task, hjob, hmem⟩
        obtain ⟨assignment, hassignment, rfl⟩ := List.mem_map.mp hmem
        exact ⟨assignment, hassignment, hjob⟩
    have hsame : (∃ assignment ∈ b.started, assignment.task.job = job.id) ↔
        ∃ assignment ∈ a.started, assignment.task.job = job.id := by
      rw [hsome, hsome]
      exact exists_congr fun task => and_congr_right (hstarts task)
    rw [h.status]
    simp only [hsame]
  · rw [h.statusOf? task htask]
    simp only [hstarts task htask]
  · rw [h.cards]
    apply List.map_congr_left
    intro card hcard
    have hjob : card.id.job = job.id :=
      (Board.card_eq_ok_iff.mp (hs.board.wired.card_id_of_mem hcard)).1
    simp only [Walk.mark, hwalked card.id hjob, hstarts card.id hjob]
  · rw [h.eligible]
    refine and_congr_right fun hmem => not_congr ?_
    have hjob : task.job = job.id :=
      Board.job_eq_of_placeOf (hs.board.partitioned.mem_eligible_iff.mp hmem)
    exact (hstarts task hjob).symm
  · rw [h.running]
    exact or_congr Iff.rfl (and_congr_right fun hjob => (hstarts task hjob).symm)

-- What a job offers to a walk: its eligible tasks, in id order.
def offers (job : LiveJob) : List (LiveJob × Card) :=
  (job.board.cards.filter (·.place == .eligible)).map (job, ·)

section Offers

variable {job : LiveJob} (hs : job.Sound)
include hs

theorem eligibleCards_eq : job.board.eligibleCards = job.board.cards.filter (·.place == .eligible) := by
  have hids : job.board.eligible.toList =
      (job.board.cards.filter (·.place == .eligible)).map Card.id :=
    hs.board.partitioned.toList_partition hs.board.wired (show Place.eligible.isPartition from rfl)
  have hcard (card : Card) (hcard : card ∈ job.board.cards.filter (·.place == .eligible)) :
      job.board.cards[card.id.index]? = some card :=
    (Board.card_eq_ok_iff.mp (hs.board.wired.card_id_of_mem (List.mem_of_mem_filter hcard))).2
  rw [Board.eligibleCards, hids]
  generalize job.board.cards.filter (·.place == .eligible) = cards at hcard
  induction cards with
  | nil => rfl
  | cons first rest ih =>
      obtain ⟨hfirst, hrest⟩ := List.forall_mem_cons.mp hcard
      rw [List.map_cons, List.filterMap_cons, hfirst]
      exact congrArg (first :: ·) (ih hrest)

theorem along_offers (accepts : Card → Bool) (budget : Nat) :
    Walk.along accepts budget job.offers =
      let selection := Selection.among accepts budget job.board.eligibleCards
      ⟨budget - (selection.chosen.map Card.resources).sum, selection.considered.map Card.id,
        selection.chosen.map fun card => .ofCard job.submission.name (Board.tryOnce card)⟩ := by
  rw [offers, Walk.along_map, eligibleCards_eq hs]

-- A job offers nothing but its own tasks.
theorem job_of_offers {entry : LiveJob × Card} (h : entry ∈ job.offers) : entry.2.id.job = job.id := by
  obtain ⟨card, hcard, rfl⟩ := List.mem_map.mp h
  exact (Board.card_eq_ok_iff.mp (hs.board.wired.card_id_of_mem (List.mem_of_mem_filter hcard))).1

variable (accepts : Card → Bool) (budget : Nat)

theorem starts_offers (task : TaskId) : (Walk.along accepts budget job.offers).starts task ↔
    task ∈ (Selection.among accepts budget job.board.eligibleCards).chosen.map Card.id := by
  rw [along_offers hs, Walk.starts, List.map_map]
  exact Iff.rfl

theorem mark_offers (card : Card) : (Walk.along accepts budget job.offers).mark card =
    serving (Selection.among accepts budget job.board.eligibleCards) card.id card := by
  simp only [Walk.mark, serving, starts_offers hs]
  rw [along_offers hs]

theorem eligible_of_chosen {card : Card}
    (h : card ∈ (Selection.among accepts budget job.board.eligibleCards).chosen) :
    job.board.card card.id = .ok card ∧ card.place = .eligible :=
  Board.card_of_eligibleCards hs.board
    ((Selection.considered_sublist accepts budget job.board.eligibleCards).subset
      ((Selection.chosen_sublist accepts budget job.board.eligibleCards).subset h))

theorem card_of_chosen {card : Card}
    (h : card ∈ (Selection.among accepts budget job.board.eligibleCards).chosen) :
    job.board.card card.id = .ok card ∧ card.id.job = job.id := by
  obtain ⟨hcard, -⟩ := eligible_of_chosen hs accepts budget h
  exact ⟨hcard, (Board.card_eq_ok_iff.mp hcard).1⟩

-- Only tasks that wait for a worker are started.
theorem placeOf_of_starts {task : TaskId} (h : (Walk.along accepts budget job.offers).starts task) :
    job.board.placeOf task = .ok .eligible := by
  obtain ⟨card, hcard, rfl⟩ := List.mem_map.mp ((starts_offers hs accepts budget task).mp h)
  obtain ⟨hok, heligible⟩ := eligible_of_chosen hs accepts budget hcard
  exact (Board.placeOf_of_card hok).trans (congrArg Except.ok heligible)

theorem placeOf_served (task : TaskId) :
    (job.served (Selection.among accepts budget job.board.eligibleCards)).board.placeOf task =
      if (Walk.along accepts budget job.offers).starts task then .ok .running
      else job.board.placeOf task := by
  rw [Board.placeOf_eq, card_served hs, Board.placeOf_eq]
  split
  · rename_i hstarts
    have hmem := (starts_offers hs accepts budget task).mp hstarts
    obtain ⟨card, hcard, rfl⟩ := List.mem_map.mp hmem
    rw [(card_of_chosen hs accepts budget hcard).1]
    exact congrArg Except.ok ((serving_place _ card.id card).trans (if_pos hmem))
  · rename_i hnot
    rw [starts_offers hs] at hnot
    cases job.board.card task with
    | error fault => rfl
    | ok card => exact congrArg Except.ok ((serving_place _ task card).trans (if_neg hnot))

theorem status_served :
    (job.served (Selection.among accepts budget job.board.eligibleCards)).status =
      if job.status = .pending ∧ ∃ assignment ∈ (Walk.along accepts budget job.offers).started,
        assignment.task.job = job.id then .running else job.status := by
  have hsome : (Selection.among accepts budget job.board.eligibleCards).chosen ≠ [] ↔
      ∃ assignment ∈ (Walk.along accepts budget job.offers).started,
        assignment.task.job = job.id := by
    rw [along_offers hs]
    constructor
    · intro hne
      obtain ⟨card, rest, hcons⟩ := List.exists_cons_of_ne_nil hne
      have hmem : card ∈ (Selection.among accepts budget job.board.eligibleCards).chosen :=
        hcons ▸ List.mem_cons_self
      exact ⟨_, List.mem_map_of_mem hmem, (card_of_chosen hs accepts budget hmem).2⟩
    · rintro ⟨_, hmem, -⟩ hnil
      dsimp only at hmem
      rw [hnil] at hmem
      cases hmem
  rw [served, status_foldl_started, (statuses_foldl_attempted job _).2]
  simp only [hsome]

theorem statusOf?_served {task : TaskId} (htask : task.job = job.id) :
    (job.served (Selection.among accepts budget job.board.eligibleCards)).statusOf? task =
      if (Walk.along accepts budget job.offers).starts task then some .running
      else job.statusOf? task := by
  have hattempted := undisturbed_foldl undisturbed_attempted job
    (Selection.among accepts budget job.board.eligibleCards).considered
  obtain ⟨hstatuses, -⟩ := statuses_foldl_attempted job
    (Selection.among accepts budget job.board.eligibleCards).considered
  rw [served, statusOf?_foldl_started (fun card hcard => ?_) (htask.trans hattempted.id.symm)]
  · simp only [starts_offers hs, LiveJob.statusOf?, hstatuses]
  · obtain ⟨hok, hjob⟩ := card_of_chosen hs accepts budget hcard
    rw [hattempted.id, hstatuses, hs.length]
    exact ⟨hjob, (List.getElem?_eq_some_iff.mp (Board.card_eq_ok_iff.mp hok).2).1⟩

-- A pass over the tasks of a job marks it as a walk over them does.
theorem marked_served : Marked (Walk.along accepts budget job.offers) job
    (job.served (Selection.among accepts budget job.board.eligibleCards)) := by
  have hserved := (advances_served hs accepts budget).sound
  have hundisturbed := undisturbed_served job (Selection.among accepts budget job.board.eligibleCards)
  have hcards : (job.served (Selection.among accepts budget job.board.eligibleCards)).board.cards =
      job.board.cards.map (Walk.along accepts budget job.offers).mark := by
    rw [Board.cards_eq_of_card hs.board.wired hundisturbed.id (card_served hs accepts budget)]
    exact List.map_congr_left fun card _ => (mark_offers hs accepts budget card).symm
  refine ⟨hundisturbed, status_served hs accepts budget, ?_, fun task => statusOf?_served hs accepts budget,
    hcards, fun task => ?_, fun task => ?_⟩
  · rw [hserved.length, hs.length, Board.size, hcards, List.length_map, Board.size]
  · rw [hserved.board.partitioned.mem_eligible_iff, hs.board.partitioned.mem_eligible_iff,
      placeOf_served hs]
    split <;> simp_all
  · rw [hserved.board.partitioned.mem_running_iff, hs.board.partitioned.mem_running_iff,
      placeOf_served hs]
    by_cases hstarts : (Walk.along accepts budget job.offers).starts task
    · obtain ⟨card, hcard, rfl⟩ := List.mem_map.mp ((starts_offers hs accepts budget task).mp hstarts)
      simp [hstarts, (card_of_chosen hs accepts budget hcard).2]
    · simp [hstarts]

end Offers

end LiveJob

end JobScheduler
