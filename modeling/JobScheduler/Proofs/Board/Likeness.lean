import JobScheduler.Proofs.Board.Attempts
import JobScheduler.Proofs.Board.Layout
import JobScheduler.Proofs.Board.Outline

namespace JobScheduler

-- What changes of a card, but for the number of times it was looked at.
def Card.standing (card : Card) : Place × Nat × Nat := (card.place, card.unmet, card.remaining)

namespace Board

section Links

-- The parents that a task has in a job of some kind.
def linksOf (kind : JobKind) (task : PlannedTask) : List TaskId :=
  if kind = .taskFlow then task.dependencies else []

-- What is fixed of the cards of some tasks.
def wiring (kind : JobKind) (tasks : List PlannedTask) :
    List (PlannedTask × List TaskId × List TaskId) :=
  tasks.map fun task => (task, linksOf kind task, tasks.flatMap fun child =>
    List.replicate ((linksOf kind child).count task.id) child.id)

-- The links between the cards of a board follow from their tasks.
theorem Wired.fixed_eq {board : Board} (hw : board.Wired) :
    board.cards.map Card.fixed = wiring board.kind (board.cards.map Card.task) := by
  rw [wiring, List.map_map]
  apply List.map_congr_left
  intro card hcard
  have hchildren : card.children = board.cards.flatMap fun child =>
      List.replicate ((linksOf board.kind child.task).count card.id) child.id := by
    rw [hw.children card hcard, List.flatMap_def, List.flatMap_def]
    congr 1
    apply List.map_congr_left
    intro child hchild
    rw [hw.parents child hchild]
    rfl
  simp only [Card.fixed, Function.comp_apply, List.flatMap_map]
  rw [hw.parents card hcard, hchildren]
  rfl

theorem LaysOut.sameTasks {a b : Board} {submission : Submission} (ha : a.LaysOut submission)
    (hb : b.LaysOut submission) (hjob : b.job = a.job) : a.SameTasks b where
  job := hjob
  kind := hb.kind.trans ha.kind.symm
  fixed := by
    have htasks := ha.resolved
    rw [← hjob, hb.resolved, Except.ok.injEq] at htasks
    rw [ha.wired.fixed_eq, hb.wired.fixed_eq, htasks, ha.kind, hb.kind]

end Links

section Places

variable {a b : Board} (hsame : a.SameTasks b)
include hsame

-- Boards with the same tasks know the same ids.
theorem SameTasks.placeOf_eq (h : ∀ id place, a.placeOf id = .ok place → b.placeOf id = .ok place) :
    b.placeOf = a.placeOf := by
  funext id
  cases hold : a.placeOf id with
  | ok place => exact h id place hold
  | error fault =>
      cases hnew : b.placeOf id with
      | ok place =>
          obtain ⟨card, hcard, -⟩ := placeOf_eq_ok_iff.mp hnew
          obtain ⟨card', hcard', -⟩ := hsame.symm.card hcard
          rw [placeOf_of_card hcard'] at hold
          cases hold
      | error fault' =>
          rw [placeOf_eq_error hold, placeOf_eq_error hnew]

variable (ha : a.Sound) (hb : b.Sound) (hgoesOn : a.failed = false) (hgoesOn' : b.failed = false)
  (hplace : b.placeOf = a.placeOf)
include ha hb hplace

omit hsame in
theorem toList_partition_eq {place : Place} (h : place.isPartition) :
    (b.partition place).toList = (a.partition place).toList := by
  rw [hb.partitioned.toList_partition hb.wired h]
  refine (SortedSet.toList_eq_of_increasing (idsAt_increasing hb.wired place) fun id => ?_).symm
  rw [ha.partitioned.member_iff place h id, ← hplace, mem_idsAt_iff hb.wired]

include hgoesOn hgoesOn'

-- As counters count what has not terminated, they follow from the places of the tasks.
theorem SameTasks.standing_eq : b.cards.map Card.standing = a.cards.map Card.standing := by
  apply List.ext_getElem?
  intro index
  rw [List.getElem?_map, List.getElem?_map]
  cases hcard : a.cards[index]? with
  | none =>
      have hlength := List.getElem?_eq_none_iff.mp hcard
      rw [List.getElem?_eq_none (Nat.le_trans (Nat.le_of_eq hsame.size) hlength)]
  | some card =>
      obtain ⟨card', hcard', hfixed⟩ := hsame.getElem? hcard
      have hok : a.card card.id = .ok card := ha.wired.card_eq_ok_of_getElem? hcard
      have hok' : b.card card.id = .ok card' := by
        rw [ha.wired.ids index card hcard, ← hsame.job]
        exact card_eq_ok_iff.mpr ⟨rfl, hcard'⟩
      have hstands := congrFun hplace card.id
      rw [placeOf_of_card hok, placeOf_of_card hok', Except.ok.injEq] at hstands
      simp only [Card.fixed, Prod.mk.injEq] at hfixed
      have hcounted := ha.counted hgoesOn
      have hcounted' := hb.counted hgoesOn'
      rw [hcard', Option.map_some, Option.map_some, Card.standing, Card.standing, hstands,
        hcounted.unmet _ _ hok, hcounted'.unmet _ _ hok', hcounted.remaining _ _ hok,
        hcounted'.remaining _ _ hok', hfixed.2.1, hfixed.2.2, unfinished_congr hplace]

theorem SameTasks.snapshot_eq : b.snapshot = a.snapshot := by
  have hstanding := hsame.standing_eq ha hb hgoesOn hgoesOn' hplace
  have hunmet := congrArg (List.map (·.2.1)) hstanding
  have hremaining := congrArg (List.map (·.2.2)) hstanding
  have hlists (place : Place) (h : place.isPartition) := toList_partition_eq ha hb hplace h
  rw [List.map_map, List.map_map] at hunmet hremaining
  rw [snapshot, snapshot, Snapshot.mk.injEq]
  exact ⟨hlists .eligible rfl, hlists .running rfl, hlists .paused rfl, hunmet, hremaining⟩

-- Boards that passes have looked at as often are then one and the same.
theorem SameTasks.eq_of_placeOf (hpriority : b.priority = a.priority) (hattempts : b.attempts = a.attempts) :
    b = a := by
  have hstanding := hsame.standing_eq ha hb hgoesOn hgoesOn' hplace
  have hcards : b.cards = a.cards := by
    have hall : b.cards.map (fun card => (card.fixed, card.standing, card.attempts)) =
        a.cards.map fun card => (card.fixed, card.standing, card.attempts) := by
      refine List.ext_getElem? fun index => ?_
      have hfixed' := congrArg (·[index]?) hsame.fixed
      have hstanding' := congrArg (·[index]?) hstanding
      have hattempts' := congrArg (·[index]?) hattempts
      simp only [attempts, List.getElem?_map] at hfixed' hstanding' hattempts' ⊢
      cases hold : a.cards[index]? <;> cases hnew : b.cards[index]? <;> simp_all
    refine (List.map_inj_right fun card card' heq => ?_).mp hall
    cases card
    cases card'
    simp_all [Card.fixed, Card.standing]
  have hdone : b.done = a.done := by
    rw [hb.partitioned.done_eq, ha.partitioned.done_eq, countAt, countAt, hcards]
  have hlists (place : Place) (h : place.isPartition) : b.partition place = a.partition place :=
    SortedSet.ext_toList (toList_partition_eq ha hb hplace h)
  have heligible : b.eligible = a.eligible := hlists .eligible rfl
  have hrunning : b.running = a.running := hlists .running rfl
  have hpaused : b.paused = a.paused := hlists .paused rfl
  have hjob := hsame.job
  have hkind := hsame.kind
  cases a
  cases b
  simp_all

end Places

section Futures

-- The partitions and the counters of unfinished parents tell where a task stands that is
-- not done.
theorem SameTasks.placeOf_of_snapshot {a b : Board} (hsame : a.SameTasks b) (ha : a.Sound)
    (hb : b.Sound) (hgoesOn : a.failed = false) (hgoesOn' : b.failed = false)
    (hsnapshot : b.snapshot = a.snapshot) {id : TaskId} {place : Place} (hopen : place ≠ .done)
    (h : a.placeOf id = .ok place) : b.placeOf id = .ok place := by
  simp only [snapshot, Snapshot.mk.injEq] at hsnapshot
  obtain ⟨heligible, hrunning, hpaused, hunmet, -⟩ := hsnapshot
  have hp := ha.partitioned
  have hp' := hb.partitioned
  cases place with
  | eligible => exact hp'.mem_eligible_iff.mp (heligible ▸ hp.mem_eligible_iff.mpr h)
  | running => exact hp'.mem_running_iff.mp (hrunning ▸ hp.mem_running_iff.mpr h)
  | paused => exact hp'.mem_paused_iff.mp (hpaused ▸ hp.mem_paused_iff.mpr h)
  | done => exact absurd rfl hopen
  | blocked =>
      obtain ⟨card, hcard, hblocked⟩ := placeOf_eq_ok_iff.mp h
      obtain ⟨card', hcard', -⟩ := hsame.card hcard
      have hcounts := congrArg (·[id.index]?) hunmet
      simp only [List.getElem?_map, (card_eq_ok_iff.mp hcard).2, (card_eq_ok_iff.mp hcard').2,
        Option.map_some, Option.some.injEq] at hcounts
      have hwaits := ((ha.counted hgoesOn).blocked id card hcard).mp hblocked
      rw [placeOf_of_card hcard', ((hb.counted hgoesOn').blocked id card' hcard').mpr (hcounts ▸ hwaits)]

-- Two boards of one job that goes on, with every task at the same place.
structure Alike (a b : Board) : Prop where
  sound : a.Sound
  sound' : b.Sound
  goesOn : a.failed = false
  goesOn' : b.failed = false
  same : a.SameTasks b
  places : b.placeOf = a.placeOf

theorem alike_of_snapshot {a b : Board} (hsame : a.SameTasks b) (ha : a.Sound) (hb : b.Sound)
    (hgoesOn : a.failed = false) (hgoesOn' : b.failed = false) (hsnapshot : b.snapshot = a.snapshot) :
    a.Alike b := by
  refine ⟨ha, hb, hgoesOn, hgoesOn', hsame, hsame.placeOf_eq fun id place hplace => ?_⟩
  by_cases hopen : place = .done
  · -- What stands elsewhere on the other board would stand there on this one.
    obtain ⟨card, hcard, -⟩ := placeOf_eq_ok_iff.mp hplace
    obtain ⟨card', hcard', -⟩ := hsame.card hcard
    have hplace' := placeOf_of_card hcard'
    by_cases hopen' : card'.place = .done
    · rw [hplace', hopen', hopen]
    · have hback := hsame.symm.placeOf_of_snapshot hb ha hgoesOn' hgoesOn hsnapshot.symm hopen' hplace'
      rw [hplace] at hback
      rw [hplace', hback]
  · exact hsame.placeOf_of_snapshot ha hb hgoesOn hgoesOn' hsnapshot hopen hplace

-- What can be asked of the tasks of a job without giving up on it.
inductive Ask
  | transit (id : TaskId) (transition : Transition)
  | applyStatuses (statuses : SortedMap TaskId TaskStatus)

def Ask.call : Ask → Call
  | .transit id transition => transition.call id
  | .applyStatuses statuses => .applyStatuses statuses

-- A move is answered with the tasks that it lets go on or with the reason why it is refused,
-- and new statuses with the number of tasks that they have moved.
inductive Answer
  | moved (promoted : Except Fault (List TaskId))
  | restated (count : Nat)
deriving DecidableEq

def answer (board : Board) : Ask → Answer
  | .transit id transition => .moved ((board.transit id transition).map (·.2))
  | .applyStatuses statuses => .restated (board.applyStatuses statuses).2

def answers (board : Board) : List Ask → List Answer
  | [] => []
  | ask :: rest => board.answer ask :: (board.obey ask.call).answers rest

theorem Ask.not_abandons (ask : Ask) : ask.call.abandons = false := by
  cases ask with
  | transit id transition => cases transition <;> rfl
  | applyStatuses statuses => rfl

-- What a move does to the outline of a board is what it shows.
theorem outline_obey (board : Board) (id : TaskId) (transition : Transition) :
    (board.obey (transition.call id)).outline =
      match (board.transit id transition).map shown with
      | .ok result => result.1
      | .error _ => board.outline := by
  rw [obey_call]
  cases board.transit id transition <;> rfl

theorem SameTasks.placeOf_of_outline {a b : Board} (hsame : a.SameTasks b) (h : b.outline = a.outline) :
    b.placeOf = a.placeOf := by
  refine hsame.placeOf_eq fun id place hplace => ?_
  rw [← placeOf?_outline, h]
  exact placeOf?_outline.mpr hplace

namespace Alike

variable {a b : Board} (h : a.Alike b)
include h

theorem snapshot_eq : b.snapshot = a.snapshot :=
  h.same.snapshot_eq h.sound h.sound' h.goesOn h.goesOn' h.places

theorem outline_eq : b.outline = a.outline := by
  have hplaces (id : TaskId) : b.placeOf id = if id ∈ ([] : List TaskId) then .ok .done else a.placeOf id := by
    simp [h.places]
  rw [outline_eq_placed h.same hplaces, Outline.placed_nil]

theorem shown_transit_eq (id : TaskId) (transition : Transition) :
    (b.transit id transition).map shown = (a.transit id transition).map shown := by
  rw [shown_transit h.sound h.goesOn, shown_transit h.sound' h.goesOn', h.outline_eq]

theorem answer_eq (ask : Ask) : b.answer ask = a.answer ask := by
  cases ask with
  | transit id transition =>
      have htold (board : Board) : (board.transit id transition).map (·.2) =
          ((board.transit id transition).map shown).map (·.2) := by
        cases board.transit id transition <;> rfl
      rw [answer, answer, htold b, htold a, h.shown_transit_eq]
  | applyStatuses statuses =>
      have hcount : (b.applyStatuses statuses).2 = (a.applyStatuses statuses).2 := by
        rw [count_applyStatuses h.sound'.wired, count_applyStatuses h.sound.wired, h.same.map_id]
        simp only [placeOf_applyStatuses, h.places, h.goesOn, h.goesOn']
      rw [answer, answer, hcount]

theorem obey (ask : Ask) : (a.obey ask.call).Alike (b.obey ask.call) := by
  obtain ⟨hsound, hsame, hfailed⟩ := obeyed h.sound ask.call
  obtain ⟨hsound', hsame', hfailed'⟩ := obeyed h.sound' ask.call
  have htasks := (hsame.symm.trans h.same).trans hsame'
  refine ⟨hsound, hsound', (hfailed ask.not_abandons).trans h.goesOn,
    (hfailed' ask.not_abandons).trans h.goesOn', htasks, ?_⟩
  cases ask with
  | transit id transition =>
      apply htasks.placeOf_of_outline
      rw [Ask.call, outline_obey, outline_obey, h.shown_transit_eq, h.outline_eq]
  | applyStatuses statuses =>
      funext id
      show (b.applyStatuses statuses).1.placeOf id = (a.applyStatuses statuses).1.placeOf id
      rw [placeOf_applyStatuses, placeOf_applyStatuses, h.places, h.goesOn, h.goesOn']

theorem obeyAll (asks : List Ask) :
    b.answers asks = a.answers asks ∧
      (a.obeyAll (asks.map Ask.call)).Alike (b.obeyAll (asks.map Ask.call)) := by
  induction asks generalizing a b with
  | nil => exact ⟨rfl, h⟩
  | cons ask rest ih =>
      obtain ⟨hanswers, halike⟩ := ih (h.obey ask)
      exact ⟨by rw [answers, answers, h.answer_eq, hanswers], halike⟩

end Alike

-- Two ways to use a board, none of which gives up on its job, that leave the same snapshot
-- leave every task at the same place, and whatever is asked from then on is answered the
-- same and leaves the same snapshot again.
theorem answers_eq_of_snapshot_eq {job : JobId} {priority : Priority} {kind : JobKind}
    {tasks : List PlannedTask} {board : Board} (h : build job priority kind tasks = .ok board)
    (before before' : List Call) (hkeeps : ∀ call ∈ before, call.abandons = false)
    (hkeeps' : ∀ call ∈ before', call.abandons = false)
    (hsnapshot : (board.obeyAll before').snapshot = (board.obeyAll before).snapshot) :
    (∀ id, (board.obeyAll before').placeOf id = (board.obeyAll before).placeOf id) ∧
      ∀ asks : List Ask,
        (board.obeyAll before').answers asks = (board.obeyAll before).answers asks ∧
        ((board.obeyAll before').obeyAll (asks.map Ask.call)).snapshot =
          ((board.obeyAll before).obeyAll (asks.map Ask.call)).snapshot := by
  obtain ⟨hsound, hsame, hfailed⟩ := all_obeyed (sound_of_build h) before
  obtain ⟨hsound', hsame', hfailed'⟩ := all_obeyed (sound_of_build h) before'
  have halike := alike_of_snapshot (hsame.symm.trans hsame') hsound hsound'
    ((hfailed hkeeps).trans (failed_of_build h)) ((hfailed' hkeeps').trans (failed_of_build h)) hsnapshot
  refine ⟨fun id => congrFun halike.places id, fun asks => ?_⟩
  obtain ⟨hanswers, hafter⟩ := halike.obeyAll asks
  exact ⟨hanswers, hafter.snapshot_eq⟩

-- A task that was started and sent back, and one that was held and let go.
theorem answers_eq_of_snapshot_eq_tangled :
    ∃ board, build ⟨0⟩ .normal .taskFlow tangled = .ok board ∧
      let asks : List Ask := [.transit ⟨⟨0⟩, 0⟩ .start, .transit ⟨⟨0⟩, 0⟩ .pause, .transit ⟨⟨0⟩, 0⟩ .terminate]
      let before : List Call := [.start ⟨⟨0⟩, 0⟩, .restart ⟨⟨0⟩, 0⟩]
      let before' : List Call := [.recordAttempt ⟨⟨0⟩, 0⟩, .pause ⟨⟨0⟩, 0⟩, .resume ⟨⟨0⟩, 0⟩]
      (board.obeyAll before').snapshot = (board.obeyAll before).snapshot ∧
      (board.obeyAll before').answers asks = (board.obeyAll before).answers asks ∧
      (board.obeyAll before).answers asks = [.moved (.ok []),
        .moved (.error (.contract ⟨⟨0⟩, 0⟩ (.misplaced .eligible .running))), .moved (.ok [⟨⟨0⟩, 1⟩])] := by
  have hbuild : ∃ board, build ⟨0⟩ .normal .taskFlow tangled = .ok board := ⟨_, rfl⟩
  obtain ⟨board, hboard⟩ := hbuild
  have hsnapshot : (board.obeyAll [.recordAttempt ⟨⟨0⟩, 0⟩, .pause ⟨⟨0⟩, 0⟩, .resume ⟨⟨0⟩, 0⟩]).snapshot =
      (board.obeyAll [.start ⟨⟨0⟩, 0⟩, .restart ⟨⟨0⟩, 0⟩]).snapshot := by
    cases hboard
    decide
  obtain ⟨-, hfuture⟩ := answers_eq_of_snapshot_eq hboard [.start ⟨⟨0⟩, 0⟩, .restart ⟨⟨0⟩, 0⟩]
    [.recordAttempt ⟨⟨0⟩, 0⟩, .pause ⟨⟨0⟩, 0⟩, .resume ⟨⟨0⟩, 0⟩] (by decide) (by decide) hsnapshot
  refine ⟨board, hboard, hsnapshot, (hfuture _).1, ?_⟩
  cases hboard
  decide

end Futures

end Board

end JobScheduler
