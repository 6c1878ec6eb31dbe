import Mathlib.Logic.Relation
import Mathlib.Order.WellFoundedSet
import JobScheduler.Proofs.Board.Waiting

namespace JobScheduler

open Relation

-- A plan has one task wait for another.
def WaitsFor (tasks : List PlannedTask) (child parent : TaskId) : Prop :=
  ∃ task ∈ tasks, task.id = child ∧ parent ∈ task.dependencies

-- A task is on a cycle or has an ancestor that is on one.
def BehindCycle (tasks : List PlannedTask) (id : TaskId) : Prop :=
  ∃ other, ReflTransGen (WaitsFor tasks) id other ∧ TransGen (WaitsFor tasks) other other

section Cycles

variable {tasks : List PlannedTask} {id parent : TaskId}

theorem BehindCycle.of_parent (hparent : WaitsFor tasks id parent) (h : BehindCycle tasks parent) :
    BehindCycle tasks id := by
  obtain ⟨other, hway, hcycle⟩ := h
  exact ⟨other, .head hparent hway, hcycle⟩

-- The way to a cycle, and the cycle itself for a task that is on it, begins at a parent.
theorem BehindCycle.exists_parent (h : BehindCycle tasks id) :
    ∃ parent, WaitsFor tasks id parent ∧ BehindCycle tasks parent := by
  obtain ⟨other, hway, hcycle⟩ := h
  rcases ReflTransGen.cases_head hway with rfl | ⟨parent, hparent, hway⟩
  · obtain ⟨parent, hparent, hback⟩ := TransGen.head'_iff.mp hcycle
    exact ⟨parent, hparent, id, hback, hcycle⟩
  · exact ⟨parent, hparent, other, hway, hcycle⟩

-- A task that the other waits for, if only by way of others, and that is behind no cycle.
def Above (tasks : List PlannedTask) (ancestor child : TaskId) : Prop :=
  TransGen (WaitsFor tasks) child ancestor ∧ ¬BehindCycle tasks ancestor

instance : IsStrictOrder TaskId (Above tasks) where
  irrefl := fun id habove => habove.2 ⟨id, .refl, habove.1⟩
  trans := fun _ _ _ h h' => ⟨h'.1.trans h.1, h.2⟩

-- As there are finitely many tasks, the way from a task to its ancestors has an end unless
-- the task is behind a cycle.
theorem ancestry_induction {motive : TaskId → Prop}
    (hstep : ∀ id, id ∈ tasks.map PlannedTask.id → ¬BehindCycle tasks id →
      (∀ parent ∈ tasks.map PlannedTask.id, WaitsFor tasks id parent → motive parent) → motive id)
    (hid : id ∈ tasks.map PlannedTask.id) (hahead : ¬BehindCycle tasks id) : motive id := by
  have hfounded : {id | id ∈ tasks.map PlannedTask.id}.WellFoundedOn (Above tasks) :=
    (List.finite_toSet _).wellFoundedOn
  refine hfounded.induction hid (P := fun id => ¬BehindCycle tasks id → motive id) ?_ hahead
  intro id hid ih hahead
  refine hstep id hid hahead fun parent hparent hwaits => ?_
  have hahead' : ¬BehindCycle tasks parent := fun hbehind => hahead (.of_parent hwaits hbehind)
  exact ih parent hparent ⟨.single hwaits, hahead'⟩ hahead'

end Cycles

namespace Board

-- A call that does not give up on the job lets no task finish that waits.
theorem not_done_of_blocked {board : Board} (hs : board.Sound) {call : Call}
    (hcall : call.abandons = false) (hgoesOn : board.failed = false) {id : TaskId}
    (h : board.placeOf id = .ok .blocked) : (board.obey call).placeOf id ≠ .ok .done := by
  have hopen := ((obeyed hs call).2.2 hcall).trans hgoesOn
  have heffect := effect_of_obey board call
  revert heffect hopen
  generalize board.obey call = board'
  intro hopen heffect
  have hstays (hplace : board'.placeOf id = board.placeOf id) : board'.placeOf id ≠ .ok .done := by
    rw [hplace, h]
    simp
  have hother {other : TaskId} {source : Place} (hsource : source.isPartition)
      (hplace : board.placeOf other = .ok source) : id ≠ other := by
    rintro rfl
    rw [h] at hplace
    exact Place.ne_blocked_of_isPartition hsource (Except.ok.inj hplace).symm
  cases heffect with
  | refused => exact hstays rfl
  | moved other source target hplace hsource htarget =>
      apply hstays
      rw [placeOf_relocate target hplace, if_neg (hother hsource hplace)]
  | finished other source hsource hfinish =>
      have hplace := placeOf_of_finish hfinish
      obtain ⟨final, promoted, hfinal, hpromotes⟩ := finish_promotes hs.wired hplace
      rw [hfinish] at hfinal
      cases hfinal
      rw [hpromotes.place]
      split
      · simp
      · rw [placeOf_relocate .done hplace, if_neg (hother hsource hplace), h]
        simp
  | tried other =>
      have hplaces : (board.modifyCard other tryOnce).placeOf = board.placeOf :=
        placeOf_modifyCard_of_keeps fun _ => rfl
      exact hstays (congrFun hplaces id)
  | restated statuses =>
      apply hstays
      rw [placeOf_applyStatuses, h, Except.map, Place.redirect_blocked]
  | reprioritized priority => exact hstays rfl
  | failed => cases hopen
  | tornDown =>
      rw [failed_teardown] at hopen
      cases hopen

-- A task flow with certain tasks that nobody has given up on.
structure Flows (board : Board) (tasks : List PlannedTask) : Prop where
  sound : board.Sound
  goesOn : board.failed = false
  kind : board.kind = .taskFlow
  planned : board.cards.map Card.task = tasks

theorem flows_of_build {job : JobId} {priority : Priority} {tasks : List PlannedTask} {board : Board}
    (h : build job priority .taskFlow tasks = .ok board) : board.Flows tasks :=
  ⟨sound_of_build h, failed_of_build h, kind_of_build h, map_task_of_build h⟩

namespace Flows

variable {board : Board} {tasks : List PlannedTask} (h : board.Flows tasks)
include h

theorem obey {call : Call} (hcall : call.abandons = false) : (board.obey call).Flows tasks := by
  obtain ⟨hsound, hsame, hfailed⟩ := obeyed h.sound call
  exact ⟨hsound, (hfailed hcall).trans h.goesOn, hsame.kind.trans h.kind, hsame.map_task.trans h.planned⟩

theorem mem_iff {id : TaskId} :
    id ∈ tasks.map PlannedTask.id ↔ ∃ card, board.card id = .ok card := by
  rw [← h.planned, List.map_map, List.mem_map]
  constructor
  · rintro ⟨card, hcard, rfl⟩
    exact ⟨card, h.sound.wired.card_id_of_mem hcard⟩
  · rintro ⟨card, hcard⟩
    exact ⟨card, Wired.mem_of_card hcard, h.sound.wired.id_of_card hcard⟩

theorem waitsFor_iff {child parent : TaskId} :
    WaitsFor tasks child parent ↔ ∃ card, board.card child = .ok card ∧ parent ∈ card.parents := by
  have hparents {card : Card} (hcard : card ∈ board.cards) : card.parents = card.task.dependencies :=
    (h.sound.wired.parents card hcard).trans (if_pos h.kind)
  constructor
  · rintro ⟨task, htask, rfl, hparent⟩
    rw [← h.planned] at htask
    obtain ⟨card, hcard, rfl⟩ := List.mem_map.mp htask
    exact ⟨card, h.sound.wired.card_id_of_mem hcard, (hparents hcard).symm ▸ hparent⟩
  · rintro ⟨card, hcard, hparent⟩
    have hmem := Wired.mem_of_card hcard
    rw [hparents hmem] at hparent
    exact ⟨card.task, h.planned ▸ List.mem_map_of_mem hmem, h.sound.wired.id_of_card hcard, hparent⟩

-- Whoever waits for a task that is not done is blocked.
theorem blocked_of_waitsFor {child parent : TaskId} (hwaits : WaitsFor tasks child parent)
    (hparent : board.placeOf parent ≠ .ok .done) : board.placeOf child = .ok .blocked := by
  obtain ⟨card, hcard, hmem⟩ := h.waitsFor_iff.mp hwaits
  rw [placeOf_of_card hcard]
  by_contra hplace
  exact hparent (h.sound.parents_done h.goesOn hcard (fun heq => hplace (congrArg _ heq)) hmem)

-- What is behind a cycle waits for a task that was blocked a call ago and thus cannot have
-- finished.
theorem blocked_obey {call : Call} (hcall : call.abandons = false)
    (hall : ∀ id, BehindCycle tasks id → board.placeOf id = .ok .blocked) (id : TaskId)
    (hid : BehindCycle tasks id) : (board.obey call).placeOf id = .ok .blocked := by
  obtain ⟨parent, hwaits, hparent⟩ := hid.exists_parent
  exact (h.obey hcall).blocked_of_waitsFor hwaits
    (not_done_of_blocked h.sound hcall h.goesOn (hall parent hparent))

theorem blocked_obeyAll {calls : List Call} (hcalls : ∀ call ∈ calls, call.abandons = false)
    (hall : ∀ id, BehindCycle tasks id → board.placeOf id = .ok .blocked) :
    (board.obeyAll calls).Flows tasks ∧
      ∀ id, BehindCycle tasks id → (board.obeyAll calls).placeOf id = .ok .blocked := by
  induction calls generalizing board with
  | nil => exact ⟨h, hall⟩
  | cons call rest ih =>
      obtain ⟨hcall, hrest⟩ := List.forall_mem_cons.mp hcalls
      exact ih (h.obey hcall) hrest (h.blocked_obey hcall hall)

-- Where no task can be moved any more, whoever is behind no cycle has no unfinished parent,
-- as its parents are behind none either.
theorem done_of_idle (hidle : ∀ id place, board.placeOf id = .ok place → ¬place.isPartition)
    {id : TaskId} (hid : id ∈ tasks.map PlannedTask.id) (hahead : ¬BehindCycle tasks id) :
    board.placeOf id = .ok .done := by
  refine ancestry_induction (motive := fun id => board.placeOf id = .ok .done) ?_ hid hahead
  intro id hid hahead hparents
  obtain ⟨card, hcard⟩ := h.mem_iff.mp hid
  have hplace := placeOf_of_card hcard
  have hstays := hidle id card.place hplace
  rw [hplace]
  cases hcase : card.place with
  | done => rfl
  | eligible | running | paused =>
      rw [hcase] at hstays
      exact absurd rfl hstays
  | blocked =>
      obtain ⟨parent, hparent, hunfinished⟩ := h.sound.exists_unfinished_parent h.goesOn hcard hcase
      obtain ⟨card', hcard'⟩ := h.sound.wired.card_of_parent (Wired.mem_of_card hcard) hparent
      have hdone := hparents parent (h.mem_iff.mpr ⟨card', hcard'⟩) (h.waitsFor_iff.mpr ⟨card, hcard, hparent⟩)
      rw [unfinished_of_placeOf hdone] at hunfinished
      cases hunfinished

theorem not_isPartition_of_idle (heligible : board.eligible.toList = []) (hrunning : board.running.toList = [])
    (hpaused : board.paused.toList = []) (id : TaskId) (place : Place)
    (hplace : board.placeOf id = .ok place) : ¬place.isPartition := by
  have hp := h.sound.partitioned
  cases place with
  | blocked | done => simp [Place.isPartition]
  | eligible =>
      have hmem := hp.mem_eligible_iff.mpr hplace
      rw [heligible] at hmem
      cases hmem
  | running =>
      have hmem := hp.mem_running_iff.mpr hplace
      rw [hrunning] at hmem
      cases hmem
  | paused =>
      have hmem := hp.mem_paused_iff.mpr hplace
      rw [hpaused] at hmem
      cases hmem

end Flows

-- However its tasks depend on each other, a task flow never moves what is behind a cycle and
-- comes to a stand only when all else is done. If no task is on a cycle, there is always
-- one to move until the job is complete.
theorem done_iff_not_behindCycle {job : JobId} {priority : Priority} {tasks : List PlannedTask}
    {board : Board} (h : build job priority .taskFlow tasks = .ok board) (calls : List Call)
    (hcalls : ∀ call ∈ calls, call.abandons = false) :
    let final := board.obeyAll calls
    (∀ id, BehindCycle tasks id → final.placeOf id = .ok .blocked) ∧
    (final.eligible.toList = [] → final.running.toList = [] → final.paused.toList = [] →
      ∀ task ∈ tasks, final.placeOf task.id = .ok .done ↔ ¬BehindCycle tasks task.id) ∧
    ((∀ task ∈ tasks, ¬TransGen (WaitsFor tasks) task.id task.id) → final.isComplete = false →
      ∃ id, id ∈ final.eligible.toList ∨ id ∈ final.running.toList ∨ id ∈ final.paused.toList) := by
  intro final
  have hfresh (id : TaskId) (hid : BehindCycle tasks id) : board.placeOf id = .ok .blocked := by
    obtain ⟨parent, hwaits, -⟩ := hid.exists_parent
    obtain ⟨card, hcard, hparent⟩ := (flows_of_build h).waitsFor_iff.mp hwaits
    obtain ⟨hplace, hunmet, -⟩ := fresh_of_build h (Wired.mem_of_card hcard)
    have hpos := List.length_pos_of_mem hparent
    rw [placeOf_of_card hcard, hplace, if_neg (by omega)]
  obtain ⟨hflows, hblocked⟩ := (flows_of_build h).blocked_obeyAll hcalls hfresh
  have hdone (heligible : final.eligible.toList = []) (hrunning : final.running.toList = [])
      (hpaused : final.paused.toList = []) {id : TaskId} (hid : id ∈ tasks.map PlannedTask.id) :
      ¬BehindCycle tasks id → final.placeOf id = .ok .done :=
    hflows.done_of_idle (hflows.not_isPartition_of_idle heligible hrunning hpaused) hid
  refine ⟨hblocked, ?_, ?_⟩
  · intro heligible hrunning hpaused task htask
    constructor
    · intro hplace hbehind
      rw [hblocked task.id hbehind] at hplace
      cases hplace
    · exact hdone heligible hrunning hpaused (List.mem_map_of_mem htask)
  · intro hacyclic hopen
    by_contra hnone
    simp only [not_exists, not_or] at hnone
    have hcomplete : final.isComplete := by
      refine hflows.sound.consistent.complete.mpr fun card hcard => ?_
      have hok := hflows.sound.wired.card_id_of_mem hcard
      have hplace := hdone (List.eq_nil_iff_forall_not_mem.mpr fun id => (hnone id).1)
        (List.eq_nil_iff_forall_not_mem.mpr fun id => (hnone id).2.1)
        (List.eq_nil_iff_forall_not_mem.mpr fun id => (hnone id).2.2)
        (hflows.mem_iff.mpr ⟨card, hok⟩) ?_
      · rw [placeOf_of_card hok] at hplace
        exact Except.ok.inj hplace
      · rintro ⟨other, -, hcycle⟩
        obtain ⟨parent, ⟨task, htask, rfl, -⟩, -⟩ := TransGen.head'_iff.mp hcycle
        exact hacyclic task htask hcycle
    rw [hopen] at hcomplete
    cases hcomplete

-- The task that waits for itself, the two that wait for each other.
theorem done_iff_not_behindCycle_tangled :
    ∃ board, build ⟨0⟩ .normal .taskFlow tangled = .ok board ∧
      (board.obeyAll [.start ⟨⟨0⟩, 0⟩, .terminate ⟨⟨0⟩, 0⟩, .kill ⟨⟨0⟩, 3⟩]).placeOf ⟨⟨0⟩, 4⟩ = .ok .blocked ∧
      ∀ task ∈ tangled, BehindCycle tangled task.id ↔ 2 ≤ task.id.index := by
  have hbuild : ∃ board, build ⟨0⟩ .normal .taskFlow tangled = .ok board := ⟨_, rfl⟩
  obtain ⟨board, hboard⟩ := hbuild
  obtain ⟨-, hdone, -⟩ := done_iff_not_behindCycle hboard
    [.start ⟨⟨0⟩, 0⟩, .terminate ⟨⟨0⟩, 0⟩, .kill ⟨⟨0⟩, 1⟩] (by decide)
  obtain ⟨hblocked, -, -⟩ := done_iff_not_behindCycle hboard
    [.start ⟨⟨0⟩, 0⟩, .terminate ⟨⟨0⟩, 0⟩, .kill ⟨⟨0⟩, 3⟩] (by decide)
  have hbehind : ∀ task ∈ tangled, BehindCycle tangled task.id ↔ 2 ≤ task.id.index := by
    have hplaces : ∀ task ∈ tangled, (board.obeyAll [.start ⟨⟨0⟩, 0⟩, .terminate ⟨⟨0⟩, 0⟩,
        .kill ⟨⟨0⟩, 1⟩]).placeOf task.id = .ok .done ↔ ¬2 ≤ task.id.index := by
      cases hboard
      decide
    intro task htask
    have hiff := hdone (by cases hboard; decide) (by cases hboard; decide) (by cases hboard; decide) task htask
    exact not_iff_not.mp (hiff.symm.trans (hplaces task htask))
  refine ⟨board, hboard, hblocked _ ?_, hbehind⟩
  exact (hbehind (tangled[4]) (by decide)).mpr (by decide)

end Board

end JobScheduler
