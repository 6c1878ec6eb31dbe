import JobScheduler.Proofs.Board.Waiting

namespace JobScheduler.Board

-- Nothing can be started and nothing is under way.
structure Dormant (board : Board) : Prop where
  eligible : board.eligible.toList = []
  running : board.running.toList = []

-- No blocked task waits for paused tasks alone.
def Locked (board : Board) : Prop :=
  ∀ card ∈ board.cards, card.place = .blocked → card.parents.countP board.paused.member < card.unmet

theorem Partitioned.member_paused_iff {board : Board} (hp : board.Partitioned) {id : TaskId} :
    board.paused.member id ↔ board.placeOf id = .ok .paused := hp.member_iff .paused rfl id

theorem Partitioned.dormant_iff {board : Board} (hp : board.Partitioned) :
    board.Dormant ↔ ∀ id, board.placeOf id ≠ .ok .eligible ∧ board.placeOf id ≠ .ok .running := by
  constructor
  · intro h id
    refine ⟨fun hplace => ?_, fun hplace => ?_⟩
    · exact List.not_mem_nil (h.eligible ▸ hp.mem_eligible_iff.mpr hplace)
    · exact List.not_mem_nil (h.running ▸ hp.mem_running_iff.mpr hplace)
  · intro h
    refine ⟨List.eq_nil_iff_forall_not_mem.mpr fun id hid => ?_,
      List.eq_nil_iff_forall_not_mem.mpr fun id hid => ?_⟩
    · exact (h id).1 (hp.mem_eligible_iff.mp hid)
    · exact (h id).2 (hp.mem_running_iff.mp hid)

theorem dormant_fail {board : Board} (hp : board.Partitioned) : board.fail.1.Dormant := by
  refine hp.fail.dormant_iff.mpr fun id => ?_
  rw [placeOf_fail hp]
  cases board.placeOf id with
  | error fault => simp [Except.map]
  | ok place => cases place <;> simp [Except.map, Place.afterFailure]

-- Terminating a paused task takes its links off those that come from paused tasks.
theorem countP_paused_of_finish {board board' : Board} (hs : board.Sound) {id : TaskId}
    {promoted : List TaskId} (h : board.finish id .paused = .ok (board', promoted))
    (ids : List TaskId) :
    ids.countP board.paused.member = ids.countP board'.paused.member + ids.count id := by
  have hplace := placeOf_of_finish h
  have hp := hs.partitioned
  have hp' := (hs.finish rfl h).partitioned
  obtain ⟨final, promoted', hfinal, hpromotes⟩ := finish_promotes hs.wired hplace
  rw [h] at hfinal
  cases hfinal
  have hmoved := placeOf_relocate .done hplace
  refine countP_eq_add_count (hp.member_paused_iff.mpr hplace) ?_ ?_
  · rw [← Bool.not_eq_true, hp'.member_paused_iff, hpromotes.place, hmoved]
    split <;> simp
  · intro other hne
    rw [Bool.eq_iff_iff, hp'.member_paused_iff, hp.member_paused_iff, hpromotes.place]
    split
    · rename_i hmem
      have hblocked := hpromotes.blocked other hmem
      rw [hmoved, if_neg hne] at hblocked
      simp [hblocked]
    · rw [hmoved, if_neg hne]

-- A job that was given up, of which nothing can be started any more.
structure Sealed (board : Board) : Prop where
  sound : board.Sound
  waiting : board.Waiting
  failed : board.failed = true
  dormant : board.Dormant
  locked : board.Locked

namespace Sealed

variable {board : Board} (h : board.Sealed)
include h

theorem placeOf_ne (id : TaskId) :
    board.placeOf id ≠ .ok .eligible ∧ board.placeOf id ≠ .ok .running :=
  h.sound.partitioned.dormant_iff.mp h.dormant id

-- The only partition with tasks in it is the paused one.
theorem source_eq_paused {id : TaskId} {source : Place} (hplace : board.placeOf id = .ok source)
    (hsource : source.isPartition) : source = .paused := by
  obtain ⟨heligible, hrunning⟩ := h.placeOf_ne id
  cases source with
  | eligible => exact absurd hplace heligible
  | running => exact absurd hplace hrunning
  | paused => rfl
  | blocked | done => cases hsource

-- A change that counts no link off and moves no task but to done keeps the job as it is.
theorem untold {board' : Board} (hsound : board'.Sound) (hfailed : board'.failed = true)
    (huntold : board.Untold board')
    (hplaces : ∀ id place, board'.placeOf id = .ok place → place.isPartition → board.placeOf id = .ok place) :
    board'.Sealed where
  sound := hsound
  waiting := h.waiting.untold huntold
  failed := hfailed
  dormant := by
    refine hsound.partitioned.dormant_iff.mpr fun id => ⟨fun hplace => ?_, fun hplace => ?_⟩
    · exact (h.placeOf_ne id).1 (hplaces id .eligible hplace rfl)
    · exact (h.placeOf_ne id).2 (hplaces id .running hplace rfl)
  locked := by
    intro card' hmem hblocked'
    obtain ⟨card, hcard, hparents, hunmet, hblocked⟩ :=
      huntold card'.id card' (hsound.wired.card_id_of_mem hmem)
    have hlocked := h.locked card (Wired.mem_of_card hcard) (hblocked hblocked')
    have hle : card.parents.countP board'.paused.member ≤ card.parents.countP board.paused.member := by
      refine List.countP_mono_left fun parent _ hpaused => ?_
      exact h.sound.partitioned.member_paused_iff.mpr
        (hplaces parent .paused (hsound.partitioned.member_paused_iff.mp hpaused) rfl)
    rw [hparents, hunmet]
    omega

-- Whoever waits for a paused task waits for another one as well.
theorem finish {id : TaskId} {board' : Board} {promoted : List TaskId}
    (hfinish : board.finish id .paused = .ok (board', promoted)) : board'.Sealed := by
  have hs := h.sound
  have hsound := hs.finish rfl hfinish
  have hplace := placeOf_of_finish hfinish
  have hcount := countP_paused_of_finish hs hfinish
  have hcards {other : TaskId} {card : Card} (hcard : board.card other = .ok card) :=
    card_of_finish hs.wired h.waiting (by simp) hfinish hcard
  obtain ⟨final, promoted', hfinal, hpromotes⟩ := finish_promotes hs.wired hplace
  rw [hfinish] at hfinal
  cases hfinal
  have hmoved := placeOf_relocate .done hplace
  -- A promoted task would have waited for the terminated one alone.
  have hnone (other : TaskId) : other ∉ promoted := by
    intro hmem
    have hnow := hpromotes.place other
    rw [if_pos hmem] at hnow
    have hbefore := hpromotes.blocked other hmem
    rw [hmoved] at hbefore
    split at hbefore
    · simp at hbefore
    · obtain ⟨card, hcard, hblocked⟩ := placeOf_eq_ok_iff.mp hbefore
      obtain ⟨card', hcard', -, -, hiff⟩ := hcards hcard
      have hlocked := h.locked card (Wired.mem_of_card hcard) hblocked
      have hstays := hiff.mpr ⟨hblocked, by rw [hcount] at hlocked; omega⟩
      rw [placeOf_of_card hcard', hstays] at hnow
      cases hnow
  refine ⟨hsound, h.waiting.finish hs.wired (by simp) hfinish ?_, ?_, ?_, ?_⟩
  · exact (SameTasks.relocate board id .paused .done).trans hpromotes.same
  · rw [hpromotes.failed, relocate_failed, h.failed]
  · refine hsound.partitioned.dormant_iff.mpr fun other => ?_
    rw [hpromotes.place, if_neg (hnone other), hmoved]
    split
    · simp
    · exact h.placeOf_ne other
  · intro card' hmem hblocked'
    have hcard' := hsound.wired.card_id_of_mem hmem
    obtain ⟨card, hcard, -⟩ := hpromotes.same.symm.card hcard'
    obtain ⟨card, hcard, -⟩ := (SameTasks.relocate board id .paused .done).symm.card hcard
    obtain ⟨new, hnew, hparents, hunmet, hiff⟩ := hcards hcard
    rw [hcard'] at hnew
    cases hnew
    have hlocked := h.locked card (Wired.mem_of_card hcard) (hiff.mp hblocked').1
    rw [hcount] at hlocked
    rw [hparents, hunmet]
    omega

-- New statuses find no task that they could move.
theorem applyStatuses_eq (statuses : SortedMap TaskId TaskStatus) :
    (board.applyStatuses statuses).1 = board := by
  have hsame (moved : Nat) (id : TaskId) (status : TaskStatus) :
      applyStatus (board, moved) (id, status) = (board, moved) := by
    rcases applyStatus_cases board moved id status with
      ⟨heq, -⟩ | ⟨source, target, hsource, hfollow, hswaps, -⟩
    · exact heq
    · have hpaused := h.source_eq_paused hsource hswaps.isPartition.1
      rw [hpaused, h.failed] at hfollow
      rcases hswaps with ⟨heligible, -⟩ | ⟨-, htarget⟩
      · rw [hpaused] at heligible
        cases heligible
      · rw [htarget] at hfollow
        cases status <;> simp [Place.follow] at hfollow
  unfold applyStatuses
  generalize 0 = moved
  induction statuses.entries generalizing moved with
  | nil => rfl
  | cons entry rest ih => rw [List.foldl_cons, hsame, ih]

theorem obey (call : Call) : (board.obey call).Sealed := by
  have hs := h.sound
  have hp := hs.partitioned
  have hsound := (obeyed hs call).1
  have heffect := effect_of_obey board call
  revert heffect hsound
  generalize board.obey call = board'
  intro hsound heffect
  cases heffect with
  | refused => exact h
  | moved id source target hplace hsource htarget hopen =>
      have hfailed := hopen (h.source_eq_paused hplace hsource)
      rw [h.failed] at hfailed
      cases hfailed
  | finished id source hsource hfinish =>
      rw [h.source_eq_paused (placeOf_of_finish hfinish) hsource] at hfinish
      exact h.finish hfinish
  | tried id =>
      have huntold : board.Untold (board.modifyCard id tryOnce) :=
        untold_modifyCard board id (fun _ => rfl) (fun _ => rfl) fun _ hblocked => hblocked
      have hplaces : (board.modifyCard id tryOnce).placeOf = board.placeOf :=
        placeOf_modifyCard_of_keeps fun _ => rfl
      exact h.untold hsound h.failed huntold fun other place hplace _ => hplaces ▸ hplace
  | restated statuses => rwa [h.applyStatuses_eq statuses]
  | reprioritized priority =>
      exact h.untold hsound h.failed (untold_of_card_eq (card_congr rfl rfl))
        fun other place hplace _ => hplace
  | failed =>
      refine h.untold hsound rfl (untold_fail board) fun other place hplace hpart => ?_
      rw [placeOf_fail hp] at hplace
      cases hold : board.placeOf other with
      | error fault => simp [hold, Except.map] at hplace
      | ok old =>
          rw [hold] at hplace
          cases old with
          | blocked | paused | done => exact hplace
          | eligible | running =>
              cases hplace
              cases hpart
  | tornDown =>
      refine h.untold hsound (failed_teardown board) (untold_teardown board) fun other place hplace hpart => ?_
      rw [placeOf_teardown hp] at hplace
      cases hold : board.placeOf other with
      | error fault => simp [hold, Except.map] at hplace
      | ok old =>
          rw [hold] at hplace
          cases hplace
          cases hpart

theorem obeyAll (calls : List Call) : (board.obeyAll calls).Sealed := by
  induction calls generalizing board with
  | nil => exact h
  | cons call rest ih => exact ih (h.obey call)

end Sealed

-- Where a blocked task waits for paused tasks alone, killing them one after the other
-- makes some task eligible, whether or not the job was given up.
theorem exists_kills {board : Board} (hs : board.Sound) (hwaits : board.Waiting) {id : TaskId}
    {card : Card} (hcard : board.card id = .ok card) (hblocked : card.place = .blocked)
    (hpaused : card.unmet ≤ card.parents.countP board.paused.member) :
    ∃ victims : List TaskId, ¬(board.obeyAll (victims.map .kill)).Dormant := by
  generalize hleft : card.parents.countP board.paused.member = left at hpaused
  induction left using Nat.strong_induction_on generalizing board card with
  | _ left ih =>
      have hpos : 0 < card.parents.countP board.paused.member := by
        have hunmet := hwaits id card hcard hblocked
        omega
      obtain ⟨victim, hparent, hmember⟩ := List.countP_pos_iff.mp hpos
      have hvictim := hs.partitioned.member_paused_iff.mp hmember
      obtain ⟨board', promoted, hfinish, hpromotes⟩ := finish_promotes hs.wired hvictim
      have hobey : board.obey (.kill victim) = board' := by
        have hkill := kill_eq_ok_iff.mpr ⟨.paused, hvictim, rfl, hfinish⟩
        simp [obey, carryOut, hkill, Except.map]
      have hsound := hs.finish rfl hfinish
      obtain ⟨card', hcard', hparents, hunmet, hiff⟩ :=
        card_of_finish hs.wired hwaits (by simp) hfinish hcard
      by_cases hblocked' : card'.place = .blocked
      · have hcount := countP_paused_of_finish hs hfinish card.parents
        have hone := List.count_pos_iff.mpr hparent
        have hsame := (SameTasks.relocate board victim .paused .done).trans hpromotes.same
        obtain ⟨victims, hawake⟩ := ih (card'.parents.countP board'.paused.member)
          (by rw [hparents]; omega) hsound (hwaits.finish hs.wired (by simp) hfinish hsame) hcard'
          hblocked' rfl (by rw [hunmet, hparents]; omega)
        refine ⟨victim :: victims, ?_⟩
        rwa [List.map_cons, obeyAll, List.foldl_cons, hobey]
      · -- The task has left its place, and it was not the victim.
        have hmem : id ∈ promoted := by
          by_contra hmem
          have hplace := hpromotes.place id
          rw [if_neg hmem, placeOf_relocate .done hvictim, placeOf_of_card hcard'] at hplace
          split at hplace
          · rename_i heq
            rw [← heq, placeOf_of_card hcard, hblocked] at hvictim
            cases hvictim
          · rw [placeOf_of_card hcard, hblocked] at hplace
            exact hblocked' (Except.ok.inj hplace)
        refine ⟨[victim], fun hdormant => ?_⟩
        have hplace := hpromotes.place id
        rw [if_pos hmem] at hplace
        have hawake : board.obeyAll ([victim].map .kill) = board' := hobey
        rw [hawake] at hdormant
        exact (hsound.partitioned.dormant_iff.mp hdormant id).1 hplace

-- After a failure nothing of the job can be started, whatever is asked of it, just when
-- no blocked task waits for paused tasks alone.
theorem dormant_after_fail_iff {job : JobId} {priority : Priority} {kind : JobKind}
    {tasks : List PlannedTask} {board : Board} (h : build job priority kind tasks = .ok board)
    (before : List Call) :
    (∀ calls, ((board.obeyAll before).fail.1.obeyAll calls).Dormant) ↔
      (board.obeyAll before).fail.1.Locked := by
  have hs := (all_obeyed (sound_of_build h) before).1
  have hwaits := ((waiting_of_build h).obeyAll (sound_of_build h) before).untold
    (untold_fail (board.obeyAll before))
  constructor
  · intro hdormant card hmem hblocked
    by_contra hpaused
    obtain ⟨victims, hawake⟩ := exists_kills hs.fail hwaits (hs.fail.wired.card_id_of_mem hmem) hblocked
      (Nat.le_of_not_lt hpaused)
    exact hawake (hdormant _)
  · intro hlocked calls
    have hsealed : (board.obeyAll before).fail.1.Sealed :=
      ⟨hs.fail, hwaits, rfl, dormant_fail hs.partitioned, hlocked⟩
    exact (hsealed.obeyAll calls).dormant

-- A task and another that waits for it.
def chained : List PlannedTask :=
  [.new ⟨⟨0⟩, 0⟩ "first" "true" 1 false 1 [], .new ⟨⟨0⟩, 1⟩ "second" "true" 1 false 1 [⟨⟨0⟩, 0⟩]]

theorem dormant_after_fail_chained :
    ∃ board, build ⟨0⟩ .normal .taskFlow chained = .ok board ∧
      (∀ calls, (board.fail.1.obeyAll calls).Dormant) ∧
      ¬∀ calls, ((board.obeyAll [.pause ⟨⟨0⟩, 0⟩]).fail.1.obeyAll calls).Dormant := by
  have hbuild : ∃ board, build ⟨0⟩ .normal .taskFlow chained = .ok board := ⟨_, rfl⟩
  obtain ⟨board, hboard⟩ := hbuild
  refine ⟨board, hboard, (dormant_after_fail_iff hboard []).mpr ?_, fun hdormant => ?_⟩
  · cases hboard
    unfold Locked
    decide
  · have hlocked := (dormant_after_fail_iff hboard [.pause ⟨⟨0⟩, 0⟩]).mp hdormant
    cases hboard
    revert hlocked
    unfold Locked
    decide

-- A job that was given up while its first task was paused goes on when that task is killed.
theorem wakes_after_fail_chained :
    ∃ board, build ⟨0⟩ .normal .taskFlow chained = .ok board ∧
      let failed := (board.obeyAll [.pause ⟨⟨0⟩, 0⟩]).fail.1
      failed.Dormant ∧ (failed.obeyAll [.kill ⟨⟨0⟩, 0⟩]).eligible.toList = [⟨⟨0⟩, 1⟩] ∧
        (failed.obeyAll [.kill ⟨⟨0⟩, 0⟩, .start ⟨⟨0⟩, 1⟩]).running.toList = [⟨⟨0⟩, 1⟩] :=
  ⟨_, rfl, ⟨by decide, by decide⟩, by decide, by decide⟩

end JobScheduler.Board
