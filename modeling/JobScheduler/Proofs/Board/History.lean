import JobScheduler.Proofs.Board.Sound

namespace JobScheduler.Board

-- Everything that can be asked of a board after it was built.
inductive Call
  | start (id : TaskId)
  | pause (id : TaskId)
  | resume (id : TaskId)
  | restart (id : TaskId)
  | pauseOnError (id : TaskId)
  | terminate (id : TaskId)
  | terminateInError (id : TaskId)
  | kill (id : TaskId)
  | recordAttempt (id : TaskId)
  | applyStatuses (statuses : SortedMap TaskId TaskStatus)
  | setPriority (priority : Priority)
  | fail
  | teardown

-- Whether a call gives up on the job.
def Call.abandons : Call → Bool
  | .fail | .teardown => true
  | _ => false

def carryOut (board : Board) : Call → Except Fault Board
  | .start id => board.start id
  | .pause id => board.pause id
  | .resume id => board.resume id
  | .restart id => board.restart id
  | .pauseOnError id => board.pauseOnError id
  | .terminate id => (board.terminate id).map (·.1)
  | .terminateInError id => (board.terminateInError id).map (·.1)
  | .kill id => (board.kill id).map (·.1)
  | .recordAttempt id => (board.recordAttempt id).map (·.1)
  | .applyStatuses statuses => .ok (board.applyStatuses statuses).1
  | .setPriority priority => .ok (board.setPriority priority)
  | .fail => .ok board.fail.1
  | .teardown => .ok board.teardown.1

-- A call that is refused leaves the board as it is.
def obey (board : Board) (call : Call) : Board :=
  match board.carryOut call with
  | .ok board => board
  | .error _ => board

def obeyAll (board : Board) (calls : List Call) : Board := calls.foldl obey board

theorem move_obeyed {board board' : Board} {id : TaskId} {source target : Place} (hs : board.Sound)
    (hsource : source.isPartition) (htarget : target.isPartition)
    (h : board.move id source target = .ok board') :
    board'.Sound ∧ board.SameTasks board' ∧ board'.failed = board.failed := by
  obtain ⟨hplace, rfl⟩ := move_eq_ok_iff.mp h
  exact ⟨hs.relocate hplace hsource htarget, .relocate board id source target, by simp⟩

theorem finish_obeyed {board board' : Board} {id : TaskId} {source : Place}
    {promoted : List TaskId} (hs : board.Sound) (hsource : source.isPartition)
    (h : board.finish id source = .ok (board', promoted)) :
    board'.Sound ∧ board.SameTasks board' ∧ board'.failed = board.failed := by
  obtain ⟨final, promoted', hfinal, hpromotes⟩ := finish_promotes hs.wired (placeOf_of_finish h)
  rw [h] at hfinal
  cases hfinal
  exact ⟨hs.finish hsource h, (SameTasks.relocate board id source .done).trans hpromotes.same, by
    simpa using hpromotes.failed⟩

-- A call that is carried out keeps the board sound and its tasks the same, and the job
-- fails by no other call than one that gives up on it.
theorem carried_out {board board' : Board} (hs : board.Sound) {call : Call}
    (h : board.carryOut call = .ok board') :
    board'.Sound ∧ board.SameTasks board' ∧ (call.abandons = false → board'.failed = board.failed) := by
  have hfinish {result : Except Fault (Board × List TaskId)} (h : result.map (·.1) = .ok board') :
      ∃ promoted, result = .ok (board', promoted) := by
    cases result with
    | error fault => cases h
    | ok result => exact ⟨result.2, congrArg _ (Prod.ext (Except.ok.inj h) rfl)⟩
  cases call with
  | start id | pause id | restart id | pauseOnError id =>
      obtain ⟨hsound, hsame, hfailed⟩ := move_obeyed hs rfl rfl h
      exact ⟨hsound, hsame, fun _ => hfailed⟩
  | resume id =>
      simp only [carryOut, resume] at h
      split at h
      · cases h
      · obtain ⟨hsound, hsame, hfailed⟩ := move_obeyed hs rfl rfl h
        exact ⟨hsound, hsame, fun _ => hfailed⟩
  | terminate id | terminateInError id =>
      obtain ⟨promoted, hresult⟩ := hfinish h
      obtain ⟨hsound, hsame, hfailed⟩ := finish_obeyed hs rfl hresult
      exact ⟨hsound, hsame, fun _ => hfailed⟩
  | kill id =>
      obtain ⟨promoted, hresult⟩ := hfinish h
      obtain ⟨place, -, hplace, hresult⟩ := kill_eq_ok_iff.mp hresult
      obtain ⟨hsound, hsame, hfailed⟩ := finish_obeyed hs hplace hresult
      exact ⟨hsound, hsame, fun _ => hfailed⟩
  | recordAttempt id =>
      simp only [carryOut, recordAttempt_eq] at h
      cases hcard : board.card id with
      | error fault => simp [hcard, Except.map] at h
      | ok card =>
          have heq : board.modifyCard id tryOnce = board' := by simpa [hcard, Except.map] using h
          subst heq
          exact ⟨hs.modifyCard id (fun _ => rfl) (fun _ => rfl) (fun _ => rfl) (fun _ => rfl),
            .modifyCard board id tryOnce (fun _ => rfl), fun _ => rfl⟩
  | applyStatuses statuses =>
      cases h
      exact ⟨hs.applyStatuses statuses, sameTasks_applyStatuses board statuses,
        fun _ => failed_applyStatuses board statuses⟩
  | setPriority priority =>
      cases h
      exact ⟨hs.setPriority priority, .of_cards_eq rfl rfl rfl, fun _ => rfl⟩
  | fail =>
      cases h
      exact ⟨hs.fail, sameTasks_fail board, fun habandons => by cases habandons⟩
  | teardown =>
      cases h
      exact ⟨hs.teardown, sameTasks_teardown board, fun habandons => by cases habandons⟩

theorem obeyed {board : Board} (hs : board.Sound) (call : Call) :
    (board.obey call).Sound ∧ board.SameTasks (board.obey call) ∧
      (call.abandons = false → (board.obey call).failed = board.failed) := by
  unfold obey
  cases h : board.carryOut call with
  | error fault => exact ⟨hs, .refl board, fun _ => rfl⟩
  | ok board' => exact carried_out hs h

theorem all_obeyed {board : Board} (hs : board.Sound) (calls : List Call) :
    (board.obeyAll calls).Sound ∧ board.SameTasks (board.obeyAll calls) ∧
      ((∀ call ∈ calls, call.abandons = false) → (board.obeyAll calls).failed = board.failed) := by
  induction calls generalizing board with
  | nil => exact ⟨hs, .refl board, fun _ => rfl⟩
  | cons call rest ih =>
      obtain ⟨hsound, hsame, hfailed⟩ := obeyed hs call
      obtain ⟨hsound', hsame', hfailed'⟩ := ih hsound
      refine ⟨hsound', hsame.trans hsame', fun hnone => ?_⟩
      obtain ⟨hcall, hrest⟩ := List.forall_mem_cons.mp hnone
      exact (hfailed' hrest).trans (hfailed hcall)

-- Cards, partitions and counts of a board tell the same.
structure Consistent (board : Board) : Prop where
  eligible : board.eligible.toList = board.idsAt .eligible
  running : board.running.toList = board.idsAt .running
  paused : board.paused.toList = board.idsAt .paused
  apart : (board.eligible.toList ++ board.running.toList ++ board.paused.toList).Nodup
  done : board.done = board.countAt .done
  total : board.counts.total = board.size
  complete : board.isComplete ↔ ∀ card ∈ board.cards, card.place = .done

theorem nodup_idsAt_append {board : Board} (hw : board.Wired) :
    (board.idsAt .eligible ++ board.idsAt .running ++ board.idsAt .paused).Nodup := by
  have hone (place : Place) : (board.idsAt place).Nodup :=
    (idsAt_increasing hw place).imp fun {a b} hlt heq => by simp [heq] at hlt
  have hapart {a b : Place} (hne : a ≠ b) {id : TaskId} (ha : id ∈ board.idsAt a) :
      id ∉ board.idsAt b := by
    intro hb
    rw [mem_idsAt_iff hw] at ha hb
    rw [ha] at hb
    exact hne (Except.ok.inj hb)
  refine List.nodup_append.mpr ⟨List.nodup_append.mpr ⟨hone _, hone _, ?_⟩, hone _, ?_⟩
  · rintro id ha _ hb rfl
    exact hapart (by simp) ha hb
  · rintro id ha _ hb rfl
    rcases List.mem_append.mp ha with ha | ha
    · exact hapart (by simp) ha hb
    · exact hapart (by simp) ha hb

theorem Sound.consistent {board : Board} (hs : board.Sound) : board.Consistent := by
  have hpartition (place : Place) (hplace : place.isPartition) :
      (board.partition place).toList = board.idsAt place :=
    hs.partitioned.toList_partition hs.wired hplace
  have heligible : board.eligible.toList = board.idsAt .eligible := hpartition .eligible rfl
  have hrunning : board.running.toList = board.idsAt .running := hpartition .running rfl
  have hpaused : board.paused.toList = board.idsAt .paused := hpartition .paused rfl
  have hdone := hs.partitioned.done_eq
  refine ⟨heligible, hrunning, hpaused, ?_, hdone, ?_, ?_⟩
  · rw [heligible, hrunning, hpaused]
    exact nodup_idsAt_append hs.wired
  · have htotal := board.countAt_total
    simp only [Counts.total, counts, SortedSet.size_eq_length_toList, heligible, hrunning, hpaused,
      length_idsAt]
    omega
  · rw [← countAt_eq_size_iff, ← hdone]
    simp [isComplete]

-- However a board was used, cards, partitions and counts agree, and unless the job was
-- given up every card counts its unfinished parents and children exactly, each as often
-- as it is linked.
theorem consistent_of_build_obeyAll {job : JobId} {priority : Priority} {kind : JobKind}
    {tasks : List PlannedTask} {board : Board} (h : build job priority kind tasks = .ok board)
    (calls : List Call) :
    (board.obeyAll calls).Consistent ∧ (board.obeyAll calls).size = tasks.length ∧
      ((∀ call ∈ calls, call.abandons = false) → ∀ card ∈ (board.obeyAll calls).cards,
        card.unmet = card.parents.countP (board.obeyAll calls).unfinished ∧
        card.remaining = card.children.countP (board.obeyAll calls).unfinished ∧
        (card.place = .blocked ↔ 0 < card.unmet)) := by
  obtain ⟨hsound, hsame, hfailed⟩ := all_obeyed (sound_of_build h) calls
  refine ⟨hsound.consistent, hsame.size.trans (size_of_build h), fun hnone card hmem => ?_⟩
  have hcounted := hsound.counted ((hfailed hnone).trans (failed_of_build h))
  have hcard := hsound.wired.card_id_of_mem hmem
  refine ⟨hcounted.unmet card.id card hcard, hcounted.remaining card.id card hcard, ?_⟩
  rw [hcounted.blocked card.id card hcard]
  exact Nat.pos_iff_ne_zero.symm

-- A task that is waited for twice, one that waits for itself, and two that wait for each
-- other.
def tangled : List PlannedTask :=
  let task (index : Nat) (dependencies : List Nat) : PlannedTask :=
    .new ⟨⟨0⟩, index⟩ s!"t{index}" "true" 1 false 1 (dependencies.map fun other => ⟨⟨0⟩, other⟩)
  [task 0 [], task 1 [0, 0], task 2 [2], task 3 [4], task 4 [3, 1]]

theorem consistent_tangled :
    ∃ board, build ⟨0⟩ .normal .taskFlow tangled = .ok board ∧
      let final := board.obeyAll [.terminate ⟨⟨0⟩, 0⟩, .start ⟨⟨0⟩, 0⟩, .terminate ⟨⟨0⟩, 0⟩,
        .kill ⟨⟨0⟩, 2⟩, .pause ⟨⟨0⟩, 1⟩, .kill ⟨⟨0⟩, 1⟩, .start ⟨⟨0⟩, 9⟩]
      final.Consistent ∧ final.size = 5 ∧ final.cards.map (·.unmet) = [0, 0, 1, 1, 1] ∧
      ∀ card ∈ final.cards,
        card.unmet = card.parents.countP final.unfinished ∧
        card.remaining = card.children.countP final.unfinished ∧
        (card.place = .blocked ↔ 0 < card.unmet) := by
  have hbuild : ∃ board, build ⟨0⟩ .normal .taskFlow tangled = .ok board := ⟨_, rfl⟩
  obtain ⟨board, hboard⟩ := hbuild
  obtain ⟨hconsistent, hsize, hcounted⟩ := consistent_of_build_obeyAll hboard
    [.terminate ⟨⟨0⟩, 0⟩, .start ⟨⟨0⟩, 0⟩, .terminate ⟨⟨0⟩, 0⟩, .kill ⟨⟨0⟩, 2⟩, .pause ⟨⟨0⟩, 1⟩,
      .kill ⟨⟨0⟩, 1⟩, .start ⟨⟨0⟩, 9⟩]
  refine ⟨board, hboard, hconsistent, hsize, ?_, hcounted (by decide)⟩
  cases hboard
  decide

-- However a board was used, new statuses act on each task by itself: it goes where its own
-- status takes it from where it stood before the call, and nothing else changes. Counted are
-- the tasks that have left their places.
theorem applyStatuses_pointwise {job : JobId} {priority : Priority} {kind : JobKind}
    {tasks : List PlannedTask} {board : Board} (h : build job priority kind tasks = .ok board)
    (calls : List Call) (statuses : SortedMap TaskId TaskStatus) :
    let now := board.obeyAll calls
    let next := (now.applyStatuses statuses).1
    (∀ id, next.placeOf id = (now.placeOf id).map (Place.redirect now.failed statuses id)) ∧
      next = now.redirected statuses ∧
      (now.applyStatuses statuses).2 =
        (now.cards.map Card.id).countP fun id => next.placeOf id ≠ now.placeOf id := by
  obtain ⟨hsound, -, -⟩ := all_obeyed (sound_of_build h) calls
  exact ⟨placeOf_applyStatuses _ statuses, hsound.applyStatuses_eq_redirected statuses,
    count_applyStatuses hsound.wired statuses⟩

-- Two tasks that are held back, one that runs, one that was killed and one that may start.
theorem applyStatuses_pointwise_independent :
    ∃ board, build ⟨0⟩ .normal .singleTask tangled = .ok board ∧
      let calls : List Call := [.pause ⟨⟨0⟩, 0⟩, .pause ⟨⟨0⟩, 1⟩, .start ⟨⟨0⟩, 2⟩, .kill ⟨⟨0⟩, 3⟩]
      let statuses : SortedMap TaskId TaskStatus := .ofList [(⟨⟨0⟩, 0⟩, .submitted),
        (⟨⟨0⟩, 1⟩, .paused), (⟨⟨0⟩, 2⟩, .paused), (⟨⟨0⟩, 3⟩, .pending), (⟨⟨0⟩, 4⟩, .paused),
        (⟨⟨0⟩, 7⟩, .pending), (⟨⟨1⟩, 4⟩, .paused)]
      let now := board.obeyAll calls
      let given := board.obeyAll (calls ++ [.fail])
      (now.applyStatuses statuses).1 = now.redirected statuses ∧
      (now.redirected statuses).cards.map Card.place = [.eligible, .paused, .running, .done, .paused] ∧
      (now.applyStatuses statuses).2 = 2 ∧
      (given.applyStatuses statuses).1 = given.redirected statuses ∧
      (given.redirected statuses).cards.map Card.place = [.paused, .paused, .done, .done, .done] ∧
      (given.applyStatuses statuses).2 = 0 := by
  have hbuild : ∃ board, build ⟨0⟩ .normal .singleTask tangled = .ok board := ⟨_, rfl⟩
  obtain ⟨board, hboard⟩ := hbuild
  refine ⟨board, hboard, ?_⟩
  intro calls statuses now given
  obtain ⟨-, hnow, hcount⟩ := applyStatuses_pointwise hboard calls statuses
  obtain ⟨-, hgiven, hcount'⟩ := applyStatuses_pointwise hboard (calls ++ [.fail]) statuses
  refine ⟨hnow, ?_, hcount.trans ?_, hgiven, ?_, hcount'.trans ?_⟩ <;> cases hboard
  · decide
  · decide
  · decide
  · decide

end JobScheduler.Board
