import JobScheduler.Board.Replay
import JobScheduler.Proofs.Board.Sound
import JobScheduler.Proofs.Submission.Resolve

namespace JobScheduler

-- Where a task with a persisted status may stand once its job is rebuilt.
def Place.restores : TaskStatus → Place → Bool
  | .finished, .done | .faulty, .done | .killed, .done => true
  | .running, .running => true
  | .paused, .blocked | .paused, .paused => true
  | .waitingOnError, .eligible => true
  | .inError, .paused => true
  | .submitted, .blocked | .submitted, .eligible => true
  | .pending, .blocked | .pending, .eligible => true
  | _, _ => false

namespace Board

theorem replaying_eq_ok_iff {step : Except Fault α} {value : α} :
    replaying step = .ok value ↔ step = .ok value := by
  cases step with
  | ok answer => exact Iff.rfl
  | error fault => constructor <;> intro h <;> cases h

section Terminated

variable {known : List TaskStatus}

-- A board on which nothing has happened but terminations that the statuses tell of.
structure Replayed (known : List TaskStatus) (base board : Board) : Prop where
  sound : board.Sound
  same : base.SameTasks board
  failed : board.failed = false
  priority : board.priority = base.priority
  place : ∀ id place, board.placeOf id = .ok place →
    place = .blocked ∨ place = .eligible ∨
      place = .done ∧ (known[id.index]?).any (·.isTerminated)

theorem Replayed.terminate {base board mid board' : Board} (h : Replayed known base board)
    {id : TaskId} (hknown : (known[id.index]?).any (·.isTerminated)) {promoted : List TaskId}
    (hstart : board.start id = .ok mid) (hend : mid.terminate id = .ok (board', promoted)) :
    Replayed known base board' := by
  obtain ⟨hplace, rfl⟩ := move_eq_ok_iff.mp hstart
  have hmid := h.sound.relocate hplace rfl (show Place.running.isPartition from rfl)
  have hrunning := placeOf_of_finish hend
  obtain ⟨final, promoted', hfinal, hpromotes⟩ := finish_promotes hmid.wired hrunning
  rw [show (board.relocate id .eligible .running).finish id .running = _ from hend] at hfinal
  cases hfinal
  refine ⟨hmid.finish rfl hend, ?_, ?_, ?_, fun other place hother => ?_⟩
  · exact h.same.trans ((SameTasks.relocate _ _ _ _).trans
      ((SameTasks.relocate _ _ _ _).trans hpromotes.same))
  · rw [hpromotes.failed]
    simpa using h.failed
  · rw [hpromotes.priority]
    simpa using h.priority
  · rw [hpromotes.place, placeOf_relocate .done hrunning, placeOf_relocate .running hplace] at hother
    split at hother
    · cases hother
      exact .inr (.inl rfl)
    · split at hother
      · rename_i heq
        cases hother
        exact .inr (.inr ⟨rfl, heq ▸ hknown⟩)
      · exact h.place other place hother

theorem Replayed.replayTerminated {base : Board} (rounds : Nat) {board board' : Board}
    (h : Replayed known base board) (hreplay : replayTerminated known rounds board = .ok board') :
    Replayed known base board' := by
  induction rounds generalizing board with
  | zero =>
      cases hreplay
      exact h
  | succ rounds ih =>
      unfold Board.replayTerminated at hreplay
      cases hnext : board.nextTerminated? known with
      | none =>
          rw [hnext] at hreplay
          cases hreplay
          exact h
      | some id =>
          have hknown := List.find?_some hnext
          rw [hnext] at hreplay
          obtain ⟨mid, hstart, hreplay⟩ := bind_eq_ok_iff.mp hreplay
          obtain ⟨ended, hend, hrest⟩ := bind_eq_ok_iff.mp hreplay
          exact ih (h.terminate hknown (replaying_eq_ok_iff.mp hstart)
            (replaying_eq_ok_iff.mp hend)) hrest

end Terminated

section Statuses

-- What a status asks of a task that stands at `place`, and where it takes the task.
def Settles (status : TaskStatus) (place place' : Place) : Prop :=
  match status with
  | .finished | .faulty | .killed => place = .done ∧ place' = .done
  | .running => place = .eligible ∧ place' = .running
  | .paused => place' = if place = .eligible then .paused else place
  | .waitingOnError => place = .eligible ∧ place' = .eligible
  | .inError => place = .eligible ∧ place' = .paused
  | .submitted | .pending | .aborted => place' = place

-- One task has gone from `source` to `target`, or stays there.
structure Step (board board' : Board) (id : TaskId) (source target : Place) : Prop where
  sound : board.Sound → board'.Sound
  same : board.SameTasks board'
  failed : board'.failed = board.failed
  priority : board'.priority = board.priority
  source : board.placeOf id = .ok source
  place : ∀ other, board'.placeOf other = if other = id then .ok target else board.placeOf other

theorem step_refl {board : Board} {id : TaskId} {place : Place} (h : board.placeOf id = .ok place) :
    Step board board id place place := by
  refine ⟨fun hs => hs, .refl board, rfl, rfl, h, fun other => ?_⟩
  split
  · rename_i heq
    rw [heq, h]
  · rfl

theorem step_move {board board' : Board} {id : TaskId} {source target : Place}
    (hsource : source.isPartition) (htarget : target.isPartition)
    (h : replaying (board.move id source target) = .ok board') : Step board board' id source target := by
  obtain ⟨hplace, rfl⟩ := move_eq_ok_iff.mp (replaying_eq_ok_iff.mp h)
  exact ⟨fun hs => hs.relocate hplace hsource htarget, .relocate board id source target, by simp,
    by simp, hplace, placeOf_relocate target hplace⟩

theorem step_of_replayStatus {job : String} {board board' : Board} {task : Submission.Task}
    {id : TaskId} {status : TaskStatus} (h : replayStatus job board task id status = .ok board') :
    ∃ source target, Step board board' id source target ∧ Settles status source target := by
  unfold replayStatus at h
  obtain ⟨place, hplace, h⟩ := bind_eq_ok_iff.mp h
  have hrefl := step_refl hplace
  have hdemand {wanted : Place} {fault : Fault}
      (hok : (if place = wanted then .ok () else .error fault) = Except.ok ()) : place = wanted := by
    split at hok
    · assumption
    · cases hok
  cases status with
  | finished | faulty | killed =>
      obtain ⟨_, hdone, h⟩ := bind_eq_ok_iff.mp h
      cases h
      exact ⟨place, place, hrefl, hdemand hdone, hdemand hdone⟩
  | waitingOnError =>
      obtain ⟨_, heligible, h⟩ := bind_eq_ok_iff.mp h
      cases h
      exact ⟨place, place, hrefl, hdemand heligible, hdemand heligible⟩
  | running =>
      obtain ⟨_, -, h⟩ := bind_eq_ok_iff.mp h
      exact ⟨.eligible, .running, step_move rfl rfl h, rfl, rfl⟩
  | inError =>
      obtain ⟨_, -, h⟩ := bind_eq_ok_iff.mp h
      exact ⟨.eligible, .paused, step_move rfl rfl h, rfl, rfl⟩
  | paused =>
      by_cases heligible : place = .eligible
      · have hpause : replaying (board.pause id) = .ok board' := by simpa [heligible] using h
        exact ⟨.eligible, .paused, step_move rfl rfl hpause, rfl⟩
      · have heq : board = board' := by simpa [heligible, pure, Except.pure] using h
        exact ⟨place, place, heq ▸ hrefl, (if_neg heligible).symm⟩
  | submitted | pending | aborted =>
      cases h
      exact ⟨place, place, hrefl, rfl⟩

-- Tasks are taken in order, and each is moved in its own turn only.
theorem replayStatuses_spec {job : String} {id : JobId} {board board' : Board} {index : Nat}
    {rest : List (Submission.Task × TaskStatus)} (hs : board.Sound)
    (h : replayStatuses job id board index rest = .ok board') :
    board'.Sound ∧ board.SameTasks board' ∧ board'.failed = board.failed ∧
      (∀ other, other.index < index → board'.placeOf other = board.placeOf other) ∧
      ∀ offset task status, rest[offset]? = some (task, status) → ∃ source target,
        board.placeOf ⟨id, index + offset⟩ = .ok source ∧
        board'.placeOf ⟨id, index + offset⟩ = .ok target ∧ Settles status source target := by
  induction rest generalizing board index with
  | nil =>
      cases h
      exact ⟨hs, .refl _, rfl, fun _ _ => rfl, by simp⟩
  | cons entry rest ih =>
      obtain ⟨first, status⟩ := entry
      unfold replayStatuses at h
      obtain ⟨mid, hstep, hrest⟩ := bind_eq_ok_iff.mp h
      obtain ⟨source, target, hone, hsettles⟩ := step_of_replayStatus hstep
      obtain ⟨hsound, hsame, hfailed, hbelow, hlater⟩ := ih (hone.sound hs) hrest
      refine ⟨hsound, hone.same.trans hsame, hfailed.trans hone.failed, ?_, ?_⟩
      · intro other hother
        have hne : other ≠ ⟨id, index⟩ := by
          rintro rfl
          exact Nat.lt_irrefl _ hother
        rw [hbelow other (by omega), hone.place, if_neg hne]
      · intro offset task status' hentry
        cases offset with
        | zero =>
            simp only [List.getElem?_cons_zero, Option.some.injEq, Prod.mk.injEq] at hentry
            obtain ⟨rfl, rfl⟩ := hentry
            refine ⟨source, target, hone.source, ?_, hsettles⟩
            rw [hbelow _ (Nat.lt_succ_self _), hone.place]
            exact if_pos rfl
        | succ offset =>
            obtain ⟨source', target', hsource', htarget', hsettles'⟩ :=
              hlater offset task status' (by simpa using hentry)
            rw [show index + 1 + offset = index + (offset + 1) by omega] at hsource' htarget'
            refine ⟨source', target', ?_, htarget', hsettles'⟩
            have hne : (⟨id, index + (offset + 1)⟩ : TaskId) ≠ ⟨id, index⟩ := by
              simp
            rw [hone.place, if_neg hne] at hsource'
            exact hsource'

theorem priority_replayStatuses {job : String} {id : JobId} {board board' : Board} {index : Nat}
    {rest : List (Submission.Task × TaskStatus)}
    (h : replayStatuses job id board index rest = .ok board') : board'.priority = board.priority := by
  induction rest generalizing board index with
  | nil =>
      cases h
      rfl
  | cons entry rest ih =>
      unfold replayStatuses at h
      obtain ⟨mid, hstep, hrest⟩ := bind_eq_ok_iff.mp h
      obtain ⟨_, _, hone, -⟩ := step_of_replayStatus hstep
      exact (ih hrest).trans hone.priority

end Statuses

theorem restores_of_settles {known : List TaskStatus} {base board : Board}
    (h : Replayed known base board) {id : TaskId} {status : TaskStatus}
    (hstatus : known[id.index]? = some status) (haborted : status ≠ .aborted) {source target : Place}
    (hsource : board.placeOf id = .ok source) (hsettles : Settles status source target) :
    Place.restores status target := by
  have hplace := h.place id source hsource
  rw [hstatus] at hplace
  rcases hplace with rfl | rfl | ⟨rfl, hterminated⟩ <;> cases status <;>
    simp_all [Settles, Place.restores, TaskStatus.isTerminated]

-- A rebuilt board has the tasks of the submission, and each of them stands where its
-- status allows it.
structure Rebuilt (id : JobId) (submission : Submission) (statuses : SortedMap String TaskStatus)
    (board : Board) : Prop where
  sound : board.Sound
  failed : board.failed = false
  job : board.job = id
  priority : board.priority = submission.priority
  kind : board.kind = submission.kind
  resolved : submission.resolve id = .ok (board.cards.map Card.task)
  place : ∀ task place, board.placeOf task = .ok place →
    ∃ declared, submission.tasks[task.index]? = some declared ∧
      Place.restores (statusIn statuses declared) place

section Rebuild

variable {id : JobId} {submission : Submission} {statuses : SortedMap String TaskStatus} {board : Board}

theorem zip_statusIn (tasks : List Submission.Task) :
    tasks.zip (tasks.map (statusIn statuses)) = tasks.map fun task => (task, statusIn statuses task) := by
  induction tasks with
  | nil => rfl
  | cons first rest ih => rw [List.map_cons, List.zip_cons_cons, ih, List.map_cons]

-- The stages of a rebuild that succeeds.
structure Stages (id : JobId) (submission : Submission) (statuses : SortedMap String TaskStatus)
    (base drained board : Board) : Prop where
  known : ∀ name ∈ statuses.keys, checkKnown submission name = .ok ()
  built : ∃ tasks, submission.resolve id = .ok tasks ∧
    build id submission.priority submission.kind tasks = .ok base
  kept : ∀ task ∈ submission.tasks, statusIn statuses task ≠ .aborted
  replayed : replayTerminated (submission.tasks.map (statusIn statuses)) base.size base = .ok drained
  settled : replayStatuses submission.name id drained 0
    (submission.tasks.map fun task => (task, statusIn statuses task)) = .ok board

theorem rebuild_eq_ok_iff : rebuild id submission statuses = .ok board ↔
    ∃ base drained, Stages id submission statuses base drained board := by
  have hkept : ((submission.tasks.zip (submission.tasks.map (statusIn statuses))).find?
      (·.2 == .aborted) = none) ↔ ∀ task ∈ submission.tasks, statusIn statuses task ≠ .aborted := by
    simp [zip_statusIn, List.find?_eq_none]
  unfold rebuild
  constructor
  · intro h
    obtain ⟨_, hknown, h⟩ := bind_eq_ok_iff.mp h
    obtain ⟨tasks, hresolve, h⟩ := bind_eq_ok_iff.mp h
    obtain ⟨base, hbuild, h⟩ := bind_eq_ok_iff.mp h
    dsimp only at h
    cases haborted : (submission.tasks.zip (submission.tasks.map (statusIn statuses))).find?
        (·.2 == .aborted) with
    | some entry =>
        rw [haborted] at h
        cases h
    | none =>
        rw [haborted] at h
        obtain ⟨drained, hreplay, h⟩ := bind_eq_ok_iff.mp h
        rw [zip_statusIn] at h
        exact ⟨base, drained, forM_eq_ok_iff.mp hknown, ⟨tasks, hresolve, hbuild⟩, hkept.mp haborted,
          hreplay, h⟩
  · rintro ⟨base, drained, hs⟩
    obtain ⟨tasks, hresolve, hbuild⟩ := hs.built
    refine bind_eq_ok_iff.mpr ⟨(), forM_eq_ok_iff.mpr hs.known, ?_⟩
    refine bind_eq_ok_iff.mpr ⟨tasks, hresolve, bind_eq_ok_iff.mpr ⟨base, hbuild, ?_⟩⟩
    dsimp only
    rw [hkept.mpr hs.kept, zip_statusIn]
    exact bind_eq_ok_iff.mpr ⟨drained, hs.replayed, hs.settled⟩

theorem replayed_of_build {tasks : List PlannedTask} {base : Board} {known : List TaskStatus}
    (h : build id submission.priority submission.kind tasks = .ok base) : Replayed known base base :=
  ⟨sound_of_build h, .refl base, failed_of_build h, rfl, fun _ _ hplace =>
    (not_done_of_build h hplace).elim (fun heq => .inr (.inl heq)) .inl⟩

theorem rebuilt_of_rebuild (h : rebuild id submission statuses = .ok board) :
    Rebuilt id submission statuses board := by
  obtain ⟨base, drained, hs⟩ := rebuild_eq_ok_iff.mp h
  obtain ⟨tasks, hresolve, hbuild⟩ := hs.built
  have hdrained := (replayed_of_build hbuild).replayTerminated base.size hs.replayed
  obtain ⟨hsound, hsame, hfailed, -, hall⟩ := replayStatuses_spec hdrained.sound hs.settled
  have htasks := hdrained.same.trans hsame
  have hjob := job_of_build hbuild
  have hlength : tasks.length = submission.tasks.length := by
    rw [(Submission.checkTasks_of_resolve hresolve).2.2]
    simp [Submission.plan]
  refine ⟨hsound, hfailed.trans hdrained.failed, htasks.job.trans hjob,
    (priority_replayStatuses hs.settled).trans (hdrained.priority.trans (priority_of_build hbuild)),
    htasks.kind.trans (kind_of_build hbuild), ?_, ?_⟩
  · rw [hresolve, htasks.map_task, map_task_of_build hbuild]
  · intro task place hplace
    obtain ⟨card, hcard, -⟩ := placeOf_eq_ok_iff.mp hplace
    obtain ⟨hlt, -⟩ := List.getElem?_eq_some_iff.mp (card_eq_ok_iff.mp hcard).2
    have hindex : task.index < submission.tasks.length := by
      rw [← hlength, ← size_of_build hbuild, ← htasks.size]
      exact hlt
    have hid : task = ⟨id, 0 + task.index⟩ := by
      refine TaskId.eq_of_index_eq ?_ (Nat.zero_add _).symm
      exact (job_eq_of_placeOf hplace).trans (htasks.job.trans hjob)
    have hdeclared := List.getElem?_eq_getElem hindex
    obtain ⟨source, target, hsource, htarget, hsettles⟩ :=
      hall task.index submission.tasks[task.index] _ (by rw [List.getElem?_map, hdeclared]; rfl)
    rw [← hid] at hsource htarget
    rw [hplace] at htarget
    cases htarget
    exact ⟨_, hdeclared, restores_of_settles hdrained (by rw [List.getElem?_map, hdeclared]; rfl)
      (hs.kept _ (List.getElem_mem hindex)) hsource hsettles⟩

end Rebuild

end Board

end JobScheduler
