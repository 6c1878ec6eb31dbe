import JobScheduler.Proofs.Board.History
import JobScheduler.Proofs.Board.Layout
import JobScheduler.Proofs.Board.Replay
import JobScheduler.Proofs.Submission.Acyclic

namespace JobScheduler

-- The statuses that a task comes by no sooner than everything before it has terminated.
def TaskStatus.wasReady : TaskStatus → Bool
  | .finished | .faulty | .killed | .running | .waitingOnError | .inError => true
  | .submitted | .pending | .paused | .aborted => false

namespace Board

section Statuses

variable (statuses : SortedMap String TaskStatus)

-- Whether nothing is known of an end of the task with a name.
def openIn (name : String) : Bool := !((statuses.find? name).getD .submitted).isTerminated

def waitsIn (task : Submission.Task) : Bool := task.after.any (openIn statuses)

-- Where the statuses put a task.
def placeIn (task : Submission.Task) : Place :=
  match statusIn statuses task with
  | .finished | .faulty | .killed => .done
  | .running => .running
  | .inError => .paused
  | .paused => if waitsIn statuses task then .blocked else .paused
  | .waitingOnError => .eligible
  | .submitted | .pending | .aborted => if waitsIn statuses task then .blocked else .eligible

end Statuses

end Board

-- The statuses know only declared tasks, none of them was aborted, and a task that was
-- ready at some time comes after terminated ones only.
structure Submission.Consistent (submission : Submission) (statuses : SortedMap String TaskStatus) :
    Prop where
  declared : ∀ name ∈ statuses.keys, ∃ task ∈ submission.tasks, task.name = name
  kept : ∀ task ∈ submission.tasks, Board.statusIn statuses task ≠ .aborted
  ready : ∀ task ∈ submission.tasks, (Board.statusIn statuses task).wasReady →
    Board.waitsIn statuses task = false

namespace Board

-- A board with the tasks of a submission, each of which stands where the statuses put it
-- and counts what has yet to terminate before and after it.
structure Reflects (board : Board) (id : JobId) (submission : Submission)
    (statuses : SortedMap String TaskStatus) : Prop where
  laysOut : board.LaysOut submission
  consistent : board.Consistent
  job : board.job = id
  failed : board.failed = false
  card : ∀ (index : Nat) (task : Submission.Task), submission.tasks[index]? = some task →
    ∃ card, board.card ⟨id, index⟩ = .ok card ∧ card.name = task.name ∧
      card.place = placeIn statuses task ∧
      card.unmet = task.after.countP (openIn statuses) ∧
      card.remaining =
        ((submission.tasks.filter (openIn statuses ·.name)).map (·.after.count task.name)).sum

section Rounds

-- How many tasks have not terminated.
def left (board : Board) : Nat := (board.cards.map Card.id).countP board.unfinished

theorem left_le_size (board : Board) : board.left ≤ board.size := by
  simpa [left, size] using List.countP_le_length (p := board.unfinished) (l := board.cards.map Card.id)

-- An eligible task can be started and terminated, and one task less is left then.
theorem exists_round {board : Board} (hs : board.Sound) {id : TaskId}
    (h : board.placeOf id = .ok .eligible) :
    ∃ mid board' promoted, board.start id = .ok mid ∧ mid.terminate id = .ok (board', promoted) ∧
      board'.left < board.left := by
  have hmid := hs.relocate h rfl (show Place.running.isPartition from rfl)
  have hrunning := (placeOf_relocate .running h id).trans (if_pos rfl)
  obtain ⟨board', promoted, hfinish, hpromotes⟩ := finish_promotes hmid.wired hrunning
  refine ⟨_, board', promoted, move_of_placeOf .running h, hfinish, ?_⟩
  have hids : board'.cards.map Card.id = board.cards.map Card.id :=
    ((SameTasks.relocate _ _ _ _).trans ((SameTasks.relocate _ _ _ _).trans hpromotes.same)).map_id
  have hmem : id ∈ board.cards.map Card.id := by
    obtain ⟨card, hcard, -⟩ := placeOf_eq_ok_iff.mp h
    exact List.mem_map.mpr ⟨card, Wired.mem_of_card hcard, hs.wired.id_of_card hcard⟩
  have hdrop := countP_unfinished_relocate_done hrunning (by simp) (board.cards.map Card.id)
  rw [unfinished_relocate h (by simp) (by simp)] at hdrop
  have hone := List.count_pos_iff.mpr hmem
  rw [left, left, hids, hpromotes.unfinished]
  omega

variable {known : List TaskStatus} {base : Board}

theorem replayTerminated_of_none {board : Board} (h : board.nextTerminated? known = none)
    (rounds : Nat) : replayTerminated known rounds board = .ok board := by
  cases rounds with
  | zero => rfl
  | succ rounds => rw [replayTerminated, h]

-- As long as a terminated task is eligible there is a round for it, and every round takes
-- another task. So the rounds end of themselves, and more of them change nothing.
theorem Replayed.exists_drained {board : Board} (h : Replayed known base board) :
    ∃ drained, Replayed known base drained ∧ drained.nextTerminated? known = none ∧
      ∀ rounds, board.left ≤ rounds → Board.replayTerminated known rounds board = .ok drained := by
  induction hleft : board.left using Nat.strongRecOn generalizing board with
  | ind left ih =>
      subst hleft
      cases hnext : board.nextTerminated? known with
      | none => exact ⟨board, h, hnext, fun rounds _ => replayTerminated_of_none hnext rounds⟩
      | some id =>
          have hmem : id ∈ board.eligible.toList := List.mem_of_find?_eq_some hnext
          have hknown := List.find?_some hnext
          obtain ⟨mid, board', promoted, hstart, hend, hless⟩ :=
            exists_round h.sound (h.sound.partitioned.mem_eligible_iff.mp hmem)
          obtain ⟨drained, hdrained, hnone, hall⟩ :=
            ih board'.left hless (h.terminate hknown hstart hend) rfl
          refine ⟨drained, hdrained, hnone, fun rounds hrounds => ?_⟩
          obtain ⟨rounds, rfl⟩ := Nat.exists_eq_succ_of_ne_zero (show rounds ≠ 0 by omega)
          rw [Board.replayTerminated, hnext]
          exact bind_eq_ok_iff.mpr ⟨mid, replaying_eq_ok_iff.mpr hstart, bind_eq_ok_iff.mpr
            ⟨(board', promoted), replaying_eq_ok_iff.mpr hend, hall rounds (by omega)⟩⟩

end Rounds

theorem placeIn_bne_done (statuses : SortedMap String TaskStatus) (task : Submission.Task) :
    (placeIn statuses task != .done) = openIn statuses task.name := by
  have hopen : openIn statuses task.name = !(statusIn statuses task).isTerminated := rfl
  rw [hopen, placeIn]
  cases statusIn statuses task <;> cases waitsIn statuses task <;> rfl

section Drained

variable {submission : Submission} {statuses : SortedMap String TaskStatus} {base drained : Board}
  (h : Replayed (submission.tasks.map (statusIn statuses)) base drained)
  (hlaid : drained.LaysOut submission)
include h hlaid

omit hlaid in
theorem terminated_of_done {index : Nat} {task : Submission.Task}
    (htask : submission.tasks[index]? = some task)
    (hplace : drained.placeOf ⟨drained.job, index⟩ = .ok .done) : openIn statuses task.name = false := by
  have hcases := h.place _ _ hplace
  rw [List.getElem?_map, htask, Option.map_some, Option.any_some] at hcases
  obtain ⟨-, hterminated⟩ := (hcases.resolve_left (by simp)).resolve_left (by simp)
  simpa [openIn, statusIn] using hterminated

-- Whoever is not blocked waits for no task whose end is not known.
theorem not_waitsIn {index : Nat} {task : Submission.Task} {place : Place}
    (htask : submission.tasks[index]? = some task)
    (hplace : drained.placeOf ⟨drained.job, index⟩ = .ok place) (hne : place ≠ .blocked) :
    waitsIn statuses task = false := by
  obtain ⟨card, hcard, rfl⟩ := placeOf_eq_ok_iff.mp hplace
  rw [waitsIn, List.any_eq_false]
  intro name hname
  obtain ⟨other, hother, rfl⟩ := Submission.declared_of_after hlaid.resolved
    (List.mem_of_getElem? htask) hname
  obtain ⟨position, hposition⟩ := List.mem_iff_getElem?.mp hother
  have hparent : (⟨drained.job, position⟩ : TaskId) ∈ card.parents :=
    (hlaid.mem_parents_iff htask hcard).mpr ⟨other, hposition, rfl, hname⟩
  have hdone := h.sound.parents_done h.failed hcard hne hparent
  simp [terminated_of_done h hposition hdone]

variable (hready : ∀ task ∈ submission.tasks, (statusIn statuses task).wasReady →
    waitsIn statuses task = false)
  (hnone : drained.nextTerminated? (submission.tasks.map (statusIn statuses)) = none)
include hready hnone

-- Where the statuses are consistent no terminated task is left behind: one of the lowest
-- rank would wait for terminated tasks only, so it would be eligible.
theorem done_of_terminated {index : Nat} {task : Submission.Task}
    (htask : submission.tasks[index]? = some task) (hterminated : openIn statuses task.name = false) :
    drained.placeOf ⟨drained.job, index⟩ = .ok .done := by
  obtain ⟨rank, hrank⟩ := Submission.exists_rank_of_resolve hlaid.resolved
  induction hheight : rank task.name using Nat.strongRecOn generalizing index task with
  | ind height ih =>
      subst hheight
      have hmem := List.mem_of_getElem? htask
      have hended : (statusIn statuses task).isTerminated := by
        simpa [openIn, statusIn] using hterminated
      obtain ⟨card, hcard, -⟩ := hlaid.card_of_task htask
      have hplace := placeOf_of_card hcard
      rcases h.place _ _ hplace with hblocked | heligible | ⟨hdone, -⟩
      · obtain ⟨parent, hparent, hunfinished⟩ :=
          h.sound.exists_unfinished_parent h.failed hcard hblocked
        obtain ⟨other, hother, hjob, hname⟩ := (hlaid.mem_parents_iff htask hcard).mp hparent
        have hwas : (statusIn statuses task).wasReady := by
          cases hcase : statusIn statuses task <;> simp_all [TaskStatus.wasReady, TaskStatus.isTerminated]
        have hbefore := List.any_eq_false.mp (hready task hmem hwas) other.name hname
        have hdone := ih (rank other.name) (hrank task hmem other.name hname) hother
          (by simpa using hbefore) rfl
        rw [← hjob] at hdone
        rw [unfinished_of_placeOf hdone] at hunfinished
        cases hunfinished
      · rw [heligible] at hplace
        have hlisted := h.sound.partitioned.mem_eligible_iff.mpr hplace
        have hpassed := List.find?_eq_none.mp hnone _ hlisted
        rw [List.getElem?_map, htask, Option.map_some, Option.any_some] at hpassed
        exact absurd hended hpassed
      · rw [hplace, hdone]

theorem placeOf_drained {index : Nat} {task : Submission.Task}
    (htask : submission.tasks[index]? = some task) :
    drained.placeOf ⟨drained.job, index⟩ = .ok (if openIn statuses task.name then
      (if waitsIn statuses task then .blocked else .eligible) else .done) := by
  obtain ⟨card, hcard, -⟩ := hlaid.card_of_task htask
  have hplace := placeOf_of_card hcard
  cases hopen : openIn statuses task.name with
  | false => exact done_of_terminated h hlaid hready hnone htask hopen
  | true =>
      rcases h.place _ _ hplace with hblocked | heligible | ⟨hdone, -⟩
      · obtain ⟨parent, hparent, hunfinished⟩ :=
          h.sound.exists_unfinished_parent h.failed hcard hblocked
        obtain ⟨other, hother, hjob, hname⟩ := (hlaid.mem_parents_iff htask hcard).mp hparent
        have hwaits : waitsIn statuses task := by
          refine List.any_eq_true.mpr ⟨other.name, hname, ?_⟩
          cases hother' : openIn statuses other.name with
          | true => rfl
          | false =>
              have hdone := done_of_terminated h hlaid hready hnone hother hother'
              rw [← hjob] at hdone
              rw [unfinished_of_placeOf hdone] at hunfinished
              cases hunfinished
        simp [hplace, hblocked, hwaits]
      · have hwaits := not_waitsIn h hlaid htask hplace (by simp [heligible])
        simp [hplace, heligible, hwaits]
      · rw [hdone] at hplace
        have hended := terminated_of_done h htask hplace
        rw [hopen] at hended
        cases hended

end Drained

section Settled

theorem Settles.ne_blocked {status : TaskStatus} {source target : Place}
    (h : Settles status source target) (hready : status.wasReady) : source ≠ .blocked := by
  rintro rfl
  cases status <;> simp_all [Settles, TaskStatus.wasReady]

theorem Settles.unique {status : TaskStatus} {source a b : Place} (ha : Settles status source a)
    (hb : Settles status source b) : a = b := by
  cases status <;> simp_all [Settles]

variable {statuses : SortedMap String TaskStatus}

-- What the replay leaves of a task is all that its status asks for.
theorem settles_placeIn {task : Submission.Task} (hkept : statusIn statuses task ≠ .aborted)
    (hready : (statusIn statuses task).wasReady → waitsIn statuses task = false) :
    Settles (statusIn statuses task) (if openIn statuses task.name then
      (if waitsIn statuses task then .blocked else .eligible) else .done) (placeIn statuses task) := by
  have hopen : openIn statuses task.name = !(statusIn statuses task).isTerminated := rfl
  rw [hopen, placeIn]
  cases hstatus : statusIn statuses task <;> cases hwaits : waitsIn statuses task <;>
    simp_all [Settles, TaskStatus.wasReady, TaskStatus.isTerminated]

theorem exists_replayStatus {job : String} {board : Board} {task : Submission.Task} {id : TaskId}
    {status : TaskStatus} {source target : Place} (hsource : board.placeOf id = .ok source)
    (h : Settles status source target) : ∃ board', replayStatus job board task id status = .ok board' := by
  have hstart (hplace : board.placeOf id = .ok .eligible) (place : Place) :
      replaying (board.move id .eligible place) = .ok (board.relocate id .eligible place) :=
    replaying_eq_ok_iff.mpr (move_of_placeOf place hplace)
  unfold replayStatus
  rw [hsource]
  cases status with
  | finished | faulty | killed | waitingOnError =>
      obtain ⟨rfl, -⟩ := h
      exact ⟨board, rfl⟩
  | running =>
      obtain ⟨rfl, -⟩ := h
      exact ⟨_, hstart hsource .running⟩
  | inError =>
      obtain ⟨rfl, -⟩ := h
      exact ⟨_, hstart hsource .paused⟩
  | paused =>
      by_cases heligible : source = .eligible
      · subst heligible
        exact ⟨_, hstart hsource .paused⟩
      · exact ⟨board, by simp [bind, Except.bind, heligible, pure, Except.pure]⟩
  | submitted | pending | aborted => exact ⟨board, rfl⟩

-- As tasks are moved in their own turns only, it is enough that every status is met by what
-- the pass starts from.
theorem exists_replayStatuses (job : String) {id : JobId} {board : Board} {index : Nat}
    {rest : List (Submission.Task × TaskStatus)}
    (h : ∀ offset task status, rest[offset]? = some (task, status) → ∃ source target,
      board.placeOf ⟨id, index + offset⟩ = .ok source ∧ Settles status source target) :
    ∃ board', replayStatuses job id board index rest = .ok board' := by
  induction rest generalizing board index with
  | nil => exact ⟨board, rfl⟩
  | cons entry rest ih =>
      obtain ⟨task, status⟩ := entry
      obtain ⟨source, target, hsource, hsettles⟩ := h 0 task status rfl
      obtain ⟨mid, hmid⟩ := exists_replayStatus hsource hsettles
      obtain ⟨_, _, hstep, -⟩ := step_of_replayStatus hmid
      have hlater (offset : Nat) (other : Submission.Task) (status' : TaskStatus)
          (hentry : rest[offset]? = some (other, status')) : ∃ source target,
          mid.placeOf ⟨id, index + 1 + offset⟩ = .ok source ∧ Settles status' source target := by
        obtain ⟨source', target', hsource', hsettles'⟩ := h (offset + 1) other status' hentry
        refine ⟨source', target', ?_, hsettles'⟩
        have hne : (⟨id, index + 1 + offset⟩ : TaskId) ≠ ⟨id, index + 0⟩ := by
          simp only [ne_eq, TaskId.mk.injEq, true_and]
          omega
        rw [hstep.place, if_neg hne, Nat.add_assoc, Nat.add_comm 1]
        exact hsource'
      obtain ⟨board', hrest⟩ := ih hlater
      exact ⟨board', bind_eq_ok_iff.mpr ⟨mid, hmid, hrest⟩⟩

end Settled

section Rebuild

variable {id : JobId} {submission : Submission} {statuses : SortedMap String TaskStatus}

theorem laysOut_of_build {tasks : List PlannedTask} {priority : Priority} {base : Board}
    (hresolve : submission.resolve id = .ok tasks)
    (h : build id priority submission.kind tasks = .ok base) : base.LaysOut submission where
  wired := wired_of_build h
  kind := kind_of_build h
  resolved := by rw [job_of_build h, hresolve, map_task_of_build h]

theorem exists_build {tasks : List PlannedTask} (h : submission.resolve id = .ok tasks) :
    ∃ base, build id submission.priority submission.kind tasks = .ok base :=
  Submission.exists_build_of_resolve h submission.priority

-- There is a round for every task that has terminated, and no more rounds are needed than
-- there are tasks.
theorem exists_drained_of_build (statuses : SortedMap String TaskStatus) {tasks : List PlannedTask}
    {base : Board} (h : build id submission.priority submission.kind tasks = .ok base) :
    ∃ drained, Replayed (submission.tasks.map (statusIn statuses)) base drained ∧
      drained.nextTerminated? (submission.tasks.map (statusIn statuses)) = none ∧
      ∀ rounds, base.size ≤ rounds →
        replayTerminated (submission.tasks.map (statusIn statuses)) rounds base = .ok drained := by
  obtain ⟨drained, hreplayed, hnone, hall⟩ := (replayed_of_build h).exists_drained
  exact ⟨drained, hreplayed, hnone, fun rounds hrounds =>
    hall rounds (Nat.le_trans base.left_le_size hrounds)⟩

theorem checkKnown_eq_ok_iff {name : String} :
    checkKnown submission name = .ok () ↔ ∃ task ∈ submission.tasks, task.name = name := by
  unfold checkKnown
  split <;> simp_all

-- The replayed boards of a rebuild are laid out alike.
theorem Stages.replays {base drained board : Board} (h : Stages id submission statuses base drained board) :
    Replayed (submission.tasks.map (statusIn statuses)) base drained ∧
      drained.nextTerminated? (submission.tasks.map (statusIn statuses)) = none ∧
      drained.LaysOut submission ∧ drained.job = id := by
  obtain ⟨tasks, hresolve, hbuild⟩ := h.built
  obtain ⟨final, hfinal, hnone, hall⟩ := exists_drained_of_build statuses hbuild
  have heq := h.replayed
  rw [hall base.size (Nat.le_refl _), Except.ok.injEq] at heq
  subst heq
  exact ⟨hfinal, hnone, (laysOut_of_build hresolve hbuild).congr hfinal.same,
    hfinal.same.job.trans (job_of_build hbuild)⟩

theorem Stages.settles {base drained board : Board} (h : Stages id submission statuses base drained board)
    {index : Nat} {task : Submission.Task} (htask : submission.tasks[index]? = some task) :
    ∃ source target, drained.placeOf ⟨id, index⟩ = .ok source ∧
      board.placeOf ⟨id, index⟩ = .ok target ∧ Settles (statusIn statuses task) source target := by
  obtain ⟨hreplayed, -⟩ := h.replays
  obtain ⟨-, -, -, -, hall⟩ := replayStatuses_spec hreplayed.sound h.settled
  have hentry := hall index task (statusIn statuses task) (by rw [List.getElem?_map, htask]; rfl)
  rwa [Nat.zero_add] at hentry

theorem consistent_of_stages {base drained board : Board}
    (h : Stages id submission statuses base drained board) : submission.Consistent statuses where
  declared name hname := checkKnown_eq_ok_iff.mp (h.known name hname)
  kept := h.kept
  ready task htask hready := by
    obtain ⟨hreplayed, -, hlaid, hjob⟩ := h.replays
    obtain ⟨index, hindex⟩ := List.mem_iff_getElem?.mp htask
    obtain ⟨source, target, hsource, -, hsettles⟩ := h.settles hindex
    rw [← hjob] at hsource
    exact not_waitsIn hreplayed hlaid hindex hsource (hsettles.ne_blocked hready)

theorem exists_stages {tasks : List PlannedTask} (hresolve : submission.resolve id = .ok tasks)
    (hc : submission.Consistent statuses) :
    ∃ base drained board, Stages id submission statuses base drained board := by
  obtain ⟨base, hbuild⟩ := exists_build hresolve
  obtain ⟨drained, hreplayed, hnone, hall⟩ := exists_drained_of_build statuses hbuild
  have hlaid := (laysOut_of_build hresolve hbuild).congr hreplayed.same
  have hjob := hreplayed.same.job.trans (job_of_build hbuild)
  have hdemands (offset : Nat) (task : Submission.Task) (status : TaskStatus)
      (hentry : (submission.tasks.map fun task => (task, statusIn statuses task))[offset]? =
        some (task, status)) : ∃ source target,
      drained.placeOf ⟨id, 0 + offset⟩ = .ok source ∧ Settles status source target := by
    rw [List.getElem?_map, Option.map_eq_some_iff] at hentry
    obtain ⟨declared, htask, heq⟩ := hentry
    cases heq
    have hmem := List.mem_of_getElem? htask
    have hplace := placeOf_drained hreplayed hlaid hc.ready hnone htask
    rw [hjob] at hplace
    exact ⟨_, _, by rw [Nat.zero_add, hplace], settles_placeIn (hc.kept task hmem) (hc.ready task hmem)⟩
  obtain ⟨board, hboard⟩ := exists_replayStatuses submission.name hdemands
  exact ⟨base, drained, board, fun name hname => checkKnown_eq_ok_iff.mpr (hc.declared name hname),
    ⟨tasks, hresolve, hbuild⟩, hc.kept, hall base.size (Nat.le_refl _), hboard⟩

theorem Stages.placeOf {base drained board : Board} (h : Stages id submission statuses base drained board)
    {index : Nat} {task : Submission.Task} (htask : submission.tasks[index]? = some task) :
    board.placeOf ⟨id, index⟩ = .ok (placeIn statuses task) := by
  have hc := consistent_of_stages h
  have hmem := List.mem_of_getElem? htask
  obtain ⟨hreplayed, hnone, hlaid, hjob⟩ := h.replays
  obtain ⟨source, target, hsource, htarget, hsettles⟩ := h.settles htask
  have hdrained := placeOf_drained hreplayed hlaid hc.ready hnone htask
  rw [hjob, hsource, Except.ok.injEq] at hdrained
  subst hdrained
  rw [htarget, hsettles.unique (settles_placeIn (hc.kept task hmem) (hc.ready task hmem))]

theorem reflects_of_rebuild {board : Board} (h : rebuild id submission statuses = .ok board) :
    board.Reflects id submission statuses := by
  obtain ⟨base, drained, hstages⟩ := rebuild_eq_ok_iff.mp h
  obtain ⟨hreplayed, -, hdrained, hjob⟩ := hstages.replays
  obtain ⟨hsound, hsame, hfailed, -, -⟩ := replayStatuses_spec hreplayed.sound hstages.settled
  have hlaid := hdrained.congr hsame
  have hid : board.job = id := hsame.job.trans hjob
  have hgoesOn := hfailed.trans hreplayed.failed
  have hunfinished (index : Nat) (task : Submission.Task) (htask : submission.tasks[index]? = some task) :
      board.unfinished ⟨board.job, index⟩ = openIn statuses task.name := by
    rw [hid, unfinished_of_placeOf (hstages.placeOf htask), placeIn_bne_done]
  refine ⟨hlaid, hsound.consistent, hid, hgoesOn, fun index task htask => ?_⟩
  obtain ⟨card, hcard, hplanned⟩ := hlaid.card_of_task htask
  have hcounted := hsound.counted hgoesOn
  refine ⟨card, hid ▸ hcard, ?_, ?_, ?_, ?_⟩
  · rw [Card.name, hplanned]
    rfl
  · have hplace := hstages.placeOf htask
    rw [← hid, placeOf_of_card hcard, Except.ok.injEq] at hplace
    exact hplace
  · rw [hcounted.unmet _ card hcard, List.count_nil, Nat.add_zero]
    exact hlaid.countP_parents hunfinished htask hcard
  · rw [hcounted.remaining _ card hcard, List.count_nil, Nat.add_zero]
    exact hlaid.countP_children hunfinished htask hcard

end Rebuild

-- Statuses that are consistent are all that a rebuild asks for, and they alone decide what
-- it makes of them. The rounds of its replay come to an end of themselves.
theorem rebuild_decided_by_statuses (id : JobId) (submission : Submission)
    (statuses : SortedMap String TaskStatus) :
    ((∃ board, rebuild id submission statuses = .ok board) ↔
      (∃ tasks, submission.resolve id = .ok tasks) ∧ submission.Consistent statuses) ∧
    (∀ board, rebuild id submission statuses = .ok board → board.Reflects id submission statuses) ∧
    ∀ tasks base, submission.resolve id = .ok tasks →
      build id submission.priority submission.kind tasks = .ok base →
      ∃ drained, drained.nextTerminated? (submission.tasks.map (statusIn statuses)) = none ∧
        ∀ rounds, base.size ≤ rounds →
          replayTerminated (submission.tasks.map (statusIn statuses)) rounds base = .ok drained := by
  refine ⟨⟨?_, ?_⟩, fun board h => reflects_of_rebuild h, fun tasks base _ hbuild => ?_⟩
  · rintro ⟨board, h⟩
    obtain ⟨base, drained, hstages⟩ := rebuild_eq_ok_iff.mp h
    obtain ⟨tasks, hresolve, -⟩ := hstages.built
    exact ⟨⟨tasks, hresolve⟩, consistent_of_stages hstages⟩
  · rintro ⟨⟨tasks, hresolve⟩, hc⟩
    obtain ⟨base, drained, board, hstages⟩ := exists_stages hresolve hc
    exact ⟨board, rebuild_eq_ok_iff.mpr ⟨base, drained, hstages⟩⟩
  · obtain ⟨drained, -, hnone, hall⟩ := exists_drained_of_build statuses hbuild
    exact ⟨drained, hnone, hall⟩

-- Two tasks between a first and a last one, which waits for one of them twice.
def diamond : Submission :=
  ⟨"diamond", .normal, .taskFlow, false, false,
    [⟨"a", "true", [], 1, false, 1⟩, ⟨"b", "true", ["a"], 1, false, 1⟩,
      ⟨"c", "true", ["a"], 1, false, 1⟩, ⟨"d", "true", ["b", "c", "c"], 1, false, 1⟩]⟩

theorem resolve_diamond : diamond.resolve ⟨0⟩ = .ok (diamond.plan ⟨0⟩) := by
  have hnodes : (NameGraph.ofSubmission diamond).nodes = ["a", "b", "c", "d"] := by decide
  have hwaiting : (NameGraph.ofSubmission diamond).waiting "a" = ["b", "c"] ∧
      (NameGraph.ofSubmission diamond).waiting "b" = ["d"] ∧
      (NameGraph.ofSubmission diamond).waiting "c" = ["d"] ∧
      (NameGraph.ofSubmission diamond).waiting "d" = [] := by decide
  have hawaited : (NameGraph.ofSubmission diamond).awaited "a" = [] ∧
      (NameGraph.ofSubmission diamond).awaited "b" = ["a"] ∧
      (NameGraph.ofSubmission diamond).awaited "c" = ["a"] ∧
      (NameGraph.ofSubmission diamond).awaited "d" = ["b", "c"] := by decide
  have hcycle : (NameGraph.ofSubmission diamond).cycleTask? = none := by
    simp [NameGraph.cycleTask?, CycleSearch.onCycle?, CycleSearch.finishing,
      CycleSearch.companion?, CycleSearch.reached, hnodes, hwaiting, hawaited]
  have hcheck : (NameGraph.ofSubmission diamond).check diamond.name = .ok () := by
    rw [NameGraph.check, hcycle]
    rfl
  rw [Submission.resolve, hcheck]
  rfl

theorem rebuild_diamond :
    let statuses := SortedMap.ofList
      [("a", .finished), ("b", .killed), ("c", .inError), ("d", .paused)]
    diamond.Consistent statuses ∧
    (∃ board, rebuild ⟨0⟩ diamond statuses = .ok board ∧ board.Reflects ⟨0⟩ diamond statuses ∧
      board.snapshot = ⟨[], [], [⟨⟨0⟩, 2⟩], [0, 0, 0, 2], [1, 1, 2, 0]⟩) ∧
    diamond.tasks.map (placeIn statuses) = [.done, .done, .paused, .blocked] ∧
    ∃ base drained, build ⟨0⟩ diamond.priority diamond.kind (diamond.plan ⟨0⟩) = .ok base ∧
      drained.nextTerminated? (diamond.tasks.map (statusIn statuses)) = none ∧
      ∀ rounds, base.size ≤ rounds →
        replayTerminated (diamond.tasks.map (statusIn statuses)) rounds base = .ok drained := by
  intro statuses
  have hc : diamond.Consistent statuses := ⟨by decide, by decide, by decide⟩
  obtain ⟨hiff, hreflects, hrounds⟩ := rebuild_decided_by_statuses ⟨0⟩ diamond statuses
  obtain ⟨board, hboard⟩ := hiff.mpr ⟨⟨_, resolve_diamond⟩, hc⟩
  obtain ⟨base, hbase⟩ := exists_build resolve_diamond
  obtain ⟨drained, hnone, hall⟩ := hrounds _ base resolve_diamond hbase
  refine ⟨hc, ⟨board, hboard, hreflects board hboard, ?_⟩, by decide, base, drained, hbase, hnone, hall⟩
  rw [rebuild, resolve_diamond] at hboard
  cases hboard
  decide +kernel

end Board

end JobScheduler
