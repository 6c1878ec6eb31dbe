import JobScheduler.Proofs.Job.Sound

namespace JobScheduler.LiveJob

def shift (job : LiveJob) (task : TaskId) (source target : Place) : LiveJob :=
  { job with board := job.board.relocate task source target }

def holdingBack (job : LiveJob) (task : TaskId) : LiveJob :=
  setStatus .paused (job.shift task .eligible .paused) task

-- One task of a job has moved and has a new status. What this has promoted is eligible,
-- or paused if the job is held.
structure Moved (job job' : LiveJob) (held : Bool) (task : TaskId) (target : Place)
    (status : TaskStatus) (promoted : List TaskId) : Prop where
  same : job.SameJob job'
  board : job'.board.Sound
  blocked : ∀ id ∈ promoted, job.board.placeOf id = .ok .blocked
  place : ∀ id, job'.board.placeOf id =
    if id = task then .ok target
    else if id ∈ promoted then .ok (if held then .paused else .eligible)
    else job.board.placeOf id
  statusOf : ∀ id, id.job = job.id → job'.statusOf? id = (job.statusOf? id).map fun old =>
    if id = task then status else if held ∧ id ∈ promoted then .paused else old

-- What a move tells is about boards, submissions and statuses.
theorem Moved.congr {a a' b b' : LiveJob} {held : Bool} {task : TaskId} {target : Place}
    {status : TaskStatus} {promoted : List TaskId} (h : Moved a b held task target status promoted)
    (ha : a'.board = a.board ∧ a'.submission = a.submission ∧ a'.statuses = a.statuses)
    (hb : b'.board = b.board ∧ b'.submission = b.submission ∧ b'.statuses = b.statuses) :
    Moved a' b' held task target status promoted := by
  obtain ⟨hboard, hsubmission, hstatuses⟩ := ha
  obtain ⟨hboard', hsubmission', hstatuses'⟩ := hb
  refine ⟨⟨?_, ?_, ?_, ?_⟩, ?_, ?_, ?_, ?_⟩
  · rw [hboard, hboard']
    exact h.same.board
  · rw [hboard, hboard']
    exact h.same.failed
  · rw [hsubmission, hsubmission']
    exact h.same.submission
  · rw [hstatuses, hstatuses']
    exact h.same.length
  · rw [hboard']
    exact h.board
  · rw [hboard]
    exact h.blocked
  · rw [hboard, hboard']
    exact h.place
  · simp only [LiveJob.id, statusOf?, hboard, hstatuses, hstatuses']
    exact h.statusOf

-- A task moves from one partition to another.
theorem moved_shift {job : LiveJob} (hb : job.board.Sound) {task : TaskId} {source target : Place}
    (h : job.board.placeOf task = .ok source) (hsource : source.isPartition)
    (htarget : target.isPartition) (held : Bool) (status : TaskStatus) :
    Moved job (setStatus status (job.shift task source target) task) held task target status [] where
  same := ⟨.relocate job.board task source target, by simp [shift], rfl, by simp [shift]⟩
  board := hb.relocate h hsource htarget
  blocked := by simp
  place id := by
    rw [setStatus_board, shift, Board.placeOf_relocate target h]
    simp
  statusOf id hjob := by
    rw [statusOf?_setStatus]
    simp only [TaskId.index_eq_iff (hjob.trans (Board.job_eq_of_placeOf h).symm)]
    simp [statusOf?, shift]

-- A task terminates and promotes blocked tasks.
theorem moved_finish {job : LiveJob} (hb : job.board.Sound) {task : TaskId} {source : Place}
    (hsource : source.isPartition) {board' : Board} {promoted : List TaskId}
    (h : job.board.finish task source = .ok (board', promoted)) (status : TaskStatus) :
    Moved job (setStatus status { job with board := board' } task) false task .done status
      promoted := by
  have hplace := Board.placeOf_of_finish h
  obtain ⟨final, promoted', hfinal, hpromotes⟩ := Board.finish_promotes hb.wired hplace
  rw [h] at hfinal
  cases hfinal
  have hmoved := Board.placeOf_relocate .done hplace
  have hblocked (id : TaskId) (hid : id ∈ promoted) : job.board.placeOf id = .ok .blocked := by
    have hold := hpromotes.blocked id hid
    rw [hmoved] at hold
    split at hold
    · cases hold
    · exact hold
  refine ⟨⟨?_, ?_, rfl, by simp⟩, hb.finish hsource h, hblocked, fun id => ?_, fun id hjob => ?_⟩
  · exact (Board.SameTasks.relocate job.board task source .done).trans hpromotes.same
  · simpa using hpromotes.failed
  · rw [setStatus_board, hpromotes.place, hmoved]
    by_cases htask : id = task
    · have hnew : id ∉ promoted := fun hid => by
        have hold := hblocked id hid
        rw [htask, hplace] at hold
        exact Place.ne_blocked_of_isPartition hsource (Except.ok.inj hold)
      simp [htask, htask ▸ hnew]
    · simp [htask]
  · rw [statusOf?_setStatus]
    simp only [TaskId.index_eq_iff (hjob.trans (Board.job_eq_of_placeOf hplace).symm)]
    simp [statusOf?]

namespace Moved

variable {job job' : LiveJob} {held : Bool} {task : TaskId} {target : Place} {status : TaskStatus}
  {promoted : List TaskId} (h : Moved job job' held task target status promoted)
include h

theorem placeOf_task : job'.board.placeOf task = .ok target := by
  rw [h.place, if_pos rfl]

-- The task moves once more before anybody has seen where it was.
theorem again {target' : Place} (htarget : target.isPartition) (htarget' : target'.isPartition)
    (status' : TaskStatus) :
    Moved job (setStatus status' (job'.shift task target target') task) held task target' status'
      promoted := by
  have hlater := moved_shift h.board h.placeOf_task htarget htarget' held status'
  refine ⟨h.same.trans hlater.same, hlater.board, h.blocked, fun id => ?_, fun id hjob => ?_⟩
  · rw [hlater.place, h.place]
    by_cases htask : id = task <;> simp [htask]
  · rw [hlater.statusOf id (hjob.trans h.same.id.symm), h.statusOf id hjob, Option.map_map]
    congr 1
    funext old
    by_cases htask : id = task <;> simp [htask]

theorem agrees {relation relation' : Place → TaskStatus → Prop} (hagrees : job.Agrees relation)
    {source : Place} (hsource : job.board.placeOf task = .ok source) (htarget : relation' target status)
    (hpromoted : ∀ old, relation .blocked old →
      relation' (if held then .paused else .eligible) (if held then .paused else old))
    (hrest : ∀ place old, relation place old → relation' place old) : job'.Agrees relation' := by
  intro id place hplace
  rw [h.place] at hplace
  by_cases htask : id = task
  · subst htask
    rw [if_pos rfl, Except.ok.injEq] at hplace
    subst hplace
    obtain ⟨old, hold, -⟩ := hagrees id source hsource
    refine ⟨status, ?_, htarget⟩
    rw [h.statusOf id (Board.job_eq_of_placeOf hsource), hold]
    simp
  · rw [if_neg htask] at hplace
    by_cases hid : id ∈ promoted
    · rw [if_pos hid, Except.ok.injEq] at hplace
      subst hplace
      have hblocked := h.blocked id hid
      obtain ⟨old, hold, hrelation⟩ := hagrees id .blocked hblocked
      refine ⟨_, ?_, hpromoted old hrelation⟩
      rw [h.statusOf id (Board.job_eq_of_placeOf hblocked), hold]
      simp [htask, hid]
    · rw [if_neg hid] at hplace
      obtain ⟨old, hold, hrelation⟩ := hagrees id place hplace
      refine ⟨old, ?_, hrest place old hrelation⟩
      rw [h.statusOf id (Board.job_eq_of_placeOf hplace), hold]
      simp [htask, hid]

theorem sound (hs : job.Sound) {source : Place} (hsource : job.board.placeOf task = .ok source)
    (hadmits : target.admits status) : job'.Sound := by
  refine hs.of_sameJob h.same h.board (h.agrees hs.agrees hsource hadmits ?_ fun _ _ hr => hr)
  intro old hold
  cases held <;> cases old <;> simp_all [Place.admits, TaskStatus.isTerminated]

-- Only the task that moves and those that are held back have another status than before.
theorem mem_statuses_of {wanted : TaskStatus} (hpaused : wanted ≠ .paused) (hstatus : status ≠ wanted)
    (hmem : wanted ∈ job'.statuses) : wanted ∈ job.statuses := by
  obtain ⟨id, hjob, hid⟩ := mem_statuses_iff.mp hmem
  have hjob' := hjob.trans h.same.id
  rw [h.statusOf id hjob'] at hid
  obtain ⟨old, hold, hnew⟩ := Option.map_eq_some_iff.mp hid
  refine mem_statuses_iff.mpr ⟨id, hjob', ?_⟩
  split at hnew
  · exact absurd hnew hstatus
  · split at hnew
    · exact absurd hnew.symm hpaused
    · rw [hold, hnew]

theorem hasTasksInError_of (hstatus : status ≠ .inError)
    (herror : job'.hasTasksInError) : job.hasTasksInError := by
  rw [hasTasksInError, List.contains_iff_mem] at *
  exact h.mem_statuses_of (by simp) hstatus herror

-- Tasks in error that do not move are in error still.
theorem hasTasksInError_keep (hs : job.Sound) {source : Place}
    (hsource : job.board.placeOf task = .ok source) (hpaused : source ≠ .paused)
    (herror : job.hasTasksInError) : job'.hasTasksInError := by
  obtain ⟨id, hjob, hid⟩ := hasTasksInError_iff.mp herror
  refine hasTasksInError_iff.mpr ⟨id, hjob.trans h.same.id.symm, ?_⟩
  have hplace := hs.placeOf_of_inError hjob hid
  have htask : id ≠ task := by
    rintro rfl
    rw [hplace] at hsource
    exact hpaused (Except.ok.inj hsource).symm
  have hnew : id ∉ promoted := fun hmem => by
    have hblocked := h.blocked id hmem
    rw [hplace] at hblocked
    cases hblocked
  rw [h.statusOf id hjob, hid]
  simp [htask, hnew]

theorem not_running (htarget : target ≠ .running) (hnone : ∀ id, job.board.placeOf id ≠ .ok .running)
    (id : TaskId) : job'.board.placeOf id ≠ .ok .running := by
  rw [h.place]
  split
  · simpa using htarget
  · split
    · cases held <;> simp
    · exact hnone id

theorem advances (hs : job.Sound) {source : Place} (hsource : job.board.placeOf task = .ok source)
    (hopen : source ≠ .done) (hadmits : target.admits status)
    (hcoherent : job.Coherent → job'.Coherent) : job.Advances job' where
  sound := h.sound hs hsource hadmits
  id := h.same.id
  tasks := h.same.tasks
  coherent := hcoherent
  terminated id old hjob hold hterminated := by
    have hplace := hs.placeOf_of_terminated hjob hold hterminated
    have htask : id ≠ task := by
      rintro rfl
      rw [hplace] at hsource
      exact hopen (Except.ok.inj hsource).symm
    have hnew : id ∉ promoted := fun hmem => by
      have hblocked := h.blocked id hmem
      rw [hplace] at hblocked
      cases hblocked
    rw [h.statusOf id hjob, hold]
    simp [htask, hnew]

theorem fits (hheld : held = job.isHeld) (hheld' : job'.isHeld = job.isHeld) {source : Place}
    (hsource : job.board.placeOf task = .ok source) (hfits : target.fits held status)
    (hc : job.Agrees fun place old => place.fits job.isHeld old) :
    job'.Agrees fun place old => place.fits job'.isHeld old := by
  rw [hheld', ← hheld] at *
  refine h.agrees hc hsource hfits ?_ fun _ _ hr => hr
  intro old hold
  cases held <;> cases old <;> simp_all [Place.fits]

end Moved

-- All tasks of a list are held back.
def allHeldBack (job : LiveJob) (tasks : List TaskId) : LiveJob := tasks.foldl holdingBack job

@[simp] theorem allHeldBack_status (job : LiveJob) (tasks : List TaskId) :
    (job.allHeldBack tasks).status = job.status := by
  induction tasks generalizing job with
  | nil => rfl
  | cons first rest ih => exact ih (job.holdingBack first)

-- Eligible tasks of a job have become paused ones.
structure HeldBack (job job' : LiveJob) (tasks : List TaskId) : Prop where
  same : job.SameJob job'
  board : job'.board.Sound
  place : ∀ id, job'.board.placeOf id = if id ∈ tasks then .ok .paused else job.board.placeOf id
  statusOf : ∀ id, id.job = job.id → job'.statusOf? id = (job.statusOf? id).map fun old =>
    if id ∈ tasks then .paused else old
  load : job'.board.load = job.board.load

theorem heldBack_one {job : LiveJob} (hb : job.board.Sound) {task : TaskId}
    (h : job.board.placeOf task = .ok .eligible) : HeldBack job (job.holdingBack task) [task] := by
  have hmoved := moved_shift hb h rfl (show Place.paused.isPartition from rfl) false .paused
  refine ⟨hmoved.same, hmoved.board, fun id => ?_, fun id hjob => ?_, ?_⟩
  · rw [holdingBack, hmoved.place]
    simp
  · rw [holdingBack, hmoved.statusOf id hjob]
    simp
  · obtain ⟨card, hcard, hplace⟩ := Board.placeOf_eq_ok_iff.mp h
    have hload := Board.load_relocate hcard .paused
    rw [hplace] at hload
    simpa [holdingBack, shift] using hload

theorem heldBack_all {job : LiveJob} (hb : job.board.Sound) {tasks : List TaskId}
    (hnodup : tasks.Nodup) (h : ∀ task ∈ tasks, job.board.placeOf task = .ok .eligible) :
    HeldBack job (job.allHeldBack tasks) tasks := by
  induction tasks generalizing job with
  | nil =>
      exact ⟨.refl job, hb, fun id => by simp [allHeldBack], fun id _ => by simp [allHeldBack], rfl⟩
  | cons first rest ih =>
      obtain ⟨hfirst, hrest⟩ := List.forall_mem_cons.mp h
      obtain ⟨hfresh, hnodup⟩ := List.nodup_cons.mp hnodup
      have hone := heldBack_one hb hfirst
      have hnext (task : TaskId) (htask : task ∈ rest) :
          (job.holdingBack first).board.placeOf task = .ok .eligible := by
        have hne : task ≠ first := fun heq => hfresh (heq ▸ htask)
        rw [hone.place]
        simpa [hne] using hrest task htask
      have hall := ih hone.board hnodup hnext
      refine ⟨hone.same.trans hall.same, hall.board, fun id => ?_, fun id hjob => ?_,
        hall.load.trans hone.load⟩
      · refine (hall.place id).trans ?_
        rw [hone.place]
        by_cases hmem : id ∈ rest <;> by_cases heq : id = first <;> simp [hmem, heq]
      · refine (hall.statusOf id (hjob.trans hone.same.id.symm)).trans ?_
        rw [hone.statusOf id hjob, Option.map_map]
        congr 1
        funext old
        by_cases hmem : id ∈ rest <;> by_cases heq : id = first <;> simp [hmem, heq]

-- In a held job promoted tasks are held back at once.
theorem Moved.hold {job job' : LiveJob} {task : TaskId} {target : Place} {status : TaskStatus}
    {promoted : List TaskId} (h : Moved job job' false task target status promoted)
    {final : LiveJob} (hheld : HeldBack job' final promoted) (hnew : task ∉ promoted) :
    Moved job final true task target status promoted := by
  refine ⟨h.same.trans hheld.same, hheld.board, h.blocked, fun id => ?_, fun id hjob => ?_⟩
  · rw [hheld.place, h.place]
    by_cases heq : id = task
    · simp [heq, hnew]
    · by_cases hmem : id ∈ promoted <;> simp [heq, hmem]
  · rw [hheld.statusOf id (hjob.trans h.same.id.symm), h.statusOf id hjob, Option.map_map]
    congr 1
    funext old
    by_cases heq : id = task
    · simp [heq, hnew]
    · by_cases hmem : id ∈ promoted <;> simp [heq, hmem]

end JobScheduler.LiveJob
