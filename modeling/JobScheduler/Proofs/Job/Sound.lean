import JobScheduler.Proofs.Board.Layout
import JobScheduler.Proofs.Board.Sound
import JobScheduler.Proofs.Job.Statuses
import JobScheduler.Proofs.Submission.Resolve

namespace JobScheduler

-- The statuses that a task may have where it stands, whatever the history of its job.
def Place.admits (place : Place) (status : TaskStatus) : Prop :=
  (status.isTerminated ↔ place = .done) ∧ (status = .inError → place = .paused)

-- The statuses that a task may have where it stands while its job is held by a client or
-- not, if the job was submitted to this scheduler.
def Place.fits (held : Bool) : Place → TaskStatus → Bool
  | .blocked, .submitted | .blocked, .pending => !held
  | .blocked, .paused => held
  | .eligible, .submitted | .eligible, .pending | .eligible, .waitingOnError => !held
  | .running, .running => true
  | .paused, .paused => held
  | .paused, .inError => true
  | .done, status => status.isTerminated
  | _, _ => false

theorem Place.admits_of_fits {held : Bool} {place : Place} {status : TaskStatus}
    (h : place.fits held status) : place.admits status := by
  cases place <;> cases status <;> simp_all [Place.fits, Place.admits, TaskStatus.isTerminated]

namespace LiveJob

-- The statuses shown stand in a relation to the places on the board.
def Agrees (job : LiveJob) (relation : Place → TaskStatus → Prop) : Prop :=
  ∀ id place, job.board.placeOf id = .ok place →
    ∃ status, job.statusOf? id = some status ∧ relation place status

structure Sound (job : LiveJob) : Prop where
  board : job.board.Sound
  goesOn : job.board.failed = false
  resolved : job.submission.resolve job.id = .ok (job.board.cards.map Card.task)
  kind : job.board.kind = job.submission.kind
  length : job.statuses.length = job.board.size
  agrees : job.Agrees Place.admits

def isHeld (job : LiveJob) : Bool := job.status == .paused

theorem isHeld_iff {job : LiveJob} : job.isHeld ↔ job.status = .paused := by simp [isHeld]

-- The status of a job that was submitted to this scheduler says what its tasks do.
structure Coherent (job : LiveJob) : Prop where
  fits : job.Agrees fun place status => place.fits job.isHeld status
  live : job.status.isTerminal = false
  inError : job.status = .inError ↔ job.status ≠ .paused ∧ job.hasTasksInError
  pending : job.status = .pending → ∀ id, job.board.placeOf id ≠ .ok .running

-- What an event makes of a job that goes on.
structure Advances (job job' : LiveJob) : Prop where
  sound : job'.Sound
  id : job'.id = job.id
  tasks : job'.submission.tasks = job.submission.tasks
  terminated : ∀ id status, id.job = job.id → job.statusOf? id = some status →
    status.isTerminated → job'.statusOf? id = some status
  coherent : job.Coherent → job'.Coherent

theorem Advances.trans {a b c : LiveJob} (h : a.Advances b) (h' : b.Advances c) : a.Advances c where
  sound := h'.sound
  id := h'.id.trans h.id
  tasks := h'.tasks.trans h.tasks
  terminated id status hjob hstatus hterminated :=
    h'.terminated id status (hjob.trans h.id.symm) (h.terminated id status hjob hstatus hterminated)
      hterminated
  coherent hc := h'.coherent (h.coherent hc)

theorem mem_statuses_iff {job : LiveJob} {status : TaskStatus} :
    status ∈ job.statuses ↔ ∃ id, id.job = job.id ∧ job.statusOf? id = some status := by
  rw [List.mem_iff_getElem?]
  constructor
  · rintro ⟨index, hindex⟩
    exact ⟨⟨job.id, index⟩, rfl, hindex⟩
  · rintro ⟨id, -, hstatus⟩
    exact ⟨id.index, hstatus⟩

theorem hasTasksInError_iff {job : LiveJob} :
    job.hasTasksInError ↔ ∃ id, id.job = job.id ∧ job.statusOf? id = some .inError := by
  rw [hasTasksInError, List.contains_iff_mem, mem_statuses_iff]

-- Every task that has a status stands somewhere, and what holds of all tasks holds of it.
theorem Sound.exists_place_of_agrees {job : LiveJob} (hs : job.Sound)
    {relation : Place → TaskStatus → Prop} (hagrees : job.Agrees relation) {id : TaskId}
    {status : TaskStatus} (hjob : id.job = job.id) (h : job.statusOf? id = some status) :
    ∃ place, job.board.placeOf id = .ok place ∧ relation place status := by
  obtain ⟨hlength, -⟩ := List.getElem?_eq_some_iff.mp h
  rw [hs.length] at hlength
  have hcard := Board.card_eq_ok_iff.mpr ⟨hjob, List.getElem?_eq_getElem hlength⟩
  obtain ⟨status', hstatus', hrelation⟩ := hagrees id _ (Board.placeOf_of_card hcard)
  rw [h, Option.some.injEq] at hstatus'
  exact ⟨_, Board.placeOf_of_card hcard, hstatus' ▸ hrelation⟩

theorem Sound.exists_place {job : LiveJob} (hs : job.Sound) {id : TaskId} {status : TaskStatus}
    (hjob : id.job = job.id) (h : job.statusOf? id = some status) :
    ∃ place, job.board.placeOf id = .ok place ∧ place.admits status :=
  hs.exists_place_of_agrees hs.agrees hjob h

theorem Sound.placeOf_of_terminated {job : LiveJob} (hs : job.Sound) {id : TaskId}
    {status : TaskStatus} (hjob : id.job = job.id) (h : job.statusOf? id = some status)
    (hterminated : status.isTerminated) : job.board.placeOf id = .ok .done := by
  obtain ⟨place, hplace, hadmits⟩ := hs.exists_place hjob h
  rw [hplace, hadmits.1.mp hterminated]

theorem Sound.statusOf?_of_done {job : LiveJob} (hs : job.Sound) {id : TaskId}
    (h : job.board.placeOf id = .ok .done) :
    ∃ status, job.statusOf? id = some status ∧ status.isTerminated := by
  obtain ⟨status, hstatus, hadmits⟩ := hs.agrees id .done h
  exact ⟨status, hstatus, hadmits.1.mpr rfl⟩

theorem Sound.placeOf_of_inError {job : LiveJob} (hs : job.Sound) {id : TaskId}
    (hjob : id.job = job.id) (h : job.statusOf? id = some .inError) :
    job.board.placeOf id = .ok .paused := by
  obtain ⟨place, hplace, hadmits⟩ := hs.exists_place hjob h
  rw [hplace, hadmits.2 rfl]

theorem Sound.laysOut {job : LiveJob} (hs : job.Sound) : job.board.LaysOut job.submission :=
  ⟨hs.board.wired, hs.kind, hs.resolved⟩

-- The cards have the names that were submitted.
theorem map_name_cards {job : LiveJob} (hs : job.Sound) :
    job.board.cards.map Card.name = job.submission.tasks.map (·.name) := hs.laysOut.map_name_cards

theorem nodup_name_cards {job : LiveJob} (hs : job.Sound) : (job.board.cards.map Card.name).Nodup := by
  rw [map_name_cards hs]
  exact Submission.nodup_names_of_resolve hs.resolved

-- The statuses tell where the tasks stand, whether the job is held or not, and in a paused job
-- none of them is to start.
structure Legible (job : LiveJob) : Prop where
  fits : job.Agrees fun place status => ∃ held, place.fits held status
  held : job.status = .paused → ∀ status ∈ job.statuses, awaitsStart status = false

-- Tasks are shown as running while they run.
theorem Legible.statusOf?_eq_running_iff {job : LiveJob} (hl : job.Legible) (hs : job.Sound) {id : TaskId}
    (hjob : id.job = job.id) : job.statusOf? id = some .running ↔ job.board.placeOf id = .ok .running := by
  constructor
  · intro h
    obtain ⟨place, hplace, held, hfits⟩ := hs.exists_place_of_agrees hl.fits hjob h
    cases place <;> first | exact hplace | cases hfits
  · intro h
    obtain ⟨status, hstatus, held, hfits⟩ := hl.fits id .running h
    cases status <;> first | exact hstatus | cases hfits

section Coherent

variable {job : LiveJob} (hs : job.Sound) (hc : job.Coherent)
include hs hc

theorem fits_of_statusOf? {id : TaskId} {status : TaskStatus} (hjob : id.job = job.id)
    (h : job.statusOf? id = some status) :
    ∃ place, job.board.placeOf id = .ok place ∧ place.fits job.isHeld status :=
  hs.exists_place_of_agrees hc.fits hjob h

theorem Coherent.legible : job.Legible where
  fits id place hplace := by
    obtain ⟨status, hstatus, hfits⟩ := hc.fits id place hplace
    exact ⟨status, hstatus, _, hfits⟩
  held hpaused status hmem := by
    obtain ⟨id, hjob, hshown⟩ := mem_statuses_iff.mp hmem
    obtain ⟨place, -, hfits⟩ := fits_of_statusOf? hs hc hjob hshown
    rw [isHeld_iff.mpr hpaused] at hfits
    cases status <;> cases place <;> simp_all [Place.fits, awaitsStart, TaskStatus.isTerminated]

theorem statusOf?_eq_running_iff {id : TaskId} (hjob : id.job = job.id) :
    job.statusOf? id = some .running ↔ job.board.placeOf id = .ok .running :=
  (hc.legible hs).statusOf?_eq_running_iff hs hjob

end Coherent

-- The tasks, their links and what the client asked for are the same.
structure SameJob (job job' : LiveJob) : Prop where
  board : job.board.SameTasks job'.board
  failed : job'.board.failed = job.board.failed
  submission : job'.submission = { job.submission with priority := job'.submission.priority }
  length : job'.statuses.length = job.statuses.length

theorem SameJob.id {job job' : LiveJob} (h : job.SameJob job') : job'.id = job.id := h.board.job

theorem SameJob.tasks {job job' : LiveJob} (h : job.SameJob job') :
    job'.submission.tasks = job.submission.tasks := by
  rw [h.submission]

theorem SameJob.refl (job : LiveJob) : job.SameJob job := ⟨.refl job.board, rfl, rfl, rfl⟩

theorem SameJob.trans {a b c : LiveJob} (h : a.SameJob b) (h' : b.SameJob c) : a.SameJob c :=
  ⟨h.board.trans h'.board, h'.failed.trans h.failed,
    h'.submission.trans (congrArg (fun submission : Submission =>
      { submission with priority := c.submission.priority }) h.submission),
    h'.length.trans h.length⟩

theorem Sound.of_sameJob {job job' : LiveJob} (hs : job.Sound) (h : job.SameJob job')
    (hboard : job'.board.Sound) (hagrees : job'.Agrees Place.admits) : job'.Sound where
  board := hboard
  goesOn := h.failed.trans hs.goesOn
  resolved := by
    rw [h.submission, Submission.resolve_setPriority, h.id, hs.resolved, h.board.map_task]
  kind := by rw [h.board.kind, hs.kind, h.submission]
  length := by rw [h.length, hs.length, h.board.size]
  agrees := hagrees

-- Nothing of what a job shows has changed.
theorem Advances.of_view {job job' : LiveJob} (hs : job.Sound) (h : job.SameJob job')
    (hboard : job'.board.Sound) (hplace : job'.board.placeOf = job.board.placeOf)
    (hstatuses : job'.statuses = job.statuses) (hstatus : job'.status = job.status) :
    job.Advances job' := by
  have hview : job'.statusOf? = job.statusOf? := by
    funext id
    rw [statusOf?, statusOf?, hstatuses]
  have hagrees (relation : Place → TaskStatus → Prop) : job'.Agrees relation ↔ job.Agrees relation := by
    simp only [Agrees, hplace, hview]
  refine ⟨hs.of_sameJob h hboard ((hagrees _).mpr hs.agrees), h.id, h.tasks, fun id status _ hid _ => ?_,
    fun hc => ?_⟩
  · rw [hview]
    exact hid
  · have herror : job'.hasTasksInError = job.hasTasksInError := by
      rw [hasTasksInError, hasTasksInError, hstatuses]
    refine ⟨?_, ?_, ?_, ?_⟩
    · rw [isHeld, hstatus]
      exact (hagrees _).mpr hc.fits
    · rw [hstatus]
      exact hc.live
    · rw [hstatus, herror]
      exact hc.inError
    · rw [hstatus, hplace]
      exact hc.pending

end LiveJob

theorem Board.load_eq_zero {board : Board} (hb : board.Sound)
    (hnone : ∀ id, board.placeOf id ≠ .ok .running) : board.load = 0 := by
  have hempty : board.cards.filter (·.place == .running) = [] := by
    rw [List.filter_eq_nil_iff]
    intro card hcard hrunning
    have hplace := placeOf_of_card (hb.wired.card_id_of_mem hcard)
    rw [beq_iff_eq.mp hrunning] at hplace
    exact hnone card.id hplace
  rw [load, hempty]
  rfl

namespace LiveJob

-- A new job waits to be started, task by task in the order of the dependencies.
structure Fresh (job : LiveJob) (id : JobId) : Prop where
  sound : job.Sound
  coherent : job.Coherent
  id : job.id = id
  load : job.board.load = 0

theorem new_eq_ok {id : JobId} {submission : Submission} {job : LiveJob}
    (h : new id submission = .ok job) :
    ∃ tasks board, submission.resolve id = .ok tasks ∧
      Board.build id submission.priority submission.kind tasks = .ok board ∧
      job = ofBoard submission board := by
  unfold new at h
  obtain ⟨tasks, hresolve, h⟩ := bind_eq_ok_iff.mp h
  obtain ⟨board, hbuild, h⟩ := bind_eq_ok_iff.mp h
  exact ⟨tasks, board, hresolve, hbuild, (Except.ok.inj h).symm⟩

theorem fresh_of_new {id : JobId} {submission : Submission} {job : LiveJob}
    (h : new id submission = .ok job) : job.Fresh id := by
  obtain ⟨tasks, board, hresolve, hbuild, rfl⟩ := new_eq_ok h
  have hb := Board.sound_of_build hbuild
  have hjob := Board.job_of_build hbuild
  have hsubmitted (task : TaskId) (place : Place) (hplace : board.placeOf task = .ok place) :
      (ofBoard submission board).statusOf? task = some .submitted := by
    obtain ⟨card, hcard, -⟩ := Board.placeOf_eq_ok_iff.mp hplace
    obtain ⟨hlt, -⟩ := List.getElem?_eq_some_iff.mp (Board.card_eq_ok_iff.mp hcard).2
    simp [ofBoard, statusOf?, Board.size, hlt]
  have hfits : (ofBoard submission board).Agrees fun place status => place.fits false status := by
    intro task place hplace
    refine ⟨.submitted, hsubmitted task place hplace, ?_⟩
    rcases Board.not_done_of_build hbuild hplace with rfl | rfl <;> rfl
  have hnone (task : TaskId) : board.placeOf task ≠ .ok .running := fun hplace => by
    rcases Board.not_done_of_build hbuild hplace with heq | heq <;> cases heq
  refine ⟨⟨hb, Board.failed_of_build hbuild, ?_, Board.kind_of_build hbuild, by simp [ofBoard], ?_⟩, ⟨hfits, rfl, ?_, ?_⟩,
    hjob, Board.load_eq_zero hb hnone⟩
  · change submission.resolve board.job = .ok (board.cards.map Card.task)
    rw [hjob, hresolve, Board.map_task_of_build hbuild]
  · intro task place hplace
    obtain ⟨status, hstatus, hfit⟩ := hfits task place hplace
    exact ⟨status, hstatus, Place.admits_of_fits hfit⟩
  · simp [ofBoard, hasTasksInError]
  · exact fun _ => hnone

end LiveJob

end JobScheduler
