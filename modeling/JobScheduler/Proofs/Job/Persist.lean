import JobScheduler.Proofs.Board.Likeness
import JobScheduler.Proofs.Board.Rebuild
import JobScheduler.Proofs.Job.Books

namespace JobScheduler.LiveJob

-- What is kept of a job as it stands.
def persisted (job : LiveJob) : PersistedJob :=
  let names := job.board.cards.map Card.name
  { id := job.id
    submission := job.submission
    status := job.status
    statuses := SortedMap.ofList (names.zip job.statuses)
    results := job.results.all
    executions := SortedMap.ofList (names.zip job.executions) }

section Statuses

variable {job : LiveJob} (hs : job.Sound)
include hs

theorem statuses_eq_map_statusIn :
    job.statuses = job.submission.tasks.map (Board.statusIn job.persisted.statuses) := by
  have hlength : (job.board.cards.map Card.name).length = job.statuses.length := by
    rw [List.length_map, hs.length, Board.size]
  have hfound := SortedMap.map_find?_ofList_zip (nodup_name_cards hs) hlength .submitted
  rw [map_name_cards hs, List.map_map, ← map_name_cards hs] at hfound
  exact hfound.symm

theorem statusOf?_eq_statusIn {index : Nat} {task : Submission.Task}
    (htask : job.submission.tasks[index]? = some task) :
    job.statusOf? ⟨job.id, index⟩ = some (Board.statusIn job.persisted.statuses task) := by
  rw [statusOf?, statuses_eq_map_statusIn hs, List.getElem?_map, htask]
  rfl

theorem unfinished_eq_openIn {index : Nat} {task : Submission.Task}
    (htask : job.submission.tasks[index]? = some task) :
    job.board.unfinished ⟨job.id, index⟩ = Board.openIn job.persisted.statuses task.name := by
  obtain ⟨place, hplace, hadmits⟩ := hs.exists_place rfl (statusOf?_eq_statusIn hs htask)
  have hopen : Board.openIn job.persisted.statuses task.name =
      !(Board.statusIn job.persisted.statuses task).isTerminated := rfl
  rw [Board.unfinished_of_placeOf hplace, hopen, Bool.eq_iff_iff, bne_iff_ne, ne_eq, ← hadmits.1]
  simp

-- The tasks with an open parent are the blocked ones.
theorem waitsIn_iff_blocked {index : Nat} {task : Submission.Task} {place : Place}
    (htask : job.submission.tasks[index]? = some task)
    (hplace : job.board.placeOf ⟨job.id, index⟩ = .ok place) :
    Board.waitsIn job.persisted.statuses task ↔ place = .blocked := by
  obtain ⟨card, hcard, rfl⟩ := Board.placeOf_eq_ok_iff.mp hplace
  have hcounted := hs.board.counted hs.goesOn
  have hparents := hs.laysOut.countP_parents (fun _ _ h => unfinished_eq_openIn hs h) htask hcard
  rw [hcounted.blocked _ card hcard, hcounted.unmet _ card hcard, List.count_nil, Nat.add_zero,
    hparents, ← Nat.pos_iff_ne_zero, List.countP_pos_iff, Board.waitsIn, List.any_eq_true]

variable (hl : job.Legible)
include hl

-- What is kept of the statuses says where the tasks stand.
theorem placeIn_eq_place {index : Nat} {task : Submission.Task} {place : Place}
    (htask : job.submission.tasks[index]? = some task)
    (hplace : job.board.placeOf ⟨job.id, index⟩ = .ok place) :
    Board.placeIn job.persisted.statuses task = place := by
  obtain ⟨place', hplace', held, hfits⟩ :=
    hs.exists_place_of_agrees hl.fits rfl (statusOf?_eq_statusIn hs htask)
  rw [hplace, Except.ok.injEq] at hplace'
  subst hplace'
  have hwaits := waitsIn_iff_blocked hs htask hplace
  unfold Board.placeIn
  cases hstatus : Board.statusIn job.persisted.statuses task <;> rw [hstatus] at hfits <;>
    cases place <;> simp_all [Place.fits, TaskStatus.isTerminated]

theorem consistent_persisted : job.submission.Consistent job.persisted.statuses where
  declared name hname := by
    obtain ⟨⟨_, status⟩, hentry, rfl⟩ := List.mem_map.mp hname
    have hfound := SortedMap.mem_entries_iff.mp hentry
    have hlength : (job.board.cards.map Card.name).length ≤ job.statuses.length := by
      rw [List.length_map, hs.length, Board.size]
    have hmem := (SortedMap.find?_ofList
      (by rw [List.map_fst_zip hlength]; exact nodup_name_cards hs)).mp hfound
    have hlisted := (List.of_mem_zip hmem).1
    rw [map_name_cards hs] at hlisted
    exact List.mem_map.mp hlisted
  kept task hmem hstatus := by
    obtain ⟨index, htask⟩ := List.mem_iff_getElem?.mp hmem
    obtain ⟨place, -, held, hfits⟩ :=
      hs.exists_place_of_agrees hl.fits rfl (statusOf?_eq_statusIn hs htask)
    rw [hstatus] at hfits
    cases place <;> cases hfits
  ready task hmem hready := by
    obtain ⟨index, htask⟩ := List.mem_iff_getElem?.mp hmem
    obtain ⟨place, hplace, held, hfits⟩ :=
      hs.exists_place_of_agrees hl.fits rfl (statusOf?_eq_statusIn hs htask)
    rw [← Bool.not_eq_true, waitsIn_iff_blocked hs htask hplace]
    rintro rfl
    cases hstatus : Board.statusIn job.persisted.statuses task <;> rw [hstatus] at hready hfits <;>
      simp_all [TaskStatus.wasReady, Place.fits]

-- What is kept of a job is enough to lay it out again as it stands.
theorem exists_rebuild : ∃ rebuilt,
    Board.rebuild job.id job.submission job.persisted.statuses = .ok rebuilt ∧
      job.board.SameTasks rebuilt ∧ rebuilt.placeOf = job.board.placeOf := by
  obtain ⟨base, drained, rebuilt, hstages⟩ :=
    Board.exists_stages hs.resolved (consistent_persisted hs hl)
  have hrebuild := Board.rebuild_eq_ok_iff.mpr ⟨base, drained, hstages⟩
  have hreflects := Board.reflects_of_rebuild hrebuild
  have hsame := hs.laysOut.sameTasks hreflects.laysOut hreflects.job
  refine ⟨rebuilt, hrebuild, hsame, hsame.placeOf_eq fun id place hplace => ?_⟩
  obtain ⟨task, htask⟩ := hs.laysOut.task_of_placeOf hplace
  obtain ⟨number, index⟩ := id
  cases Board.job_eq_of_placeOf hplace
  rw [← placeIn_eq_place hs hl htask hplace]
  exact hstages.placeOf htask

end Statuses

-- The workers of some tasks of a job are lost: the tasks wait to be run again, held back
-- if the job is, and nothing else has changed.
structure Loses (job : LiveJob) (tasks : List TaskId) (job' : LiveJob) : Prop where
  sound : job'.Sound
  same : job.board.SameTasks job'.board
  priority : job'.board.priority = job.board.priority
  submission : job'.submission = job.submission
  status : job'.status = job.status
  executions : job'.executions = job.executions
  all : job'.results.all = job.results.all
  precious : job'.results.precious = job.results.precious
  place : ∀ id, job'.board.placeOf id =
    if id ∈ tasks then .ok (if job.isHeld then .paused else .eligible) else job.board.placeOf id
  statusOf : ∀ id, id.job = job.id → job'.statusOf? id = (job.statusOf? id).map fun old =>
    if id ∈ tasks then (if job.isHeld then .paused else .pending) else old

-- The same tasks stand at the same places with the same counters, and the same is shown
-- of them and of their results.
structure Alike (job job' : LiveJob) : Prop where
  tasks : job.board.SameTasks job'.board
  places : job'.board.cards.map Card.place = job.board.cards.map Card.place
  snapshot : job'.board.snapshot = job.board.snapshot
  priority : job'.board.priority = job.board.priority
  submission : job'.submission = job.submission
  status : job'.status = job.status
  statuses : job'.statuses = job.statuses
  executions : job'.executions = job.executions
  all : job'.results.all = job.results.all
  precious : job'.results.precious = job.results.precious

namespace Loses

variable {job a b c : LiveJob} {tasks tasks' : List TaskId}

theorem refl (hs : job.Sound) : job.Loses [] job :=
  ⟨hs, .refl _, rfl, rfl, rfl, rfl, rfl, rfl, fun id => by simp, fun id _ => by simp⟩

theorem trans (h : a.Loses tasks b) (h' : b.Loses tasks' c) : a.Loses (tasks ++ tasks') c := by
  have hheld : b.isHeld = a.isHeld := by rw [isHeld, isHeld, h.status]
  refine ⟨h'.sound, h.same.trans h'.same, h'.priority.trans h.priority,
    h'.submission.trans h.submission, h'.status.trans h.status, h'.executions.trans h.executions,
    h'.all.trans h.all, h'.precious.trans h.precious, fun id => ?_, fun id hjob => ?_⟩
  · rw [h'.place, h.place, hheld]
    by_cases hmem : id ∈ tasks' <;> by_cases hmem' : id ∈ tasks <;> simp [hmem, hmem']
  · rw [h'.statusOf id (hjob.trans h.same.job.symm), h.statusOf id hjob, hheld, Option.map_map]
    congr 1
    funext old
    by_cases hmem : id ∈ tasks' <;> by_cases hmem' : id ∈ tasks <;> simp [hmem, hmem']

-- What is put back is not done.
theorem not_isComplete (hs : a.Sound) (h : a.Loses tasks b) (hopen : ¬a.board.isComplete) :
    ¬b.board.isComplete := by
  obtain ⟨id, place, hplace, hne⟩ := hs.board.not_isComplete_iff.mp hopen
  rw [h.sound.board.not_isComplete_iff]
  by_cases hmem : id ∈ tasks
  · refine ⟨id, _, (h.place id).trans (if_pos hmem), ?_⟩
    cases a.isHeld <;> simp
  · exact ⟨id, place, by rw [h.place, if_neg hmem, hplace], hne⟩

-- It does not matter by which way the workers of the same tasks are lost.
theorem alike (h : job.Loses tasks a) (h' : job.Loses tasks' b) (hmem : ∀ id, id ∈ tasks ↔ id ∈ tasks') :
    a.Alike b := by
  have hsame := h.same.symm.trans h'.same
  have hplace : b.board.placeOf = a.board.placeOf := by
    funext id
    rw [h.place, h'.place]
    simp only [hmem]
  have hstanding := hsame.standing_eq h.sound.board h'.sound.board h.sound.goesOn h'.sound.goesOn hplace
  have hplaces := congrArg (List.map Prod.fst) hstanding
  rw [List.map_map, List.map_map] at hplaces
  refine ⟨hsame, hplaces, hsame.snapshot_eq h.sound.board h'.sound.board h.sound.goesOn
    h'.sound.goesOn hplace, h'.priority.trans h.priority.symm, h'.submission.trans h.submission.symm,
    h'.status.trans h.status.symm, ?_, h'.executions.trans h.executions.symm, h'.all.trans h.all.symm,
    h'.precious.trans h.precious.symm⟩
  refine List.ext_getElem? fun index => ?_
  have hshown := h.statusOf ⟨job.id, index⟩ rfl
  have hshown' := h'.statusOf ⟨job.id, index⟩ rfl
  simp only [hmem] at hshown
  exact hshown'.trans hshown.symm

end Loses

-- A running task whose worker is lost is put back.
theorem loses_requeued {job : LiveJob} (hs : job.Sound) {task : TaskId}
    (h : job.board.placeOf task = .ok .running) : job.Loses [task] (job.requeued task .pending) := by
  obtain ⟨card, hcard, hrunning⟩ := Board.placeOf_eq_ok_iff.mp h
  have hmoved := moved_requeued hs hcard hrunning .pending
  have hbooks := job.keepsBooks_requeued task .pending
  have hresults : (job.requeued task .pending).results = job.results := by
    unfold requeued
    split <;> simp only [holdingBack, setStatus, shift]
  have hadmits : (if job.isHeld then Place.paused else .eligible).admits
      (if job.isHeld then .paused else .pending) := by
    cases job.isHeld <;> simp [Place.admits, TaskStatus.isTerminated]
  refine ⟨hmoved.sound hs h hadmits, hmoved.same.board, hbooks.priority, hbooks.submitted,
    job.requeued_status task .pending, hbooks.executions, by rw [hresults], by rw [hresults], fun id => ?_, fun id hjob => ?_⟩
  · rw [hmoved.place]
    simp
  · rw [hmoved.statusOf id hjob]
    simp

section Revive

variable {job : LiveJob} (hs : job.Sound) {rebuilt board : Board}
  (hrebuild : Board.rebuild job.id job.submission job.persisted.statuses = .ok rebuilt)
  (hback : rebuilt.running.toList.foldlM job.persisted.putBack rebuilt = .ok board)
include hs hrebuild hback

theorem map_name_restored : board.cards.map Card.name = job.board.cards.map Card.name :=
  (map_name_cards (PersistedJob.sound_restored hrebuild hback)).trans (map_name_cards hs).symm

theorem statuses_restored :
    (job.persisted.restored board).statuses = job.statuses.map job.persisted.backStatus := by
  rw [PersistedJob.statuses_restored_eq hrebuild hback, statuses_eq_map_statusIn hs, List.map_map]
  rfl

theorem executions_restored (hlength : job.executions.length = job.board.size) :
    (job.persisted.restored board).executions = job.executions := by
  have hused : (job.persisted.restored board).executions =
      (board.cards.map Card.name).map fun name => (job.persisted.executions.find? name).getD 0 := by
    rw [List.map_map]
    rfl
  rw [hused, map_name_restored hs hrebuild hback]
  refine SortedMap.map_find?_ofList_zip (nodup_name_cards hs) ?_ 0
  rw [List.length_map, hlength, Board.size]

variable {submission : Submission} (hcarries : job.CarriesOut submission)
include hcarries

theorem all_restored : (job.persisted.restored board).results.all = job.results.all := by
  refine SortedMap.ext_find? fun name => ?_
  refine (job.persisted.find?_foldl_addResult _ board.cards name).trans ?_
  rw [map_name_restored hs hrebuild hback, map_name_cards hs, hcarries.tasks]
  split
  · rename_i hmem
    exact Option.or_none
  · rename_i hmem
    have hnone := mt (hcarries.results.declared name) hmem
    rw [SortedMap.contains, Bool.not_eq_true, Option.isSome_eq_false_iff, Option.isNone_iff_eq_none] at hnone
    exact hnone.symm

omit hcarries in
-- In a paused job whatever could start is held back already.
theorem not_awaitsStart_restored (hl : job.Legible) (hpaused : job.status = .paused) :
    ∀ status ∈ (job.persisted.restored board).statuses, awaitsStart status = false := by
  rw [statuses_restored hs hrebuild hback, List.forall_mem_map]
  intro status hstatus
  have hwaiting : job.persisted.waiting = .paused := if_pos hpaused
  have hkept := hl.held hpaused status hstatus
  rw [PersistedJob.backStatus, hwaiting]
  split
  · rfl
  · exact hkept

end Revive

section Loses

variable {job : LiveJob} (hs : job.Sound) {submission : Submission} (hcarries : job.CarriesOut submission)
include hs hcarries

-- A legible job comes back from what is kept of it as if it had lost all its workers.
theorem Legible.exists_revive (hl : job.Legible) :
    ∃ revived, job.persisted.revive = .ok revived ∧ job.Loses job.board.running.toList revived := by
  obtain ⟨rebuilt, hrebuild, hsame, hplace⟩ := exists_rebuild hs hl
  have hrebuilt := Board.rebuilt_of_rebuild hrebuild
  have hrunning : rebuilt.running.toList = job.board.running.toList :=
    Board.toList_partition_eq hs.board hrebuilt.sound hplace (show Place.running.isPartition from rfl)
  obtain ⟨board, hback⟩ := job.persisted.exists_foldlM_putBack hrebuilt.sound
    (SortedSet.nodup_toList rebuilt.running) fun _ => hrebuilt.sound.partitioned.mem_running_iff.mp
  obtain ⟨-, hsame', -, hplace'⟩ := PersistedJob.foldlM_putBack_eq_ok hrebuilt.sound hback
  have hrevive : job.persisted.revive = .ok (job.persisted.restored board) := by
    refine PersistedJob.revive_eq_ok_iff.mpr ⟨rebuilt, board, hrebuild, hback, ?_⟩
    split
    · rename_i hpaused
      exact (restate_of_none (not_awaitsStart_restored hs hrebuild hback hl hpaused) .paused).symm
    · rfl
  have hsound := PersistedJob.sound_restored hrebuild hback
  have hall := all_restored hs hrebuild hback hcarries
  have hrevived := PersistedJob.carriesOut_of_revive hrevive
  have hpriority : board.priority = job.board.priority := by
    rw [PersistedJob.priority_foldlM_putBack hback, hrebuilt.priority, hcarries.submitted]
  refine ⟨_, hrevive, hsound, hsame.trans hsame', hpriority, rfl, rfl, ?_, hall, ?_, fun id => ?_,
    fun id hjob => ?_⟩
  · refine executions_restored hs hrebuild hback ?_
    rw [hcarries.executions, ← hcarries.tasks, hs.laysOut.size]
  · refine SortedMap.ext_find? fun name => ?_
    rw [hrevived.results.precious, hcarries.results.precious, hall]
    change (if name ∈ job.submission.preciousTasks then _ else none) = _
    rw [hcarries.submitted]
    rfl
  · refine (hplace' id).trans ?_
    rw [hrunning, hplace, PersistedJob.backFrom, if_pos rfl]
    simp only [isHeld_iff]
    rfl
  · have hshown : (job.persisted.restored board).statusOf? id =
        (job.statusOf? id).map job.persisted.backStatus := by
      rw [statusOf?, statuses_restored hs hrebuild hback, List.getElem?_map]
      rfl
    rw [hshown]
    cases hold : job.statusOf? id with
    | none => rfl
    | some old =>
        have hmem : id ∈ job.board.running.toList ↔ old = .running := by
          rw [hs.board.partitioned.mem_running_iff, ← hl.statusOf?_eq_running_iff hs hjob, hold,
            Option.some.injEq]
        rw [Option.map_some, Option.map_some, PersistedJob.backStatus, PersistedJob.waiting]
        simp only [hmem, isHeld_iff]
        rfl

end Loses

theorem exists_revive {job : LiveJob} (hs : job.Sound) (hc : job.Coherent) {submission : Submission}
    (hcarries : job.CarriesOut submission) :
    ∃ revived, job.persisted.revive = .ok revived ∧ job.Loses job.board.running.toList revived :=
  (hc.legible hs).exists_revive hs hcarries

end JobScheduler.LiveJob
