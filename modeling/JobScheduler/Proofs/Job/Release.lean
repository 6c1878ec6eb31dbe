import JobScheduler.Proofs.Job.Record

namespace JobScheduler

-- If the tasks that have terminated are those that `done` holds of, the task of this name
-- has, and so have all that were to come after it. Nobody waits for its result any more.
def Submission.Spent (submission : Submission) (done : String → Prop) (name : String) : Prop :=
  done name ∧ ∀ other ∈ submission.tasks, name ∈ other.after → done other.name

namespace Submission

variable {submission : Submission} {done done' : String → Prop} {name : String}

theorem spent_congr {submission' : Submission} (htasks : submission'.tasks = submission.tasks)
    (h : ∀ name, done' name ↔ done name) : submission'.Spent done' name ↔ submission.Spent done name := by
  simp only [Spent, htasks, h]

section Termination

variable {task : Task} (htask : task ∈ submission.tasks) (hopen : ¬done task.name)
include htask hopen

-- While a task has not terminated, neither its own result nor those of the tasks before it
-- are given up.
theorem not_spent_of_near (hnear : name = task.name ∨ name ∈ task.after) : ¬submission.Spent done name := by
  rintro ⟨hdone, hlater⟩
  rcases hnear with rfl | hmem
  · exact hopen hdone
  · exact hopen (hlater task htask hmem)

omit hopen in
-- The termination of a task bears on its own result and on those of the tasks before it.
theorem spent_terminated_iff (hnodup : (submission.tasks.map (·.name)).Nodup)
    (hdone : ∀ name, done' name ↔ done name ∨ name = task.name) :
    submission.Spent done' name ↔ submission.Spent done name ∨
      (name = task.name ∨ name ∈ task.after) ∧ submission.Spent done' name := by
  constructor
  · intro hspent
    by_cases hnear : name = task.name ∨ name ∈ task.after
    · exact .inr ⟨hnear, hspent⟩
    · obtain ⟨hself, hnone⟩ := not_or.mp hnear
      refine .inl ⟨((hdone name).mp hspent.1).resolve_right hself, fun other hother hmem => ?_⟩
      refine ((hdone other.name).mp (hspent.2 other hother hmem)).resolve_right fun hname => hnone ?_
      rwa [← List.inj_on_of_nodup_map hnodup hother htask hname]
  · rintro (⟨hself, hlater⟩ | ⟨-, hspent⟩)
    · exact ⟨(hdone name).mpr (.inl hself), fun other hother hmem =>
        (hdone other.name).mpr (.inl (hlater other hother hmem))⟩
    · exact hspent

end Termination

end Submission

-- The task of this name is shown as one that has terminated.
def Summary.HasDone (summary : Summary) (name : String) : Prop :=
  (summary.tasks.find? name).any (·.isTerminated)

theorem JobResult.isReleased_release (results : JobResult) (task name : String) :
    (results.release task).isReleased name ↔ results.isReleased name ∨ name = task := by
  rw [isReleased, release, SortedSet.member_add, or_comm]
  exact Iff.rfl

namespace LiveJob

-- The task of this name has terminated.
def HasDone (job : LiveJob) (name : String) : Prop :=
  ∃ card ∈ job.board.cards, card.name = name ∧ card.place = .done

instance (job : LiveJob) (name : String) : Decidable (job.HasDone name) :=
  inferInstanceAs (Decidable (∃ card ∈ job.board.cards, card.name = name ∧ card.place = .done))

-- Nobody waits any more for the result of the task of this name.
def Spent (job : LiveJob) : String → Prop := job.submission.Spent job.HasDone

-- The results marked as released are those that nobody waits for any more, apart from some
-- whose marks are lost.
structure Marks (job : LiveJob) (lost : String → Prop) : Prop where
  released : ∀ name, job.results.isReleased name ↔ job.Spent name ∧ ¬lost name
  lost : ∀ name, lost name → job.Spent name

section Done

variable {job : LiveJob} (hs : job.Sound)
include hs

theorem hasDone_iff {card : Card} (hcard : card ∈ job.board.cards) :
    job.HasDone card.name ↔ card.place = .done := by
  constructor
  · rintro ⟨other, hother, hname, hdone⟩
    rwa [← List.inj_on_of_nodup_map (nodup_name_cards hs) hother hcard hname]
  · exact fun hdone => ⟨card, hcard, rfl, hdone⟩

-- The names that tell of a termination are those that were submitted.
theorem hasDone_iff_placeOf {index : Nat} {task : Submission.Task}
    (htask : job.submission.tasks[index]? = some task) :
    job.HasDone task.name ↔ job.board.placeOf ⟨job.id, index⟩ = .ok .done := by
  obtain ⟨card, hcard, hplanned⟩ := hs.laysOut.card_of_task htask
  have hname : card.name = task.name := by
    rw [Card.name, hplanned]
    rfl
  rw [← hname, hasDone_iff hs (Board.Wired.mem_of_card hcard), LiveJob.id, Board.placeOf_of_card hcard,
    Except.ok.injEq]

theorem exists_task_of_hasDone {name : String} (h : job.HasDone name) :
    ∃ (index : Nat) (task : Submission.Task),
      job.submission.tasks[index]? = some task ∧ task.name = name := by
  obtain ⟨card, hcard, rfl, -⟩ := h
  obtain ⟨task, htask, hname⟩ := hs.laysOut.task_of_card (hs.board.wired.card_id_of_mem hcard)
  exact ⟨_, task, htask, hname.symm⟩

-- The counter of a card tells whether anybody waits for its result.
theorem spent_iff {id : TaskId} {card : Card} (hcard : job.board.card id = .ok card) :
    job.Spent card.name ↔ card.place = .done ∧ card.remaining = 0 := by
  obtain ⟨task, htask, hname⟩ := hs.laysOut.task_of_card hcard
  have hid : id = ⟨job.board.job, id.index⟩ := by
    rw [← (Board.card_eq_ok_iff.mp hcard).1]
  have hagree (index : Nat) (other : Submission.Task) (hother : job.submission.tasks[index]? = some other) :
      job.board.unfinished ⟨job.board.job, index⟩ = !decide (job.HasDone other.name) := by
    obtain ⟨otherCard, hotherCard, -⟩ := hs.laysOut.card_of_task hother
    have hplace := Board.placeOf_of_card hotherCard
    have hdone := hasDone_iff_placeOf hs hother
    rw [LiveJob.id, hplace, Except.ok.injEq] at hdone
    rw [Board.unfinished_of_placeOf hplace, Bool.eq_iff_iff]
    simp [hdone]
  have hcount := @Board.LaysOut.countP_children _ _ hs.laysOut job.board.unfinished
    (fun name => !decide (job.HasDone name)) hagree _ _ _ htask (hid ▸ hcard)
  have hremaining := (hs.board.counted hs.goesOn).remaining id card hcard
  rw [List.count_nil, Nat.add_zero, hcount] at hremaining
  rw [Spent, Submission.Spent, hasDone_iff hs (Board.Wired.mem_of_card hcard), hremaining, hname,
    List.sum_eq_zero_iff_forall_eq_nat, List.forall_mem_map]
  refine and_congr_right fun _ => ⟨fun hall other hother => ?_, fun hnone other hother hafter => ?_⟩
  · obtain ⟨hmem, hopen⟩ := List.mem_filter.mp hother
    refine List.count_eq_zero.mpr fun hafter => ?_
    simp [hall other hmem hafter] at hopen
  · by_contra hopen
    have hmem : other ∈ job.submission.tasks.filter fun other => !decide (job.HasDone other.name) :=
      List.mem_filter.mpr ⟨hother, by simpa using hopen⟩
    exact List.count_eq_zero.mp (hnone other hmem) hafter

end Done

-- Terminations apart, events leave the marks alone.
section Steady

variable {job job' : LiveJob}

theorem hasDone_congr (hs : job.Sound) (hs' : job'.Sound) (hid : job'.id = job.id)
    (htasks : job'.submission.tasks = job.submission.tasks)
    (hdone : ∀ id, job'.board.placeOf id = .ok .done ↔ job.board.placeOf id = .ok .done) (name : String) :
    job'.HasDone name ↔ job.HasDone name := by
  have hdeclared {index : Nat} {task : Submission.Task} (htask : job.submission.tasks[index]? = some task) :
      job'.HasDone task.name ↔ job.HasDone task.name := by
    rw [hasDone_iff_placeOf hs htask, hasDone_iff_placeOf hs' (htasks ▸ htask), hid, hdone]
  constructor <;> intro h
  · obtain ⟨index, task, htask, rfl⟩ := exists_task_of_hasDone hs' h
    exact (hdeclared (htasks ▸ htask)).mp h
  · obtain ⟨index, task, htask, rfl⟩ := exists_task_of_hasDone hs h
    exact (hdeclared htask).mpr h

theorem Advances.hasDone_iff (hs : job.Sound) (h : job.Advances job')
    (hopen : ∀ id, job'.board.placeOf id = .ok .done → job.board.placeOf id = .ok .done) (name : String) :
    job'.HasDone name ↔ job.HasDone name :=
  hasDone_congr hs h.sound h.id h.tasks (fun id => ⟨hopen id, h.placeOf_done hs⟩) name

theorem Marks.keep {lost : String → Prop} (hm : job.Marks lost) (hs : job.Sound) (h : job.Advances job')
    (hopen : ∀ id, job'.board.placeOf id = .ok .done → job.board.placeOf id = .ok .done)
    (hreleased : job'.results.released = job.results.released) : job'.Marks lost := by
  have hspent (name : String) : job'.Spent name ↔ job.Spent name :=
    Submission.spent_congr h.tasks (h.hasDone_iff hs hopen)
  constructor
  · intro name
    rw [JobResult.isReleased, hreleased, hspent]
    exact hm.released name
  · exact fun name hname => (hspent name).mpr (hm.lost name hname)

theorem Moved.placeOf_done {held : Bool} {task : TaskId} {target : Place} {status : TaskStatus}
    {promoted : List TaskId} (h : Moved job job' held task target status promoted) (htarget : target ≠ .done)
    (id : TaskId) (hdone : job'.board.placeOf id = .ok .done) : job.board.placeOf id = .ok .done := by
  rw [h.place] at hdone
  split at hdone
  · exact absurd (Except.ok.inj hdone) htarget
  · split at hdone
    · cases held <;> cases hdone
    · exact hdone

theorem requeued_results (task : TaskId) (status : TaskStatus) :
    (job.requeued task status).results = job.results := by
  unfold requeued
  split <;> rfl

theorem heldInError_released (task : TaskId) (card : Card) (result : TaskResult) :
    (job.heldInError task card result).results.released = job.results.released := by
  unfold heldInError
  dsimp only
  split <;> rfl

theorem restarted_results (task : TaskId) : (job.restarted task).results = job.results := by
  unfold restarted
  split <;> rfl

theorem errorCleared_results : job.errorCleared.results = job.results := by
  obtain ⟨status, heq, -⟩ := job.errorCleared_eq
  rw [heq]

theorem allHeldBack_results (tasks : List TaskId) : (job.allHeldBack tasks).results = job.results := by
  induction tasks generalizing job with
  | nil => rfl
  | cons first rest ih => exact ih

end Steady

section Terminated

variable {job job' : LiveJob}

-- Some task of this name stands in the list, and its children have all terminated.
def Releases (job : LiveJob) (tasks : List TaskId) (name : String) : Prop :=
  ∃ id ∈ tasks, ∃ card, job.board.card id = .ok card ∧ card.remaining = 0 ∧ card.name = name

theorem isReleased_releasing (task : TaskId) (name : String) :
    (job.releasing task).results.isReleased name ↔
      job.results.isReleased name ∨ job.Releases [task] name := by
  unfold releasing
  cases hcard : job.board.card task with
  | error fault => simp [Releases, hcard]
  | ok card =>
      have hone : job.Releases [task] name ↔ card.remaining = 0 ∧ card.name = name := by
        simp [Releases, hcard]
      by_cases hzero : card.remaining = 0
      · simp only [hone, hzero, if_true, JobResult.isReleased_release, true_and]
        exact or_congr_right eq_comm
      · simp [hone, hzero]

theorem isReleased_foldl_releasing (tasks : List TaskId) (name : String) :
    (tasks.foldl releasing job).results.isReleased name ↔
      job.results.isReleased name ∨ job.Releases tasks name := by
  induction tasks generalizing job with
  | nil => simp [Releases]
  | cons first rest ih =>
      obtain ⟨results, hfirst⟩ := job.releasing_eq first
      have hsame : (job.releasing first).Releases rest name ↔ job.Releases rest name := by
        rw [hfirst]
        exact Iff.rfl
      rw [List.foldl_cons, ih, isReleased_releasing, hsame, or_assoc]
      simp [Releases]

theorem isReleased_terminated (task : TaskId) (parents : List TaskId) (status : TaskStatus)
    (ended : Board × List TaskId) (name : String) :
    (job.terminated task parents status ended).results.isReleased name ↔
      job.results.isReleased name ∨
        (job.terminated task parents status ended).Releases (task :: parents) name := by
  have hsettled (base : LiveJob) (hresults : base.results = job.results) :
      ((task :: parents).foldl releasing base).results.isReleased name ↔
        job.results.isReleased name ∨
          ((task :: parents).foldl releasing base).Releases (task :: parents) name := by
    obtain ⟨results, heq⟩ := base.foldl_releasing_eq (task :: parents)
    have hsame : ((task :: parents).foldl releasing base).Releases (task :: parents) name ↔
        base.Releases (task :: parents) name := by
      rw [heq]
      exact Iff.rfl
    rw [isReleased_foldl_releasing, hsame, hresults]
  unfold terminated settled
  split
  · exact hsettled _ (allHeldBack_results _)
  · exact hsettled _ rfl

-- Whether a job is still in error is none of the business of its results.
theorem isReleased_errorCleared {results : JobResult} {tasks : List TaskId}
    (h : ∀ name, job.results.isReleased name ↔ results.isReleased name ∨ job.Releases tasks name)
    (name : String) : job.errorCleared.results.isReleased name ↔
      results.isReleased name ∨ job.errorCleared.Releases tasks name := by
  obtain ⟨status, heq, -⟩ := job.errorCleared_eq
  rw [heq]
  exact h name

theorem Moved.errorCleared {held : Bool} {task : TaskId} {target : Place} {status : TaskStatus}
    {promoted : List TaskId} (h : Moved job job' held task target status promoted) :
    Moved job job'.errorCleared held task target status promoted := by
  obtain ⟨cleared, heq, -⟩ := job'.errorCleared_eq
  exact h.congr ⟨rfl, rfl, rfl⟩ (by simp [heq])

variable {lost : String → Prop} (hm : job.Marks lost) (hs : job.Sound) (hs' : job'.Sound) {task : TaskId}
  {card : Card} (hcard : job.board.card task = .ok card) (hpartition : card.place.isPartition)
  {held : Bool} {status : TaskStatus} {promoted : List TaskId}
  (hmoved : Moved job job' held task .done status promoted)
include hs hs' hcard hpartition hmoved

omit hs hs' hcard hpartition in
theorem Moved.placeOf_eq_done_iff (id : TaskId) :
    job'.board.placeOf id = .ok .done ↔ job.board.placeOf id = .ok .done ∨ id = task := by
  rw [hmoved.place]
  by_cases htask : id = task
  · simp [htask]
  · by_cases hnew : id ∈ promoted
    · have hblocked := hmoved.blocked id hnew
      cases held <;> simp [htask, hnew, hblocked]
    · simp [htask, hnew]

omit hpartition in
theorem Moved.hasDone_terminated_iff (name : String) :
    job'.HasDone name ↔ job.HasDone name ∨ name = card.name := by
  have htasks := hmoved.same.tasks
  have hid := hmoved.same.id
  have hplaces := hmoved.placeOf_eq_done_iff
  obtain ⟨own, hown, hname⟩ := hs.laysOut.task_of_card hcard
  have htask : task = ⟨job.id, task.index⟩ := by
    rw [LiveJob.id, ← (Board.card_eq_ok_iff.mp hcard).1]
  constructor
  · intro hdone
    obtain ⟨index, other, hother, rfl⟩ := exists_task_of_hasDone hs' hdone
    have hplace := (hasDone_iff_placeOf hs' hother).mp hdone
    rw [hid, hplaces] at hplace
    refine hplace.imp (hasDone_iff_placeOf hs (htasks ▸ hother)).mpr fun heq => ?_
    rw [htasks, show index = task.index from congrArg TaskId.index heq, hown, Option.some.injEq] at hother
    rw [hname, hother]
  · rintro (hdone | rfl)
    · obtain ⟨index, other, hother, rfl⟩ := exists_task_of_hasDone hs hdone
      refine (hasDone_iff_placeOf hs' (htasks ▸ hother)).mpr ?_
      rw [hid, hplaces]
      exact .inl ((hasDone_iff_placeOf hs hother).mp hdone)
    · rw [hname]
      refine (hasDone_iff_placeOf hs' (htasks ▸ hown)).mpr ?_
      rw [hid, hplaces]
      exact .inr htask.symm

-- What a termination looks at are the task itself and those before it, and these have all
-- terminated then.
theorem Moved.releases_iff (name : String) {own : Submission.Task}
    (hown : job.submission.tasks[task.index]? = some own) :
    job'.Releases (task :: card.parents) name ↔
      (name = own.name ∨ name ∈ own.after) ∧ job'.Spent name := by
  have htask : task = ⟨job.board.job, task.index⟩ := by
    rw [← (Board.card_eq_ok_iff.mp hcard).1]
  have hplaces := hmoved.placeOf_eq_done_iff
  have hparents (parent : TaskId) : parent ∈ card.parents ↔ _ :=
    hs.laysOut.mem_parents_iff hown (htask ▸ hcard)
  have hdone (id : TaskId) (hid : id ∈ task :: card.parents) : job'.board.placeOf id = .ok .done := by
    rcases List.mem_cons.mp hid with rfl | hid
    · exact hmoved.placeOf_task
    · refine (hplaces id).mpr (.inl (hs.board.parents_done hs.goesOn hcard ?_ hid))
      exact Place.ne_blocked_of_isPartition hpartition
  have hnear (id : TaskId) (other : Card) (hother : job'.board.card id = .ok other) :
      id ∈ task :: card.parents ↔ other.name = own.name ∨ other.name ∈ own.after := by
    obtain ⟨declared, hdeclared, hname⟩ := hs'.laysOut.task_of_card hother
    rw [hmoved.same.tasks] at hdeclared
    have hjob : id.job = job.board.job := (Board.card_eq_ok_iff.mp hother).1.trans hmoved.same.id
    rw [List.mem_cons, hparents, hname]
    refine or_congr ?_ ?_
    · constructor
      · rintro rfl
        rw [hown, Option.some.injEq] at hdeclared
        rw [hdeclared]
      · intro hsame
        refine TaskId.eq_of_index_eq (hjob.trans (Board.card_eq_ok_iff.mp hcard).1.symm) ?_
        exact Submission.eq_of_name_eq hs.resolved hdeclared hown hsame
    · constructor
      · rintro ⟨named, hnamed, -, hmem⟩
        rw [hdeclared, Option.some.injEq] at hnamed
        rwa [hnamed]
      · exact fun hmem => ⟨declared, hdeclared, hjob, hmem⟩
  constructor
  · rintro ⟨id, hid, other, hother, hzero, rfl⟩
    have hplace := hdone id hid
    rw [Board.placeOf_of_card hother, Except.ok.injEq] at hplace
    exact ⟨(hnear id other hother).mp hid, (spent_iff hs' hother).mpr ⟨hplace, hzero⟩⟩
  · rintro ⟨hname, hspent⟩
    obtain ⟨other, hother, rfl, -⟩ := hspent.1
    have hotherCard := hs'.board.wired.card_id_of_mem hother
    exact ⟨other.id, (hnear other.id other hotherCard).mpr hname, other, hotherCard,
      ((spent_iff hs' hotherCard).mp hspent).2, rfl⟩

include hm

-- The termination of a task marks all results that nobody waits for any more since then.
theorem Marks.terminated (hreleased : ∀ name, job'.results.isReleased name ↔
      job.results.isReleased name ∨ job'.Releases (task :: card.parents) name) : job'.Marks lost := by
  obtain ⟨own, hown, hname⟩ := hs.laysOut.task_of_card hcard
  have hmem := List.mem_of_getElem? hown
  have hopen : ¬job.HasDone own.name := by
    rw [← hname, hasDone_iff hs (Board.Wired.mem_of_card hcard)]
    exact Place.ne_done_of_isPartition hpartition
  have hdone (name : String) : job'.HasDone name ↔ job.HasDone name ∨ name = own.name := by
    rw [hmoved.hasDone_terminated_iff hs hs' hcard, hname]
  have hspent (name : String) : job'.Spent name ↔ job.Spent name ∨
      (name = own.name ∨ name ∈ own.after) ∧ job'.Spent name := by
    have hlater : job'.Spent name ↔ job.submission.Spent job'.HasDone name :=
      Submission.spent_congr hmoved.same.tasks fun _ => Iff.rfl
    rw [hlater]
    exact Submission.spent_terminated_iff hmem (Submission.nodup_names_of_resolve hs.resolved) hdone
  have hnot (name : String) (hnear : name = own.name ∨ name ∈ own.after) : ¬lost name := fun hlost =>
    Submission.not_spent_of_near hmem hopen hnear (hm.lost name hlost)
  constructor
  · intro name
    rw [hreleased, hm.released, hmoved.releases_iff hs hs' hcard hpartition name hown]
    constructor
    · rintro (⟨hbefore, hkept⟩ | hnew)
      · exact ⟨(hspent name).mpr (.inl hbefore), hkept⟩
      · exact ⟨hnew.2, hnot name hnew.1⟩
    · rintro ⟨hafter, hkept⟩
      exact ((hspent name).mp hafter).imp_left fun hbefore => ⟨hbefore, hkept⟩
  · exact fun name hlost => (hspent name).mpr (.inl (hm.lost name hlost))

end Terminated

section Marks

variable {job job' : LiveJob} {lost : String → Prop} (hm : job.Marks lost) (hs : job.Sound)
include hm hs

-- Only a termination makes a result one that nobody waits for.
theorem Outcome.marks {event : Event} {fate : Fate} (h : job.Outcome event fate job')
    (hadvances : job.Advances job') : job'.Marks lost := by
  have hconsumed (task : TaskId) : (job.consumeExecution task).Sound :=
    (advances_books hs job.results (job.consumeExecution task).executions).sound
  have hs' := hadvances.sound
  cases h with
  | untouched | dropped => exact hm
  | @retried task _ _ hcard hplace =>
      have hmoved := moved_requeued (hconsumed task) hcard hplace .waitingOnError
      exact hm.keep hs hadvances (hmoved.placeOf_done (by split <;> simp))
        (congrArg JobResult.released (requeued_results _ _))
  | @heldInError task result _ hcard hplace =>
      have hmoved := moved_heldInError (hconsumed task) hcard hplace result
      exact hm.keep hs hadvances (hmoved.placeOf_done (by simp)) (heldInError_released _ _ _)
  | @canceled task result _ _ hcard hplace hended | @concluded task result _ _ hcard hplace hended =>
      exact hm.terminated hs hs' hcard (by rw [hplace]; rfl) (moved_concluded hs hcard hplace hended result)
        (isReleased_terminated _ _ _ _)
  | lost hcard hplace =>
      have hmoved := moved_requeued hs hcard hplace .pending
      exact hm.keep hs hadvances (hmoved.placeOf_done (by split <;> simp))
        (congrArg JobResult.released (requeued_results _ _))
  | held =>
      exact hm.keep hs hadvances (fun id => (placeOf_restate_of_fixed awaitsStart .paused (by simp) id).mp)
        (congrArg JobResult.released (restate_results _ _ _))
  | resumed =>
      exact hm.keep hs hadvances (fun id => (placeOf_restate_of_fixed (· == .paused) .pending (by simp) id).mp)
        (congrArg JobResult.released (restate_results _ _ _))
  | @killed task card ended hcard hpartition hended =>
      have hadded : (job.addingResult card (.killed task)).Sound := (advances_books hs _ job.executions).sound
      have hmoved := (moved_terminated hadded hcard hpartition hended card.parents .killed).1
      refine hm.terminated hs hs' hcard hpartition (hmoved.errorCleared.congr ⟨rfl, rfl, rfl⟩ ⟨rfl, rfl, rfl⟩) ?_
      exact isReleased_errorCleared (isReleased_terminated _ _ _ _)
  | restarted hjob herror =>
      have hmoved := moved_restarted hs hjob herror
      refine hm.keep hs hadvances (fun id hdone => hmoved.placeOf_done (by split <;> simp) id ?_) ?_
      · rwa [errorCleared_board] at hdone
      · rw [errorCleared_results, restarted_results]
  | @finished task card ended hcard hplace hended =>
      have hpartition : card.place.isPartition := by
        rw [hplace]
        rfl
      have hmoved := (moved_terminated hs hcard hpartition hended card.parents .faulty).1
      exact hm.terminated hs hs' hcard hpartition hmoved.errorCleared
        (isReleased_errorCleared (isReleased_terminated _ _ _ _))
  | reprioritized => exact hm.keep hs hadvances (fun _ hdone => hdone) rfl

theorem Marks.served (accepts : Card → Bool) (budget : Nat) :
    (job.served (Selection.among accepts budget job.board.eligibleCards)).Marks lost := by
  refine hm.keep hs (advances_served hs accepts budget) (fun id hdone => ?_)
    (congrArg JobResult.released (undisturbed_served job _).results)
  rw [placeOf_served hs] at hdone
  split at hdone
  · cases hdone
  · exact hdone

end Marks

theorem marks_of_new {id : JobId} {submission : Submission} {job : LiveJob}
    (h : LiveJob.new id submission = .ok job) : job.Marks fun _ => False := by
  obtain ⟨tasks, board, -, hbuild, rfl⟩ := new_eq_ok h
  have hnone (name : String) : ¬(ofBoard submission board).Spent name := by
    rintro ⟨⟨card, hcard, -, hdone⟩, -⟩
    have hplace := Board.placeOf_of_card ((Board.wired_of_build hbuild).card_id_of_mem hcard)
    rcases Board.not_done_of_build hbuild hplace with heq | heq <;> rw [hdone] at heq <;> cases heq
  refine ⟨fun name => ?_, fun _ hlost => hlost.elim⟩
  simp only [hnone, false_and, iff_false]
  exact Bool.false_ne_true

section Closing

variable {job : LiveJob} (hs : job.Sound) (status : JobStatus)
include hs

-- The record shows where a task has got to, or that it was given up.
theorem exists_shown_closing {index : Nat} {task : Submission.Task}
    (htask : job.submission.tasks[index]? = some task) :
    ∃ old, job.statusOf? ⟨job.id, index⟩ = some old ∧
      (job.closing status).tasks.find? task.name =
        some (if old.isTerminated then old else .aborted) := by
  obtain ⟨card, hcard, -⟩ := hs.laysOut.card_of_task htask
  obtain ⟨old, hold, -⟩ := hs.agrees _ _ (Board.placeOf_of_card hcard)
  have hkeys := List.map_fst_zip (Nat.le_of_eq (length_abortUnfinished hs))
  refine ⟨old, hold, ?_⟩
  rw [tasks_closing hs,
    SortedMap.find?_ofList (hkeys.symm ▸ Submission.nodup_names_of_resolve hs.resolved)]
  refine List.mem_of_getElem? (i := index) (List.getElem?_zip_eq_some.mpr ⟨?_, ?_⟩)
  · rw [List.getElem?_map, htask]
    rfl
  · rw [abortUnfinished, List.getElem?_map, show job.statuses[index]? = some old from hold]
    rfl

theorem hasDone_closing (name : String) : (job.closing status).HasDone name ↔ job.HasDone name := by
  have hdeclared {index : Nat} {task : Submission.Task} (htask : job.submission.tasks[index]? = some task) :
      (job.closing status).HasDone task.name ↔ job.HasDone task.name := by
    obtain ⟨old, hold, hshown⟩ := exists_shown_closing hs status htask
    obtain ⟨place, hplace, hadmits⟩ := hs.exists_place rfl hold
    rw [hasDone_iff_placeOf hs htask, hplace, Except.ok.injEq, ← hadmits.1, Summary.HasDone, hshown]
    cases old <;> decide
  constructor <;> intro hdone
  · have hlisted : name ∈ job.submission.tasks.map (·.name) := by
      rw [← closing_tasks_contains hs status, SortedMap.contains]
      exact Option.isSome_of_any hdone
    obtain ⟨task, htask, rfl⟩ := List.mem_map.mp hlisted
    obtain ⟨index, hindex⟩ := List.mem_iff_getElem?.mp htask
    exact (hdeclared hindex).mp hdone
  · obtain ⟨index, task, htask, rfl⟩ := exists_task_of_hasDone hs hdone
    exact (hdeclared htask).mpr hdone

-- What is torn down with a job counts as waiting still.
theorem Marks.closing {lost : String → Prop} (hm : job.Marks lost) (name : String) :
    (job.closing status).results.isReleased name ↔
      job.submission.Spent (job.closing status).HasDone name ∧ ¬lost name := by
  obtain ⟨all, precious, exceptions, heq⟩ := job.results.exists_reconcile_eq job.declared
  rw [Submission.spent_congr rfl (hasDone_closing hs status), JobResult.isReleased, results_closing,
    JobResult.mark, heq]
  exact hm.released name

end Closing

end LiveJob

-- A revived job has its results again, but no marks.
theorem PersistedJob.marks_of_revive {persisted : PersistedJob} {job : LiveJob}
    (h : persisted.revive = .ok job) : job.results.released = SortedMap.empty ∧ job.Marks job.Spent := by
  have hnone : job.results.released = SortedMap.empty := by
    rw [results_of_revive h, released_foldl_addResult]
    rfl
  refine ⟨hnone, fun name => ?_, fun _ hlost => hlost⟩
  rw [JobResult.isReleased, hnone, and_not_self_iff, iff_false]
  exact Bool.false_ne_true

end JobScheduler
