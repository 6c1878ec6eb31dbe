import JobScheduler.Proofs.Desk.Outcomes
import JobScheduler.Proofs.Desk.Served
import JobScheduler.Proofs.Job.Sound

namespace JobScheduler.LiveJob

-- A job of which nothing waits for a client and every task that is not done has
-- executions left. A job that ends with its first failure has seen none.
structure OnCourse (job : LiveJob) (submission : Submission) : Prop where
  submitted : job.submission = submission
  status : job.status ≠ .paused
  unpaused : ∀ task, job.board.placeOf task ≠ .ok .paused
  executions : job.executions.length = submission.tasks.length
  left : ∀ task card, job.board.card task = .ok card → card.place ≠ .done →
    job.executionsUsed task < card.task.maxExecutions
  clean : submission.cancelOnError → .faulty ∉ job.statuses

-- How often the tasks of a job may still be executed, all together.
def executionsLeft (job : LiveJob) : Nat :=
  (List.zipWith (fun (task : Submission.Task) used => task.maxExecutions - used)
    job.submission.tasks job.executions).sum

theorem Sound.sizes {job : LiveJob} (hs : job.Sound) {task : TaskId} {card : Card}
    (hcard : job.board.card task = .ok card) :
    ∃ declared, job.submission.tasks[task.index]? = some declared ∧
      card.resources = declared.resources ∧ card.task.maxExecutions = declared.maxExecutions := by
  obtain ⟨declared, hdeclared, hplanned⟩ := hs.planned (Board.Wired.mem_of_card hcard)
  rw [hs.board.wired.id_of_card hcard] at hdeclared
  obtain ⟨hresources, hexecutions, -⟩ := (Submission.checkTasks_eq_ok_iff.mp
    (Submission.checkTasks_of_resolve hs.resolved).1).1 declared (List.mem_of_getElem? hdeclared)
  refine ⟨declared, hdeclared, ?_, ?_⟩
  · rw [Card.resources, hplanned]
    exact Nat.max_eq_left (Nat.pos_of_ne_zero hresources)
  · rw [hplanned]
    exact Nat.max_eq_left (Nat.pos_of_ne_zero hexecutions)

theorem sum_zipWith_modify {tasks : List Submission.Task} {used : List Nat} {index count : Nat}
    {task : Submission.Task} (htask : tasks[index]? = some task) (hused : used[index]? = some count)
    (hlt : count < task.maxExecutions) :
    (List.zipWith (fun (task : Submission.Task) used => task.maxExecutions - used) tasks
        (used.modify index (· + 1))).sum + 1 =
      (List.zipWith (fun (task : Submission.Task) used => task.maxExecutions - used) tasks used).sum := by
  induction tasks generalizing used index with
  | nil => cases htask
  | cons first rest ih =>
      cases used with
      | nil => cases hused
      | cons head later =>
          cases index with
          | zero =>
              cases htask
              cases hused
              simp only [List.modify_zero_cons, List.zipWith_cons_cons, List.sum_cons]
              omega
          | succ index =>
              have hrest := ih (by simpa using htask) (by simpa using hused)
              simp only [List.modify_succ_cons, List.zipWith_cons_cons, List.sum_cons]
              omega

-- A running task has reported for the last time.
theorem moved_concluded {job : LiveJob} (hs : job.Sound) {task : TaskId} {card : Card}
    (hcard : job.board.card task = .ok card) (hplace : card.place = .running)
    {ended : Board × List TaskId} (hended : job.board.finish task card.place = .ok ended)
    (result : TaskResult) :
    Moved job (job.concluded task card result ended) job.isHeld task .done
      (if result.hadException then .faulty else .finished) ended.2 := by
  have hbooks : ((job.consumeExecution task).addingResult card result).Sound := (advances_books hs _ _).sound
  exact (moved_terminated hbooks hcard (by rw [hplace]; rfl) hended card.parents _).1.congr
    ⟨rfl, rfl, rfl⟩ ⟨rfl, rfl, rfl⟩

section Course

variable {job : LiveJob} {submission : Submission} (hs : job.Sound) (h : job.OnCourse submission)
include hs h

-- An execution has been used.
theorem executionsLeft_consumed {task : TaskId} {card : Card} (hcard : job.board.card task = .ok card)
    (hopen : card.place ≠ .done) {job' : LiveJob} (hsubmission : job'.submission = job.submission)
    (hexecutions : job'.executions = (job.consumeExecution task).executions) :
    job'.executionsLeft + 1 = job.executionsLeft := by
  obtain ⟨declared, hdeclared, -, hmax⟩ := hs.sizes hcard
  have hused := h.left task card hcard hopen
  have hlt : task.index < job.executions.length := by
    rw [h.executions, ← h.submitted]
    exact (List.getElem?_eq_some_iff.mp hdeclared).1
  have hcount := List.getElem?_eq_getElem hlt
  rw [executionsUsed, hcount, hmax] at hused
  rw [executionsLeft, executionsLeft, hsubmission, hexecutions]
  exact sum_zipWith_modify hdeclared hcount hused

omit hs

theorem OnCourse.not_held : job.isHeld = false := by simpa [isHeld] using h.status

-- A running task has reported, and goes on or is done.
section Moved

variable {job' : LiveJob} {task : TaskId} {card : Card} {target : Place} {status : TaskStatus}
  {promoted : List TaskId} (hmoved : Moved job job' false task target status promoted)
include hmoved

theorem OnCourse.left_moved (hcard : job.board.card task = .ok card)
    (hexecutions : job'.executions = (job.consumeExecution task).executions)
    (hretry : target ≠ .done → job.mayRetry task card) (id : TaskId) (card' : Card)
    (hcard' : job'.board.card id = .ok card') (hopen : card'.place ≠ .done) :
    job'.executionsUsed id < card'.task.maxExecutions := by
  obtain ⟨old, hold, hfixed⟩ := hmoved.same.board.symm.card hcard'
  have htask : old.task = card'.task := congrArg Prod.fst hfixed
  have hplace' := Board.placeOf_of_card hcard'
  rw [hmoved.place] at hplace'
  have hjob : id.job = task.job :=
    (Board.card_eq_ok_iff.mp hold).1.trans (Board.card_eq_ok_iff.mp hcard).1.symm
  by_cases hid : id = task
  · subst hid
    rw [if_pos rfl, Except.ok.injEq] at hplace'
    rw [hcard, Except.ok.injEq] at hold
    rw [executionsUsed, hexecutions, ← htask, ← hold]
    exact hretry (hplace' ▸ hopen)
  · have hindex : task.index ≠ id.index := fun heq => hid (TaskId.eq_of_index_eq hjob heq.symm)
    have hsame : job'.executionsUsed id = job.executionsUsed id := by
      rw [executionsUsed, hexecutions, consumeExecution, List.getElem?_modify_ne _ _ hindex]
      rfl
    rw [hsame, ← htask]
    refine h.left id old hold fun hdone => hopen ?_
    rw [if_neg hid, Board.placeOf_of_card hold, hdone] at hplace'
    split at hplace'
    · rename_i hmem
      have hblocked := hmoved.blocked id hmem
      rw [Board.placeOf_of_card hold, hdone] at hblocked
      cases hblocked
    · exact (Except.ok.inj hplace').symm

theorem OnCourse.clean_moved (hclean : submission.cancelOnError → status ≠ .faulty)
    (hcancel : submission.cancelOnError) : .faulty ∉ job'.statuses := fun hfaulty =>
  h.clean hcancel (hmoved.mem_statuses_of (by simp) (hclean hcancel) hfaulty)

theorem OnCourse.moved (hcard : job.board.card task = .ok card)
    (hbooks : job'.submission = job.submission ∧ job'.status = job.status ∧
      job'.executions = (job.consumeExecution task).executions)
    (htarget : target ≠ .paused) (hretry : target ≠ .done → job.mayRetry task card)
    (hclean : submission.cancelOnError → status ≠ .faulty) : job'.OnCourse submission where
  submitted := hbooks.1.trans h.submitted
  status := by
    rw [hbooks.2.1]
    exact h.status
  unpaused id hpaused := by
    rw [hmoved.place] at hpaused
    split at hpaused
    · exact htarget (Except.ok.inj hpaused)
    · split at hpaused
      · cases hpaused
      · exact h.unpaused id hpaused
  executions := by
    rw [hbooks.2.2, consumeExecution, List.length_modify]
    exact h.executions
  left := h.left_moved hmoved hcard hbooks.2.2 hretry
  clean := h.clean_moved hmoved hclean

end Moved

theorem OnCourse.requeued_books (task : TaskId) :
    let job' := (job.consumeExecution task).requeued task .waitingOnError
    job'.submission = job.submission ∧ job'.status = job.status ∧
      job'.executions = (job.consumeExecution task).executions := by
  have hjob : (job.consumeExecution task).requeued task .waitingOnError =
      setStatus .waitingOnError ((job.consumeExecution task).shift task .running .eligible) task :=
    if_neg h.status
  rw [hjob]
  exact ⟨rfl, rfl, rfl⟩

theorem OnCourse.concluded_books (task : TaskId) (card : Card) (result : TaskResult)
    (ended : Board × List TaskId) :
    let job' := job.concluded task card result ended
    job'.submission = job.submission ∧ job'.status = job.status ∧
      job'.executions = (job.consumeExecution task).executions := by
  obtain ⟨results, heq⟩ : ∃ results, job.concluded task card result ended =
      { setStatus (if result.hadException then .faulty else .finished)
          { job.consumeExecution task with board := ended.1 } task with results } := by
    refine settled_of_not_held ?_ task card.parents ended.2
    exact h.status
  rw [heq]
  exact ⟨rfl, rfl, rfl⟩

include hs

section Completed

variable {task : TaskId} {card : Card} (hcard : job.board.card task = .ok card)
  (hplace : card.place = .running)
include hcard hplace

theorem OnCourse.retried (hretry : job.mayRetry task card) :
    ((job.consumeExecution task).requeued task .waitingOnError).OnCourse submission := by
  have hconsumed : (job.consumeExecution task).Sound :=
    (advances_books hs job.results (job.consumeExecution task).executions).sound
  have hheld : (job.consumeExecution task).isHeld = false := h.not_held
  have hmoved := moved_requeued hconsumed hcard hplace .waitingOnError
  rw [hheld, if_neg (by simp), if_neg (by simp)] at hmoved
  exact h.moved (hmoved.congr ⟨rfl, rfl, rfl⟩ ⟨rfl, rfl, rfl⟩) hcard (h.requeued_books task) (by simp)
    (fun _ => hretry) (by simp)

variable {ended : Board × List TaskId} (hended : job.board.finish task card.place = .ok ended)
  (result : TaskResult)
include hended

theorem OnCourse.concluded (hclean : ¬(result.hadException ∧ submission.cancelOnError)) :
    (job.concluded task card result ended).OnCourse submission := by
  have hmoved := moved_concluded hs hcard hplace hended result
  rw [h.not_held] at hmoved
  refine h.moved hmoved hcard
    (h.concluded_books task card result ended) (by simp) (fun hdone => absurd rfl hdone) fun hcancel => ?_
  rw [if_neg fun hexception => hclean ⟨hexception, hcancel⟩]
  simp

end Completed

-- The status with which a job ends that is left alone.
def endStatus (job : LiveJob) : JobStatus :=
  if job.submission.cancelOnError ∧ .faulty ∈ job.statuses then .canceled else .finished

-- What becomes of a job when one of its running tasks has been executed.
inductive Course (job : LiveJob) (submission : Submission) : Fate → LiveJob → Prop
  | goesOn {job'} : job'.OnCourse submission → job'.executionsLeft < job.executionsLeft →
      Course job submission (.goesOn []) job'
  | ends {job'} : job'.submission = submission → 0 < job.executionsLeft →
      Course job submission (.ends job'.endStatus []) job'

theorem OnCourse.course (hnone : submission.pauseOnError = false) {task : TaskId} {result : TaskResult}
    {fate : Fate} {job' : LiveJob} (hrunning : job.board.placeOf task = .ok .running)
    (houtcome : job.Outcome (.completed task result) fate job') : job.Course submission fate job' := by
  have hused {card : Card} (hcard : job.board.card task = .ok card) (hplace : card.place = .running)
      {job' : LiveJob} (hbooks : job'.submission = job.submission ∧ job'.status = job.status ∧
        job'.executions = (job.consumeExecution task).executions) :=
    executionsLeft_consumed hs h hcard (by rw [hplace]; simp) hbooks.1 hbooks.2.2
  cases houtcome with
  | untouched hnot => exact absurd hrunning (hnot task (List.mem_singleton.mpr rfl))
  | retried hcard hplace _ hretry =>
      exact .goesOn (h.retried hs hcard hplace hretry)
        (Nat.lt_of_succ_le (Nat.le_of_eq (hused hcard hplace (h.requeued_books task))))
  | heldInError _ _ hheld =>
      rw [h.submitted, hnone] at hheld
      cases hheld
  | @canceled _ result card ended hcard hplace hended hexception hcancel =>
      have hbooks := h.concluded_books task card result ended
      have hleft := hused hcard hplace hbooks
      have hmoved := moved_concluded hs hcard hplace hended result
      have hfaulty : .faulty ∈ (job.concluded task card result ended).statuses := by
        have hjob := (Board.card_eq_ok_iff.mp hcard).1
        obtain ⟨old, hold, -⟩ := hs.agrees task _ hrunning
        refine mem_statuses_iff.mpr ⟨task, hjob.trans hmoved.same.id.symm, ?_⟩
        rw [hmoved.statusOf task hjob, hold]
        simp [hexception]
      have hend : (job.concluded task card result ended).endStatus = .canceled :=
        if_pos ⟨hbooks.1 ▸ hcancel, hfaulty⟩
      rw [← hend]
      exact .ends (hbooks.1.trans h.submitted) (hleft ▸ Nat.succ_pos _)
  | @concluded _ result card ended hcard hplace hended hclean =>
      have hleft := hused hcard hplace (h.concluded_books task card result ended)
      have hcourse := h.concluded hs hcard hplace hended result (h.submitted ▸ hclean)
      unfold Fate.next
      split
      · have hend : (job.concluded task card result ended).endStatus = .finished :=
          if_neg fun hboth => hcourse.clean (hcourse.submitted ▸ hboth.1) hboth.2
        rw [← hend]
        exact .ends hcourse.submitted (hleft ▸ Nat.succ_pos _)
      · exact .goesOn hcourse (Nat.lt_of_succ_le (Nat.le_of_eq hleft))

end Course

-- A pass leaves alone what the job was submitted for and the executions that it has used.
theorem served_books (job : LiveJob) (selection : Selection) :
    (job.served selection).submission = job.submission ∧
      (job.served selection).executions = job.executions := by
  have hstarted (cards : List Card) (job : LiveJob) :
      (cards.foldl started job).submission = job.submission ∧
        (cards.foldl started job).executions = job.executions := by
    induction cards generalizing job with
    | nil => exact ⟨rfl, rfl⟩
    | cons first rest ih =>
        have hexecutions : (job.started first).executions = job.executions := by
          unfold started
          dsimp only
          split <;> rfl
        exact ⟨(ih _).1.trans (job.started_submission first), (ih _).2.trans hexecutions⟩
  have hattempted (cards : List Card) (job : LiveJob) :
      (cards.foldl attempted job).submission = job.submission ∧
        (cards.foldl attempted job).executions = job.executions := by
    induction cards generalizing job with
    | nil => exact ⟨rfl, rfl⟩
    | cons first rest ih => exact ih (job.attempted first)
  exact ⟨(hstarted _ _).1.trans (hattempted _ _).1, (hstarted _ _).2.trans (hattempted _ _).2⟩

theorem executionsLeft_served (job : LiveJob) (selection : Selection) :
    (job.served selection).executionsLeft = job.executionsLeft := by
  obtain ⟨hsubmission, hexecutions⟩ := job.served_books selection
  rw [executionsLeft, executionsLeft, hsubmission, hexecutions]

-- What is done stays done.
theorem Advances.placeOf_done {job job' : LiveJob} (h : job.Advances job') (hs : job.Sound)
    {task : TaskId} (hdone : job.board.placeOf task = .ok .done) :
    job'.board.placeOf task = .ok .done := by
  have hjob := Board.job_eq_of_placeOf hdone
  obtain ⟨status, hstatus, hterminated⟩ := hs.statusOf?_of_done hdone
  exact h.sound.placeOf_of_terminated (hjob.trans h.id.symm)
    (h.terminated task status hjob hstatus hterminated) hterminated

theorem OnCourse.served {job : LiveJob} {submission : Submission} (hs : job.Sound)
    (h : job.OnCourse submission) (accepts : Card → Bool) (budget : Nat) :
    (job.served (Selection.among accepts budget job.board.eligibleCards)).OnCourse submission := by
  have hadvances := advances_served hs accepts budget
  have hcards := card_served hs accepts budget
  generalize Selection.among accepts budget job.board.eligibleCards = selection at *
  obtain ⟨hsubmission, hexecutions⟩ := job.served_books selection
  have hcard {task : TaskId} {card' : Card} (hcard' : (job.served selection).board.card task = .ok card') :
      ∃ card, job.board.card task = .ok card ∧ card' = serving selection task card := by
    rw [hcards] at hcard'
    cases hcard : job.board.card task with
    | error fault =>
        rw [hcard] at hcard'
        cases hcard'
    | ok card =>
        rw [hcard] at hcard'
        exact ⟨card, rfl, (Except.ok.inj hcard').symm⟩
  refine ⟨hsubmission.trans h.submitted, ?_, fun task hpaused => ?_, ?_, fun task card' hcard' hopen => ?_,
    fun hcancel hfaulty => ?_⟩
  · have hheld : (job.served selection).isHeld = job.isHeld := isHeld_served job _ _
    rw [h.not_held] at hheld
    simpa [isHeld] using hheld
  · obtain ⟨card', hcard', hplace⟩ := Board.placeOf_eq_ok_iff.mp hpaused
    obtain ⟨card, hold, rfl⟩ := hcard hcard'
    rw [serving_place] at hplace
    split at hplace
    · cases hplace
    · exact h.unpaused task (Board.placeOf_eq_ok_iff.mpr ⟨card, hold, hplace⟩)
  · rw [hexecutions]
    exact h.executions
  · obtain ⟨card, hold, rfl⟩ := hcard hcard'
    have htask : (serving selection task card).task = card.task := by
      unfold serving
      split
      · rfl
      · split <;> rfl
    rw [executionsUsed, hexecutions, htask]
    refine h.left task card hold fun hdone => hopen ?_
    have hplace := hadvances.placeOf_done hs (Board.placeOf_eq_ok_iff.mpr ⟨card, hold, hdone⟩)
    rw [Board.placeOf_of_card hcard'] at hplace
    exact Except.ok.inj hplace
  · obtain ⟨id, hjob, hstatus⟩ := mem_statuses_iff.mp hfaulty
    exact h.clean hcancel (mem_statuses_iff.mpr ⟨id, hjob.trans hadvances.id,
      spares_served job _ _ id .faulty hstatus rfl⟩)

theorem executionsUsed_ofBoard (submission : Submission) (board : Board) (task : TaskId) :
    (ofBoard submission board).executionsUsed task = 0 := by
  simp only [executionsUsed, ofBoard, List.getElem?_replicate]
  split <;> rfl

-- A new job is on course, and no execution has been used.
theorem onCourse_of_new {id : JobId} {submission : Submission} {job : LiveJob}
    (h : LiveJob.new id submission = .ok job) :
    job.OnCourse submission ∧
      job.executionsLeft = (submission.tasks.map Submission.Task.maxExecutions).sum := by
  have hs := (fresh_of_new h).sound
  obtain ⟨tasks, board, hresolve, hbuild, rfl⟩ := new_eq_ok h
  have hsize : board.size = submission.tasks.length := by
    rw [Board.size_of_build hbuild, (Submission.checkTasks_of_resolve hresolve).2.2, Submission.plan,
      List.length_mapIdx]
  refine ⟨⟨rfl, by simp [ofBoard], fun task hpaused => ?_, by simp [ofBoard, hsize],
    fun task card hcard _ => ?_, fun _ hfaulty => ?_⟩, ?_⟩
  · rcases Board.not_done_of_build hbuild hpaused with heq | heq <;> cases heq
  · obtain ⟨declared, hdeclared, -, hmax⟩ := hs.sizes hcard
    have hexecutions := ((Submission.checkTasks_eq_ok_iff.mp
      (Submission.checkTasks_of_resolve hresolve).1).1 declared (List.mem_of_getElem? hdeclared)).2.1
    rw [executionsUsed_ofBoard, hmax]
    exact Nat.pos_of_ne_zero hexecutions
  · simp [ofBoard] at hfaulty
  · rw [executionsLeft, ofBoard, hsize]
    induction submission.tasks with
    | nil => rfl
    | cons first rest ih => simp [List.replicate_succ, ih]

end JobScheduler.LiveJob
