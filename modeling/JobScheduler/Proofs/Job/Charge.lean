import JobScheduler.Proofs.Job.Course

namespace JobScheduler

-- What the place of a task tells about its executions: how many it needs, for how many of
-- them it has been handed out, and how many have reported.
def Place.Charges (demand handed used : Nat) : Place → Prop
  | .blocked => handed = 0 ∧ used = 0
  | .eligible => handed = used ∧ used < demand
  | .running => handed = used + 1 ∧ used < demand
  | .paused => False
  | .done => handed = demand

namespace LiveJob

-- The books on the executions of all tasks of a job are in order.
def Charged (job : LiveJob) (demand handed : TaskId → Nat) : Prop :=
  ∀ task place, job.board.placeOf task = .ok place →
    place.Charges (demand task) (handed task) (job.executionsUsed task)

theorem Sound.lt_length_executions {job : LiveJob} (hs : job.Sound) {submission : Submission}
    (h : job.OnCourse submission) {task : TaskId} {card : Card}
    (hcard : job.board.card task = .ok card) : task.index < job.executions.length := by
  obtain ⟨declared, hdeclared, -⟩ := hs.sizes hcard
  rw [h.executions, ← h.submitted]
  exact (List.getElem?_eq_some_iff.mp hdeclared).1

theorem executionsUsed_consumeExecution {job : LiveJob} {task id : TaskId}
    (hlt : task.index < job.executions.length) (hjob : id.job = task.job) :
    (job.consumeExecution task).executionsUsed id =
      job.executionsUsed id + if id = task then 1 else 0 := by
  rw [executionsUsed, executionsUsed, consumeExecution]
  split
  · rename_i hid
    simp [hid, List.getElem?_eq_getElem hlt]
  · rename_i hid
    have hindex : task.index ≠ id.index := fun heq => hid (TaskId.eq_of_index_eq hjob heq.symm)
    rw [List.getElem?_modify_ne _ _ hindex, Nat.add_zero]

section Charged

variable {job : LiveJob} {submission : Submission} {demand handed : TaskId → Nat} (hs : job.Sound)
  (h : job.Charged demand handed)
include h

-- When nothing is left to do, every task has had what it needs.
theorem Charged.of_isComplete (hb : job.board.Sound) (hcomplete : job.board.isComplete) {task : TaskId}
    {place : Place} (hplace : job.board.placeOf task = .ok place) : handed task = demand task := by
  obtain ⟨card, hcard, hdone⟩ := Board.placeOf_eq_ok_iff.mp hplace
  rw [hb.isComplete_iff.mp hcomplete card (Board.Wired.mem_of_card hcard)] at hdone
  have hcharges := h task place hplace
  rwa [← hdone] at hcharges

include hs

section Moved

variable (hcourse : job.OnCourse submission) {task : TaskId} {card : Card}
  (hcard : job.board.card task = .ok card) (hplace : card.place = .running)
  (hpos : ∀ id place, job.board.placeOf id = .ok place → 0 < demand id)
include hcourse hcard hplace hpos

-- A running task has reported. What this promotes has not been executed before.
theorem Charged.moved {job' : LiveJob} {target : Place} {status : TaskStatus} {promoted : List TaskId}
    (hmoved : Moved job job' false task target status promoted)
    (hexecutions : job'.executions = (job.consumeExecution task).executions)
    (htarget : target.Charges (demand task) (job.executionsUsed task + 1) (job.executionsUsed task + 1)) :
    job'.Charged demand handed := by
  have hrunning : job.board.placeOf task = .ok .running :=
    (Board.placeOf_of_card hcard).trans (congrArg Except.ok hplace)
  have hused {id : TaskId} {place : Place} (hid : job.board.placeOf id = .ok place) :
      job'.executionsUsed id = job.executionsUsed id + if id = task then 1 else 0 := by
    have hjob := (Board.job_eq_of_placeOf hid).trans (Board.job_eq_of_placeOf hrunning).symm
    rw [← executionsUsed_consumeExecution (hs.lt_length_executions hcourse hcard) hjob, executionsUsed,
      executionsUsed, hexecutions]
  intro id place hid
  rw [hmoved.place] at hid
  by_cases htask : id = task
  · subst htask
    rw [if_pos rfl, Except.ok.injEq] at hid
    rw [hused hrunning, if_pos rfl, (h id .running hrunning).1, ← hid]
    exact htarget
  · rw [if_neg htask] at hid
    by_cases hpromoted : id ∈ promoted
    · rw [if_pos hpromoted, Except.ok.injEq] at hid
      have hblocked := hmoved.blocked id hpromoted
      obtain ⟨hhanded, hnone⟩ := h id .blocked hblocked
      rw [hused hblocked, if_neg htask, hhanded, hnone, ← hid]
      exact ⟨rfl, hpos id .blocked hblocked⟩
    · rw [if_neg hpromoted] at hid
      rw [hused hid, if_neg htask]
      exact h id place hid

-- If a running task runs again just if it needs to, the books stay in order, and the job
-- ends when nothing is left to do.
theorem Charged.reported (hcalm : submission.cancelOnError = false ∧ submission.pauseOnError = false)
    {result : TaskResult}
    (hagain : result.hadException ∧ job.mayRetry task card ↔ job.executionsUsed task + 1 < demand task)
    {fate : Fate} {job' : LiveJob} (houtcome : job.Outcome (.completed task result) fate job') :
    job'.Charged demand handed ∧
      (fate = .goesOn [] ∨ fate = .ends .finished [] ∧ job'.board.isComplete) := by
  have hconsumed : (job.consumeExecution task).Sound :=
    (advances_books hs job.results (job.consumeExecution task).executions).sound
  have hlt := (h task .running ((Board.placeOf_of_card hcard).trans (congrArg Except.ok hplace))).2
  obtain ⟨hcancel, hpause⟩ := hcalm
  rw [← hcourse.submitted] at hcancel hpause
  cases houtcome with
  | untouched hnot =>
      refine absurd ?_ (hnot task (List.mem_singleton.mpr rfl))
      rw [Board.placeOf_of_card hcard, hplace]
  | retried hcard' _ hexception hretry =>
      rw [hcard, Except.ok.injEq] at hcard'
      subst hcard'
      have hmoved := moved_requeued hconsumed hcard hplace .waitingOnError
      have hheld : (job.consumeExecution task).isHeld = false := hcourse.not_held
      rw [hheld, if_neg (by simp), if_neg (by simp)] at hmoved
      refine ⟨?_, .inl rfl⟩
      exact h.moved hs hcourse hcard hplace hpos (hmoved.congr ⟨rfl, rfl, rfl⟩ ⟨rfl, rfl, rfl⟩)
        (hcourse.requeued_books task).2.2 ⟨rfl, hagain.mp ⟨hexception, hretry⟩⟩
  | heldInError _ _ hheld =>
      rw [hpause] at hheld
      cases hheld
  | canceled _ _ _ _ hcanceled =>
      rw [hcancel] at hcanceled
      cases hcanceled
  | @concluded _ _ _ ended hcard' _ hended _ hlast =>
      rw [hcard, Except.ok.injEq] at hcard'
      subst hcard'
      have hmoved := moved_concluded hs hcard hplace hended result
      rw [hcourse.not_held] at hmoved
      refine ⟨?_, ?_⟩
      · refine h.moved hs hcourse hcard hplace hpos hmoved
          (hcourse.concluded_books task card result ended).2.2 ?_
        rw [hagain] at hlast
        change job.executionsUsed task + 1 = demand task
        omega
      · unfold Fate.next
        split
        · rename_i hcomplete
          exact .inr ⟨rfl, hcomplete⟩
        · exact .inl rfl

end Moved

end Charged

-- Of a new job nothing has been executed yet.
theorem charged_of_new {id : JobId} {submission : Submission} {job : LiveJob}
    (h : LiveJob.new id submission = .ok job) {demand : TaskId → Nat}
    (hpos : ∀ task place, job.board.placeOf task = .ok place → 0 < demand task) :
    job.Charged demand fun _ => 0 := by
  obtain ⟨tasks, board, -, hbuild, rfl⟩ := new_eq_ok h
  intro task place hplace
  rw [executionsUsed_ofBoard]
  rcases Board.not_done_of_build hbuild hplace with rfl | rfl
  · exact ⟨rfl, hpos task _ hplace⟩
  · exact ⟨rfl, rfl⟩

end LiveJob

end JobScheduler
