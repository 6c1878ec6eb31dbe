import JobScheduler.Proofs.Job.Outcome
import JobScheduler.Scheduler.Desk

namespace JobScheduler.DeskM

theorem run_bind (work : DeskM α) (next : α → DeskM β) (desk : Desk) :
    (work >>= next) desk =
      match work desk with
      | .ok answer desk => next answer desk
      | .error fault desk => .error fault desk := by
  cases h : work desk <;> simp [bind, EStateM.bind, h]

theorem run_pure (answer : α) (desk : Desk) : (pure answer : DeskM α) desk = .ok answer desk := rfl

section Primitives

variable (job : LiveJob) (slots : Slots)

theorem run_theJob : theJob ⟨job, slots⟩ = .ok job ⟨job, slots⟩ := rfl

theorem run_changeJob (change : LiveJob → LiveJob) :
    changeJob change ⟨job, slots⟩ = .ok () ⟨change job, slots⟩ := rfl

theorem run_releaseSlots (count : Nat) :
    releaseSlots count ⟨job, slots⟩ = .ok () ⟨job, slots.release count⟩ := rfl

theorem run_takeSlots (count : Nat) :
    takeSlots count ⟨job, slots⟩ = .ok () ⟨job, slots.take count⟩ := rfl

theorem run_setStatus (task : TaskId) (status : TaskStatus) :
    setStatus task status ⟨job, slots⟩ = .ok () ⟨LiveJob.setStatus status job task, slots⟩ := rfl

theorem run_setJobStatus (status : JobStatus) :
    setJobStatus status ⟨job, slots⟩ = .ok () ⟨{ job with status }, slots⟩ := rfl

theorem run_addResult (card : Card) (result : TaskResult) :
    addResult card result ⟨job, slots⟩ = .ok () ⟨job.addingResult card result, slots⟩ := rfl

theorem run_clearError : clearError ⟨job, slots⟩ = .ok () ⟨job.errorCleared, slots⟩ := by
  simp only [clearError, run_bind, run_theJob, LiveJob.errorCleared]
  split <;> rfl

variable {job}

theorem run_ask {question : Board → Except Fault α} {answer : α}
    (h : question job.board = .ok answer) : ask question ⟨job, slots⟩ = .ok answer ⟨job, slots⟩ := by
  simp [ask, run_bind, run_theJob, h, run_pure]

theorem run_ask_error {question : Board → Except Fault α} {fault : Fault}
    (h : question job.board = .error fault) :
    ask question ⟨job, slots⟩ = .error fault ⟨job, slots⟩ := by
  simp [ask, run_bind, run_theJob, h]
  rfl

theorem run_transition {step : Board → Except Fault (Board × α)} {board : Board} {answer : α}
    (h : step job.board = .ok (board, answer)) :
    transition step ⟨job, slots⟩ = .ok answer ⟨{ job with board }, slots⟩ := by
  simp only [transition, run_bind, run_ask slots h, run_changeJob, run_pure]

theorem run_moveTask {step : Board → Except Fault Board} {board : Board}
    (h : step job.board = .ok board) :
    moveTask step ⟨job, slots⟩ = .ok () ⟨{ job with board }, slots⟩ := by
  apply run_transition
  rw [h]
  rfl

theorem run_theCard {task : TaskId} {card : Card} (h : job.board.card task = .ok card) :
    theCard task ⟨job, slots⟩ = .ok card ⟨job, slots⟩ := run_ask slots h

theorem run_theCard_error {task : TaskId} {fault : Fault} (h : job.board.card task = .error fault) :
    theCard task ⟨job, slots⟩ = .error fault ⟨job, slots⟩ := run_ask_error slots h

end Primitives

section Settle

variable {job : LiveJob} (slots : Slots)

theorem run_holdBack {task : TaskId} (h : job.board.placeOf task = .ok .eligible) :
    holdBack task ⟨job, slots⟩ = .ok () ⟨job.holdingBack task, slots⟩ := by
  have hmove : moveTask (·.pause task) ⟨job, slots⟩ = .ok () ⟨job.shift task .eligible .paused, slots⟩ :=
    run_moveTask slots (Board.move_of_placeOf .paused h)
  simp only [holdBack, run_bind, hmove, run_setStatus]
  rfl

theorem run_forM_holdBack (hb : job.board.Sound) {tasks : List TaskId} (hnodup : tasks.Nodup)
    (h : ∀ task ∈ tasks, job.board.placeOf task = .ok .eligible) :
    tasks.forM holdBack ⟨job, slots⟩ = .ok () ⟨job.allHeldBack tasks, slots⟩ := by
  induction tasks generalizing job with
  | nil => rfl
  | cons first rest ih =>
      obtain ⟨hfirst, hrest⟩ := List.forall_mem_cons.mp h
      obtain ⟨hfresh, hnodup⟩ := List.nodup_cons.mp hnodup
      have hone := LiveJob.heldBack_one hb hfirst
      have hnext (task : TaskId) (htask : task ∈ rest) :
          (job.holdingBack first).board.placeOf task = .ok .eligible := by
        have hne : task ≠ first := fun heq => hfresh (heq ▸ htask)
        rw [hone.place]
        simpa [hne] using hrest task htask
      simp only [List.forM, run_bind, run_holdBack slots hfirst]
      exact ih hone.board hnodup hnext

theorem run_releaseResult {task : TaskId} {card : Card} (h : job.board.card task = .ok card) :
    releaseResult task ⟨job, slots⟩ = .ok () ⟨job.releasing task, slots⟩ := by
  have hreleasable : ask (·.isReleasable task) ⟨job, slots⟩ = .ok (card.remaining == 0) ⟨job, slots⟩ :=
    run_ask slots (by simp [Board.isReleasable, h, bind, Except.bind, pure, Except.pure])
  simp only [releaseResult, run_bind, hreleasable, LiveJob.releasing, h]
  by_cases hzero : card.remaining = 0
  · simp only [hzero, beq_self_eq_true, if_true, run_bind, run_theCard slots h, run_changeJob]
  · simp [hzero, run_pure]

theorem run_forM_releaseResult {tasks : List TaskId}
    (h : ∀ task ∈ tasks, ∃ card, job.board.card task = .ok card) :
    tasks.forM releaseResult ⟨job, slots⟩ = .ok () ⟨tasks.foldl LiveJob.releasing job, slots⟩ := by
  induction tasks generalizing job with
  | nil => rfl
  | cons first rest ih =>
      obtain ⟨⟨card, hcard⟩, hrest⟩ := List.forall_mem_cons.mp h
      obtain ⟨results, hresults⟩ := job.releasing_eq first
      simp only [List.forM, run_bind, run_releaseResult slots hcard]
      refine ih fun task htask => ?_
      rw [hresults]
      exact hrest task htask

-- Settling asks about tasks of the job only, so it goes through.
theorem run_settle (hb : job.board.Sound) {task : TaskId} {card : Card}
    (hcard : job.board.card task = .ok card) {promoted : List TaskId} (hnodup : promoted.Nodup)
    (h : ∀ id ∈ promoted, job.board.placeOf id = .ok .eligible) :
    settle task promoted ⟨job, slots⟩ = .ok () ⟨job.settled task card.parents promoted, slots⟩ := by
  have htail {job' : LiveJob} (hsame : job.board.SameTasks job'.board) :
      (do let card ← theCard task; (task :: card.parents).forM releaseResult : DeskM Unit)
        ⟨job', slots⟩ = .ok () ⟨(task :: card.parents).foldl LiveJob.releasing job', slots⟩ := by
    obtain ⟨card', hcard', hfixed⟩ := hsame.card hcard
    have hparents : card'.parents = card.parents := congrArg (·.2.1) hfixed
    simp only [run_bind, run_theCard slots hcard', hparents]
    refine run_forM_releaseResult slots fun id hid => ?_
    rcases List.mem_cons.mp hid with rfl | hid
    · exact ⟨card', hcard'⟩
    · obtain ⟨other, hother⟩ := hb.wired.card_of_parent (Board.Wired.mem_of_card hcard) hid
      obtain ⟨other', hother', -⟩ := hsame.card hother
      exact ⟨other', hother'⟩
  simp only [settle, LiveJob.settled]
  rw [run_bind, run_theJob]
  dsimp only
  by_cases hpaused : job.status = .paused
  · rw [if_pos hpaused, if_pos hpaused, run_bind, run_forM_holdBack slots hb hnodup h]
    exact htail (LiveJob.heldBack_all hb hnodup h).same.board
  · rw [if_neg hpaused, if_neg hpaused]
    exact htail (.refl job.board)

end Settle

end JobScheduler.DeskM
