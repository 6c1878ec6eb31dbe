import JobScheduler.Proofs.Job.Account
import JobScheduler.Proofs.Job.Course
import JobScheduler.Proofs.Job.Idempotence
import JobScheduler.Proofs.Job.Record

namespace JobScheduler

-- The events that leave all counts of executions alone.
def Event.sparesExecutions : Event → Bool
  | .lost _ | .pause _ | .resume _ | .killTask _ | .priority .. => true
  | _ => false

namespace LiveJob

-- The notes on a task that an event gives rise to.
def noted (job : LiveJob) (task : TaskId) : Event → List Note
  | .completed other result =>
      if other = task ∧ job.board.placeOf task = .ok .running then [.reported result] else []
  | .restart other => if other = task ∧ job.statusOf? task = some .inError then [.restarted] else []
  | .killTask other =>
      if other = task ∧ (job.board.placeOf task).toOption.any Place.isPartition then [.killed] else []
  | _ => []

-- Only an event about the job of a task bears on the task.
theorem work?_of_noted {job : LiveJob} {task : TaskId} {event : Event} (h : job.noted task event ≠ []) :
    ∃ work, event.work? = some (task.job, work) := by
  have hsame {other : TaskId} {wanted : Prop} [Decidable wanted] {note : Note}
      (h : (if other = task ∧ wanted then [note] else []) ≠ []) : other = task := by
    by_contra hne
    exact h (if_neg fun hboth => hne hboth.1)
  cases event with
  | completed other result => exact ⟨_, by rw [← hsame h]; rfl⟩
  | restart other => exact ⟨_, by rw [← hsame h]; rfl⟩
  | killTask other => exact ⟨_, by rw [← hsame h]; rfl⟩
  | submitted | lost | pause | resume | kill | finish | priority | shutdown => exact absurd rfl h

-- A job takes up every event that its tasks are told by.
theorem ok_of_noted {job : LiveJob} (hs : job.Sound) {event : Event} {id : JobId} {work : DeskM Fate}
    (hwork : event.work? = some (id, work)) (hid : job.id = id) {task : TaskId} (hnoted : job.noted task event ≠ [])
    (slots : Slots) : ∃ fate desk, work ⟨job, slots⟩ = .ok fate desk ∧ fate ≠ .untouched := by
  cases event with
  | completed other result =>
      cases hwork
      simp only [noted] at hnoted
      split at hnoted
      case isFalse => exact absurd rfl hnoted
      case isTrue hrunning =>
        obtain ⟨rfl, hrunning⟩ := hrunning
        obtain ⟨card, hcard, hplace⟩ := Board.placeOf_eq_ok_iff.mp hrunning
        by_cases hretry : result.hadException ∧ job.mayRetry other card
        · exact ⟨_, _, DeskM.taskCompleted_of_retry slots result hcard hplace hretry.1 hretry.2, by simp⟩
        · by_cases hheld : result.hadException ∧ job.submission.pauseOnError
          · exact ⟨_, _, DeskM.taskCompleted_of_held slots result hcard hplace hheld.1
              (fun hmay => hretry ⟨hheld.1, hmay⟩) hheld.2, by simp⟩
          · obtain ⟨ended, hended⟩ := DeskM.finish_of_card hs other hcard
            rw [hplace] at hended
            refine ⟨_, _, DeskM.taskCompleted_of_end slots result hcard hplace hs hretry hheld hended, ?_⟩
            split
            · simp
            · exact DeskM.next_ne_untouched _ _
  | restart other =>
      cases hwork
      simp only [noted] at hnoted
      split at hnoted
      case isFalse => exact absurd rfl hnoted
      case isTrue herror =>
        obtain ⟨rfl, herror⟩ := herror
        exact ⟨_, _, DeskM.restartInError_of_inError slots hs hid.symm herror, by simp⟩
  | killTask other =>
      cases hwork
      simp only [noted] at hnoted
      split at hnoted
      case isFalse => exact absurd rfl hnoted
      case isTrue hpartition =>
        obtain ⟨rfl, hpartition⟩ := hpartition
        cases hcard : job.board.card other with
        | error fault =>
            rw [Board.placeOf_eq, hcard] at hpartition
            cases hpartition
        | ok card =>
            rw [Board.placeOf_of_card hcard] at hpartition
            obtain ⟨ended, hended⟩ := DeskM.finish_of_card hs other hcard
            exact ⟨_, _, DeskM.killTask_of_partition slots hs hcard hpartition hended,
              DeskM.next_ne_untouched _ _⟩
  | submitted | lost | pause | resume | kill | finish | priority | shutdown => exact absurd rfl hnoted

-- The books of a job show the account of a task. Only jobs that hold failed tasks have
-- tasks in error.
structure Tallies (job : LiveJob) (planned : PlannedTask) (account : Account) : Prop where
  executions : job.executions[planned.id.index]? = some account.trials.length
  all : job.results.all.find? planned.name = account.recorded.getLast?
  exceptions : job.results.exceptions.find? planned.name = account.exception?
  shown : ∃ status, job.statusOf? planned.id = some status ∧ account.Fits planned status ∧
    (status = .inError ∨ account.rerun = true → job.submission.pauseOnError = true)

-- The books of a job show the accounts of all its tasks.
def Follows (job : LiveJob) (history : TaskId → List Note) : Prop :=
  ∀ planned ∈ job.board.cards.map Card.task, job.Tallies planned (.of planned (history planned.id))

theorem Tallies.with_status {job : LiveJob} {planned : PlannedTask} {account : Account}
    (h : job.Tallies planned account) (status : JobStatus) :
    ({ job with status } : LiveJob).Tallies planned account :=
  ⟨h.executions, h.all, h.exceptions, h.shown⟩

theorem Follows.errorCleared {job : LiveJob} {history : TaskId → List Note} (h : job.Follows history) :
    job.errorCleared.Follows history := by
  obtain ⟨status, heq, -⟩ := job.errorCleared_eq
  rw [heq]
  exact fun planned hplanned => (h planned hplanned).with_status status

-- Only what is told of the tasks of a job matters to its books.
theorem Follows.congr {job : LiveJob} (hs : job.Sound) {history history' : TaskId → List Note}
    (h : job.Follows history) (hsame : ∀ task, task.job = job.id → history' task = history task) :
    job.Follows history' := by
  intro planned hplanned
  obtain ⟨card, hcard, rfl⟩ := List.mem_map.mp hplanned
  rw [hsame card.task.id (Board.card_eq_ok_iff.mp (hs.board.wired.card_id_of_mem hcard)).1]
  exact h card.task hplanned

-- The books of a job are those of another, but of one task they show the account.
structure Enters (job job' : LiveJob) (planned : PlannedTask) (account : Account) : Prop where
  executions : ∀ index, job'.executions[index]? =
    if index = planned.id.index then some account.trials.length else job.executions[index]?
  all : ∀ name, job'.results.all.find? name =
    if name = planned.name then account.recorded.getLast? else job.results.all.find? name
  exceptions : ∀ name, job'.results.exceptions.find? name =
    if name = planned.name then account.exception? else job.results.exceptions.find? name

section Enters

variable {job job' : LiveJob} {planned : PlannedTask} {account : Account}

theorem Tallies.enters (h : job.Tallies planned account) : Enters job job planned account where
  executions index := by
    split
    · rename_i heq
      rw [heq, h.executions]
    · rfl
  all name := by
    split
    · rename_i heq
      rw [heq, h.all]
    · rfl
  exceptions name := by
    split
    · rename_i heq
      rw [heq, h.exceptions]
    · rfl

variable (h : Enters job job' planned account)
include h

theorem Enters.consumed (result : TaskResult) :
    Enters job (job'.consumeExecution planned.id) planned
      { account with trials := account.trials ++ [result] } where
  executions index := by
    rw [consumeExecution, List.getElem?_modify, h.executions]
    by_cases heq : index = planned.id.index
    · simp [heq]
    · simp [heq, Ne.symm heq]
  all := h.all
  exceptions := h.exceptions

theorem Enters.reset {rerun : Bool} :
    Enters job (job'.setExecutions planned.id 0) planned { account with trials := [], rerun } where
  executions index := by
    rw [setExecutions, List.getElem?_set', h.executions]
    by_cases heq : index = planned.id.index
    · simp [heq]
    · simp [heq, Ne.symm heq]
  all := h.all
  exceptions := h.exceptions

theorem Enters.added {card : Card} (hcard : card.task = planned) (result : TaskResult) :
    Enters job (job'.addingResult card result) planned
      { account with recorded := account.recorded ++ [result] } where
  executions := h.executions
  all name := by
    rw [addingResult, JobResult.find?_all_add, h.all, Card.name, hcard, List.getLast?_concat]
    split <;> rfl
  exceptions name := by
    rw [addingResult, JobResult.find?_exceptions_add, h.exceptions, Card.name, hcard,
      Account.exception?_append]
    by_cases heq : name = planned.name <;> simp [heq]

theorem Enters.keep {job'' : LiveJob} (hkeeps : job'.KeepsBooks job'') :
    Enters job job'' planned account := by
  obtain ⟨released, hresults⟩ := hkeeps.results
  refine ⟨?_, ?_, ?_⟩
  · rw [hkeeps.executions]
    exact h.executions
  · rw [hresults]
    exact h.all
  · rw [hresults]
    exact h.exceptions

end Enters

section Follows

variable {job job' : LiveJob} {history : TaskId → List Note} (hs : job.Sound) (hf : job.Follows history)
include hs hf

omit hf in
-- Tasks that are neither paused nor done are open.
theorem Sound.isOpen_of_placeOf {id : TaskId} {place : Place} (hplace : job.board.placeOf id = .ok place)
    (hpaused : place ≠ .paused) (hdone : place ≠ .done) {old : TaskStatus}
    (hold : job.statusOf? id = some old) : old.isOpen := by
  obtain ⟨shown, hshown, hterminated, herror⟩ := hs.agrees id place hplace
  rw [hold, Option.some.injEq] at hshown
  subst hshown
  refine TaskStatus.isOpen_iff.mpr ⟨?_, fun heq => hpaused (herror heq)⟩
  exact Bool.eq_false_iff.mpr fun h => hdone (hterminated.mp h)

-- One task has moved, and of the others some may have been promoted.
theorem Follows.moved {task : TaskId} {card : Card} (hcard : job.board.card task = .ok card) {held : Bool}
    {target : Place} {status : TaskStatus} {promoted : List TaskId}
    (hmoved : Moved job job' held task target status promoted) {later : TaskId → List Note}
    (hothers : ∀ id, id ≠ task → later id = history id)
    (henters : Enters job job' card.task (.of card.task (later task)))
    (hfits : (Account.of card.task (later task)).Fits card.task status)
    (hpauses : status = .inError ∨ (Account.of card.task (later task)).rerun = true →
      job.submission.pauseOnError = true) : job'.Follows later := by
  intro planned hplanned
  rw [hmoved.same.board.map_task] at hplanned
  obtain ⟨other, hother, rfl⟩ := List.mem_map.mp hplanned
  have hotherCard := hs.board.wired.card_id_of_mem hother
  have hjob : other.task.id.job = job.id := (Board.card_eq_ok_iff.mp hotherCard).1
  have hpause : job'.submission.pauseOnError = job.submission.pauseOnError := by
    rw [hmoved.same.submission]
  have htally := hf other.task hplanned
  obtain ⟨old, hold, holdFits, holdPauses⟩ := htally.shown
  have hshown := hmoved.statusOf other.task.id hjob
  rw [hold, Option.map_some] at hshown
  have hcardId : card.task.id = task := hs.board.wired.id_of_card hcard
  by_cases htask : other.task.id = task
  · have hsame : other = card := by
      rw [show other.id = task from htask, hcard] at hotherCard
      exact (Except.ok.inj hotherCard).symm
    subst hsame
    rw [if_pos htask] at hshown
    rw [htask]
    exact ⟨(henters.executions _).trans (if_pos rfl), (henters.all _).trans (if_pos rfl),
      (henters.exceptions _).trans (if_pos rfl), status, hshown, hfits, hpause ▸ hpauses⟩
  · have hindex : other.task.id.index ≠ card.task.id.index := by
      rw [hcardId]
      exact fun heq => htask
        (TaskId.eq_of_index_eq (hjob.trans (Board.card_eq_ok_iff.mp hcard).1.symm) heq)
    have hname : other.task.name ≠ card.task.name := fun heq => htask <| by
      rw [List.inj_on_of_nodup_map (nodup_name_cards hs) hother (Board.Wired.mem_of_card hcard) heq, hcardId]
    rw [if_neg htask] at hshown
    rw [hothers _ htask]
    refine ⟨((henters.executions _).trans (if_neg hindex)).trans htally.executions,
      ((henters.all _).trans (if_neg hname)).trans htally.all,
      ((henters.exceptions _).trans (if_neg hname)).trans htally.exceptions, _, hshown, ?_, ?_⟩
    · split
      · rename_i hpromoted
        have hblocked := hmoved.blocked _ hpromoted.2
        exact holdFits.reopen (hs.isOpen_of_placeOf hblocked (by simp) (by simp) hold) rfl
      · exact holdFits
    · rw [hpause]
      refine fun hreason => holdPauses (hreason.imp_left fun herror => ?_)
      split at herror
      · cases herror
      · exact herror

omit hs in
-- Tasks may be shown with another status while they are open.
theorem Follows.restate {wanted : TaskStatus → Bool} {status : TaskStatus}
    (hwanted : ∀ old, wanted old → old.isOpen) (hopen : status.isOpen) :
    (job.restate wanted status).1.Follows history := by
  intro planned hplanned
  have hsame : job.SameJob (job.restate wanted status).1 := sameJob_restate wanted status
  rw [hsame.board.map_task] at hplanned
  have hkeeps := job.keepsBooks_restate wanted status
  have htally := hf planned hplanned
  obtain ⟨old, hold, hfits, hpauses⟩ := htally.shown
  have hbooks := htally.enters.keep hkeeps
  have hshown := job.statusOf?_restate wanted status planned.id
  rw [hold, Option.map_some] at hshown
  refine ⟨(hbooks.executions _).trans (if_pos rfl), (hbooks.all _).trans (if_pos rfl),
    (hbooks.exceptions _).trans (if_pos rfl), _, hshown, ?_, ?_⟩
  · split
    · rename_i hold
      exact hfits.reopen (hwanted old hold) hopen
    · exact hfits
  · rw [hsame.submission]
    refine fun hreason => hpauses (hreason.imp_left fun herror => ?_)
    split at herror
    · rw [herror] at hopen
      cases hopen
    · exact herror

section Card

variable {task : TaskId} {card : Card} (hcard : job.board.card task = .ok card)
include hcard

theorem Follows.tallies : job.Tallies card.task (.of card.task (history task)) := by
  have htally := hf card.task (List.mem_map_of_mem (Board.Wired.mem_of_card hcard))
  rwa [show card.task.id = task from hs.board.wired.id_of_card hcard] at htally

theorem Follows.mayRetry_iff : job.mayRetry task card ↔
    (Account.of card.task (history task)).trials.length + 1 < card.task.maxExecutions := by
  have hused := (hf.tallies hs hcard).executions
  rw [show card.task.id = task from hs.board.wired.id_of_card hcard] at hused
  rw [mayRetry, executionsUsed, consumeExecution, List.getElem?_modify, hused]
  simp

-- A task that is running is open. If it was ever restarted, its job holds failed tasks.
theorem Follows.running (hplace : card.place = .running) :
    ∃ old, old.isOpen ∧ (Account.of card.task (history task)).Fits card.task old ∧
      ((Account.of card.task (history task)).rerun = true → job.submission.pauseOnError = true) := by
  obtain rfl : card.task.id = task := hs.board.wired.id_of_card hcard
  obtain ⟨old, hold, hfits, hpauses⟩ := (hf.tallies hs hcard).shown
  have hopen := hs.isOpen_of_placeOf (Board.placeOf_of_card hcard) (by simp [hplace]) (by simp [hplace]) hold
  exact ⟨old, hopen, hfits, fun hrerun => hpauses (.inr hrerun)⟩

variable {held : Bool} {target : Place} {status : TaskStatus} {promoted : List TaskId}
  (hmoved : Moved job job' held task target status promoted)
include hmoved

-- An event that bears on one task leaves the notes on the others as they are.
theorem Follows.note {event : Event} {note : Note} (hevent : (∃ result, event = .completed task result) ∨
      event = .restart task ∨ event = .killTask task)
    (hnote : job.noted task event = [note])
    (henters : Enters job job' card.task ((Account.of card.task (history task)).add card.task note))
    (hfits : ((Account.of card.task (history task)).add card.task note).Fits card.task status)
    (hpauses : status = .inError ∨ ((Account.of card.task (history task)).add card.task note).rerun = true →
      job.submission.pauseOnError = true) :
    job'.Follows fun id => history id ++ job.noted id event := by
  have hlater : Account.of card.task (history task ++ job.noted task event) =
      (Account.of card.task (history task)).add card.task note := by
    rw [hnote, Account.of_append]
    rfl
  refine hf.moved hs hcard hmoved (fun id hne => ?_) (hlater ▸ henters) (hlater ▸ hfits) (hlater ▸ hpauses)
  obtain ⟨result, rfl⟩ | rfl | rfl := hevent <;> simp [noted, Ne.symm hne]

section Reported

variable (hplace : card.place = .running) {result : TaskResult}
include hplace

omit hs hf hmoved in
theorem noted_of_running : job.noted task (.completed task result) = [.reported result] :=
  if_pos ⟨rfl, (Board.placeOf_of_card hcard).trans (congrArg Except.ok hplace)⟩

-- A task of which nothing is recorded runs again.
theorem Follows.tried (hfailed : result.hadException) (hmay : job.mayRetry task card)
    (hkeeps : (job.consumeExecution task).KeepsBooks job') (hopen : status.isOpen) :
    job'.Follows fun id => history id ++ job.noted id (.completed task result) := by
  obtain rfl : card.task.id = task := hs.board.wired.id_of_card hcard
  have htally := hf.tallies hs hcard
  obtain ⟨old, hwas, hfits, hpauses⟩ := hf.running hs hcard hplace
  have hleft := (hf.mayRetry_iff hs hcard).mp hmay
  have hadd : (Account.of card.task (history card.task.id)).add card.task (.reported result) =
      { Account.of card.task (history card.task.id) with
        trials := (Account.of card.task (history card.task.id)).trials ++ [result] } := by
    rw [Account.add, if_pos ⟨hfailed, by rwa [List.length_append]⟩]
  refine hf.note hs hcard hmoved (.inl ⟨result, rfl⟩) (noted_of_running hcard hplace)
    (hadd ▸ (htally.enters.consumed result).keep hkeeps) (hfits.tried hwas hfailed hleft hopen) ?_
  rw [hadd]
  exact fun hreason => hpauses (hreason.resolve_left (TaskStatus.isOpen_iff.mp hopen).2)

-- The last result of a task is recorded.
theorem Follows.recorded (hlast : ¬(result.hadException ∧ job.mayRetry task card))
    (hkeeps : ((job.consumeExecution task).addingResult card result).KeepsBooks job')
    (hstatus : status ∈ if result.hadException then [.faulty, .inError] else [.finished])
    (hheld : status = .inError → job.submission.pauseOnError = true) :
    job'.Follows fun id => history id ++ job.noted id (.completed task result) := by
  obtain rfl : card.task.id = task := hs.board.wired.id_of_card hcard
  have htally := hf.tallies hs hcard
  obtain ⟨old, hwas, hfits, hpauses⟩ := hf.running hs hcard hplace
  rw [hf.mayRetry_iff hs hcard] at hlast
  have hadd : (Account.of card.task (history card.task.id)).add card.task (.reported result) =
      { Account.of card.task (history card.task.id) with
        trials := (Account.of card.task (history card.task.id)).trials ++ [result]
        recorded := (Account.of card.task (history card.task.id)).recorded ++ [result] } := by
    rw [Account.add, if_neg (by rwa [List.length_append])]
  refine hf.note hs hcard hmoved (.inl ⟨result, rfl⟩) (noted_of_running hcard hplace)
    (hadd ▸ ((htally.enters.consumed result).added rfl result).keep hkeeps)
    (hfits.recorded_last hwas hlast hstatus) ?_
  rw [hadd]
  exact fun hreason => hreason.elim hheld hpauses

end Reported

omit hmoved in
theorem Follows.concluded (hplace : card.place = .running) {result : TaskResult} {ended : Board × List TaskId}
    (hended : job.board.finish task card.place = .ok ended)
    (hlast : ¬(result.hadException ∧ job.mayRetry task card)) :
    (job.concluded task card result ended).Follows fun id =>
      history id ++ job.noted id (.completed task result) := by
  have hadded : ((job.consumeExecution task).addingResult card result).Sound := (advances_books hs _ _).sound
  refine hf.recorded hs hcard (moved_concluded hs hcard hplace hended result) hplace hlast
    (keepsBooks_terminated hadded hcard hended _ _) ?_ ?_
  · split <;> simp
  · split <;> simp

end Card

-- Whatever an event makes of a job, its books go on to show the accounts of its tasks.
theorem Outcome.follows {event : Event} {fate : Fate} (h : job.Outcome event fate job')
    (htaken : fate ≠ .untouched) : job'.Follows fun id => history id ++ job.noted id event := by
  have hconsumed (task : TaskId) : (job.consumeExecution task).Sound :=
    (advances_books hs job.results (job.consumeExecution task).executions).sound
  have hsilent (hnone : ∀ id, job.noted id event = []) (hlater : job'.Follows history) :
      job'.Follows fun id => history id ++ job.noted id event := by
    simpa only [hnone, List.append_nil] using hlater
  cases h with
  | untouched => exact absurd rfl htaken
  | @retried task result card hcard hplace hfailed hmay =>
      have hmoved := moved_requeued (hconsumed task) hcard hplace .waitingOnError
      exact hf.tried hs hcard (hmoved.congr ⟨rfl, rfl, rfl⟩ ⟨rfl, rfl, rfl⟩) hplace hfailed hmay
        (keepsBooks_requeued _ _ _) (by split <;> rfl)
  | @heldInError task result card hcard hplace hpause hfailed hlast =>
      have hmoved := moved_heldInError (hconsumed task) hcard hplace result
      exact hf.recorded hs hcard (hmoved.congr ⟨rfl, rfl, rfl⟩ ⟨rfl, rfl, rfl⟩) hplace
        (fun hboth => hlast hboth.2) (keepsBooks_heldInError result) (by simp [hfailed]) fun _ => hpause
  | @canceled task result card ended hcard hplace hended hfailed _ hlast =>
      exact hf.concluded hs hcard hplace hended fun hboth => hlast hboth.2
  | @concluded task result card ended hcard hplace hended _ hlast =>
      exact hf.concluded hs hcard hplace hended hlast
  | @lost task card hcard hplace =>
      obtain rfl : card.task.id = task := hs.board.wired.id_of_card hcard
      have htally := hf.tallies hs hcard
      obtain ⟨old, hwas, hfits, hpauses⟩ := hf.running hs hcard hplace
      refine hsilent (fun _ => rfl) (hf.moved hs hcard (moved_requeued hs hcard hplace .pending) (fun _ _ => rfl)
        (htally.enters.keep (keepsBooks_requeued _ _ _)) (hfits.reopen hwas (by split <;> rfl)) ?_)
      exact fun hreason => hpauses (hreason.resolve_left (by split <;> simp))
  | held =>
      have hpaused : job.pausePending.1.Follows history :=
        hf.restate (fun old hold => by cases old <;> first | rfl | cases hold) rfl
      exact hsilent (fun _ => rfl) fun planned hplanned => (hpaused planned hplanned).with_status .paused
  | resumed =>
      have hpending : job.resumePaused.1.Follows history :=
        hf.restate (fun old hold => by rw [beq_iff_eq.mp hold]; rfl) rfl
      exact hsilent (fun _ => rfl) fun planned hplanned => (hpending planned hplanned).with_status _
  | dropped => exact hsilent (fun _ => rfl) hf
  | @killed task card ended hcard hpartition hended =>
      obtain rfl : card.task.id = task := hs.board.wired.id_of_card hcard
      have htally := hf.tallies hs hcard
      obtain ⟨old, hold, hfits, hpauses⟩ := htally.shown
      have hadded : (job.addingResult card (.killed card.task.id)).Sound :=
        (advances_books hs _ job.executions).sound
      have hmoved := (moved_terminated hadded hcard hpartition hended card.parents .killed).1
      have hnote : job.noted card.task.id (.killTask card.task.id) = [.killed] :=
        if_pos ⟨rfl, by rw [Board.placeOf_of_card hcard]; exact hpartition⟩
      have hkeeps := keepsBooks_terminated hadded hcard hended card.parents .killed
      have hunfinished : old ≠ .finished := by
        rintro rfl
        obtain ⟨shown, hshown, hterminated, -⟩ := hs.agrees _ _ (Board.placeOf_of_card hcard)
        obtain rfl := Option.some.inj (hold.symm.trans hshown)
        rw [hterminated.mp rfl] at hpartition
        cases hpartition
      refine (hf.note hs hcard (hmoved.congr ⟨rfl, rfl, rfl⟩ ⟨rfl, rfl, rfl⟩) (.inr (.inr rfl)) hnote
        ((htally.enters.added rfl _).keep hkeeps) (hfits.killed hunfinished) ?_).errorCleared
      exact fun hreason => hreason.elim (fun herror => by cases herror) fun hrerun => hpauses (.inr hrerun)
  | @restarted task hjob herror =>
      obtain ⟨card, hcard, -⟩ := Board.placeOf_eq_ok_iff.mp (hs.placeOf_of_inError hjob herror)
      obtain rfl : card.task.id = task := hs.board.wired.id_of_card hcard
      have htally := hf.tallies hs hcard
      obtain ⟨old, hold, hfits, hpauses⟩ := htally.shown
      obtain rfl := Option.some.inj (hold.symm.trans herror)
      have hpause := hpauses (.inl rfl)
      have hpos := hs.maxExecutions_pos (Board.Wired.mem_of_card hcard)
      exact (hf.note hs hcard (moved_restarted hs hjob herror) (.inr (.inl rfl)) (if_pos ⟨rfl, herror⟩)
        (htally.enters.reset.keep (keepsBooks_restarted _ _))
        (hfits.restarted hpos (by split <;> rfl)) fun _ => hpause).errorCleared
  | @finished task card ended hcard hplace hended herror =>
      obtain rfl : card.task.id = task := hs.board.wired.id_of_card hcard
      have htally := hf.tallies hs hcard
      obtain ⟨old, hold, hfits, hpauses⟩ := htally.shown
      obtain rfl := Option.some.inj (hold.symm.trans herror)
      have hmoved := (moved_terminated hs hcard (by rw [hplace]; rfl) hended card.parents .faulty).1
      refine hsilent (fun _ => rfl) (hf.moved hs hcard hmoved (fun _ _ => rfl)
        (htally.enters.keep (keepsBooks_terminated hs hcard hended _ _)) hfits.faulty ?_).errorCleared
      exact fun hreason => hpauses (.inr (hreason.resolve_left (by simp)))
  | @reprioritized id wanted =>
      refine hsilent (fun _ => rfl) fun planned hplanned => ?_
      have htally := hf planned hplanned
      exact ⟨htally.executions, htally.all, htally.exceptions, htally.shown⟩

theorem Follows.served (accepts : Card → Bool) (budget : Nat) :
    (job.served (Selection.among accepts budget job.board.eligibleCards)).Follows history := by
  have hserved := (advances_served hs accepts budget).sound
  have hsame := undisturbed_served job (Selection.among accepts budget job.board.eligibleCards)
  have hcards : (job.served (Selection.among accepts budget job.board.eligibleCards)).board.cards.map Card.task =
      job.board.cards.map Card.task := by
    have hresolved := hserved.resolved
    rw [hsame.submission, hsame.id, hs.resolved] at hresolved
    exact (Except.ok.inj hresolved).symm
  intro planned hplanned
  rw [hcards] at hplanned
  obtain ⟨card, hcard, rfl⟩ := List.mem_map.mp hplanned
  have hjob : card.task.id.job = job.id :=
    (Board.card_eq_ok_iff.mp (hs.board.wired.card_id_of_mem hcard)).1
  have htally := hf card.task hplanned
  obtain ⟨old, hold, hfits, hpauses⟩ := htally.shown
  have hshown := statusOf?_served hs accepts budget hjob
  refine ⟨hsame.executions ▸ htally.executions, hsame.results ▸ htally.all,
    hsame.results ▸ htally.exceptions, ?_⟩
  rw [hshown, hsame.submission]
  split
  · rename_i hstarts
    have hopen := hs.isOpen_of_placeOf (placeOf_of_starts hs accepts budget hstarts) (by simp) (by simp) hold
    exact ⟨.running, rfl, hfits.reopen hopen rfl, fun hreason => hpauses (.inr (hreason.resolve_left (by simp)))⟩
  · exact ⟨old, hold, hfits, hpauses⟩

-- The record of a job shows the last results and the last exceptions of its tasks.
theorem Follows.closing (status : JobStatus) {card : Card} (hcard : card ∈ job.board.cards) :
    (job.closing status).results.all.find? card.name =
        (Account.closed card.task (history card.id)).recorded.getLast? ∧
      (job.closing status).results.exceptions.find? card.name =
        (Account.closed card.task (history card.id)).exception? := by
  have htally : job.Tallies card.task (.of card.task (history card.id)) :=
    hf card.task (List.mem_map_of_mem hcard)
  have hnodup : (job.declared.map (·.name)).Nodup := by
    rw [map_name_declared hs]
    exact Submission.nodup_names_of_resolve hs.resolved
  obtain ⟨hall, hexceptions⟩ := JobResult.find?_reconcile_of_mem job.results hnodup
    (List.mem_map_of_mem hcard : (⟨card.name, card.id, card.task.precious⟩ : Declared) ∈ job.declared)
  rw [results_closing, JobResult.mark, Account.closed, Account.getLast?_close, Account.exception?_close]
  refine ⟨hall.trans ?_, hexceptions.trans ?_⟩
  · rw [← htally.all]
    rfl
  · rw [← htally.all, ← htally.exceptions]
    rfl

end Follows

-- Of a new job nothing has been told.
theorem follows_of_new {id : JobId} {submission : Submission} {job : LiveJob}
    (h : LiveJob.new id submission = .ok job) {history : TaskId → List Note}
    (hsilent : ∀ task, task.job = id → history task = []) : job.Follows history := by
  have hfresh := fresh_of_new h
  have hs := hfresh.sound
  obtain ⟨tasks, board, -, -, rfl⟩ := new_eq_ok h
  intro planned hplanned
  obtain ⟨card, hcard, rfl⟩ := List.mem_map.mp hplanned
  obtain ⟨hjob, hindex⟩ := Board.card_eq_ok_iff.mp (hs.board.wired.card_id_of_mem hcard)
  obtain ⟨hlt, -⟩ := List.getElem?_eq_some_iff.mp hindex
  have hsize : card.task.id.index < board.size := hlt
  rw [hsilent card.task.id (hjob.trans hfresh.id)]
  exact ⟨by simp [ofBoard, Account.of, Account.opened, hsize], rfl, rfl, .submitted,
    by simp [statusOf?, ofBoard, hsize], Account.fits_opened (hs.maxExecutions_pos hcard) rfl,
    fun hreason => by rcases hreason with herror | hrerun <;> contradiction⟩

-- Where an event uses up no execution and gives none back, the counts are as before.
theorem Outcome.executions_eq {job job' : LiveJob} (hs : job.Sound) {event : Event} {fate : Fate}
    (h : job.Outcome event fate job') (hspares : event.sparesExecutions) :
    job'.executions = job.executions := by
  cases h with
  | untouched | dropped | reprioritized => rfl
  | lost => exact (keepsBooks_requeued _ _ _).executions
  | held => exact (job.keepsBooks_restate awaitsStart .paused).executions
  | resumed => exact (job.keepsBooks_restate (· == .paused) .pending).executions
  | @killed task card ended hcard _ hended =>
      have hadded : (job.addingResult card (.killed task)).Sound := (advances_books hs _ job.executions).sound
      have hkeeps := keepsBooks_terminated hadded hcard hended card.parents .killed
      exact (hkeeps.trans (keepsBooks_errorCleared _)).executions
  | retried | heldInError | canceled | concluded | restarted | finished => cases hspares

-- No task has been looked at more often by dispatch passes, or has used up more executions.
structure Within (job : LiveJob) (passes uses : Nat) : Prop where
  attempts : ∀ count ∈ job.board.attempts, count ≤ passes
  executions : ∀ count ∈ job.executions, count ≤ uses

theorem Within.mono {job : LiveJob} {passes uses passes' uses' : Nat} (h : job.Within passes uses)
    (hpasses : passes ≤ passes') (huses : uses ≤ uses') : job.Within passes' uses' where
  attempts count hcount := Nat.le_trans (h.attempts count hcount) hpasses
  executions count hcount := Nat.le_trans (h.executions count hcount) huses

theorem within_of_new {id : JobId} {submission : Submission} {job : LiveJob}
    (h : new id submission = .ok job) : job.Within 0 0 := by
  obtain ⟨tasks, board, -, hbuild, rfl⟩ := new_eq_ok h
  exact ⟨fun count hcount => Nat.le_of_eq (Board.untried_of_build hbuild count hcount),
    fun count hcount => Nat.le_of_eq (List.eq_of_mem_replicate hcount)⟩

theorem within_of_revive {persisted : PersistedJob} {job : LiveJob} (h : persisted.revive = .ok job)
    {bound : Nat} (hbound : ∀ name count, persisted.executions.find? name = some count → count ≤ bound) :
    job.Within 0 bound := by
  refine ⟨fun count hcount => Nat.le_of_eq (PersistedJob.untried_of_revive h count hcount), ?_⟩
  obtain ⟨rebuilt, board, -, -, rfl⟩ := PersistedJob.revive_eq_ok_iff.mp h
  have hkept : ∀ count ∈ (persisted.restored board).executions, count ≤ bound := by
    intro count hcount
    obtain ⟨card, -, rfl⟩ := List.mem_map.mp hcount
    cases hfind : persisted.executions.find? card.name with
    | none => exact Nat.zero_le _
    | some count => exact hbound _ count hfind
  split
  · rw [pausePending, (keepsBooks_restate _ awaitsStart .paused).executions]
    exact hkept
  · exact hkept

-- An event uses up one execution at most.
theorem Outcome.within {job job' : LiveJob} (hs : job.Sound) {event : Event} {fate : Fate}
    (h : job.Outcome event fate job') {passes uses : Nat} (hwithin : job.Within passes uses) :
    job'.Within passes (uses + 1) := by
  refine ⟨(h.stops hs).attempts.symm ▸ hwithin.attempts, ?_⟩
  have hsame : ∀ count ∈ job.executions, count ≤ uses + 1 :=
    fun count hcount => Nat.le_succ_of_le (hwithin.executions count hcount)
  have hconsumed (task : TaskId) : ∀ count ∈ (job.consumeExecution task).executions, count ≤ uses + 1 := by
    intro count hcount
    obtain ⟨index, hindex⟩ := List.mem_iff_getElem?.mp hcount
    rw [consumeExecution, List.getElem?_modify, Option.map_eq_map, Option.map_eq_some_iff] at hindex
    obtain ⟨before, hbefore, rfl⟩ := hindex
    have hle := hwithin.executions before (List.mem_of_getElem? hbefore)
    split <;> omega
  have hbooks (task : TaskId) (card : Card) (result : TaskResult) :
      ((job.consumeExecution task).addingResult card result).Sound := (advances_books hs _ _).sound
  cases h with
  | untouched | dropped | reprioritized => exact hsame
  | lost => rwa [(keepsBooks_requeued _ _ _).executions]
  | held => rwa [(keepsBooks_held job).executions]
  | resumed => rwa [(keepsBooks_resumed job).executions]
  | retried =>
      rw [(keepsBooks_requeued _ _ _).executions]
      exact hconsumed _
  | heldInError =>
      rw [(keepsBooks_heldInError _).executions]
      exact hconsumed _
  | canceled hcard _ hended | concluded hcard _ hended =>
      rw [LiveJob.concluded, (keepsBooks_terminated (hbooks _ _ _) hcard hended _ _).executions]
      exact hconsumed _
  | @killed task card _ hcard _ hended =>
      have hadded : (job.addingResult card (.killed task)).Sound := (advances_books hs _ job.executions).sound
      rw [LiveJob.killed, (keepsBooks_errorCleared _).executions,
        (keepsBooks_terminated hadded hcard hended _ _).executions]
      exact hsame
  | finished hcard _ hended =>
      rw [(keepsBooks_errorCleared _).executions, (keepsBooks_terminated hs hcard hended _ _).executions]
      exact hsame
  | @restarted task =>
      rw [(keepsBooks_errorCleared _).executions, (keepsBooks_restarted job task).executions]
      intro count hcount
      rcases List.mem_or_eq_of_mem_set hcount with hold | rfl
      · exact hsame count hold
      · exact Nat.zero_le _

-- A pass looks at a task once.
theorem Marked.within {walk : Walk} {job job' : LiveJob} (h : job.Marked walk job') {passes uses : Nat}
    (hwithin : job.Within passes uses) : job'.Within (passes + 1) uses := by
  refine ⟨fun count hcount => ?_, h.undisturbed.executions.symm ▸ hwithin.executions⟩
  rw [Board.attempts, h.cards, List.map_map] at hcount
  obtain ⟨card, hcard, rfl⟩ := List.mem_map.mp hcount
  have hle := hwithin.attempts card.attempts (List.mem_map_of_mem hcard)
  rw [Function.comp_apply, Walk.mark]
  split
  · exact Nat.succ_le_succ hle
  · split
    · exact Nat.succ_le_succ hle
    · exact Nat.le_succ_of_le hle

end LiveJob

end JobScheduler
