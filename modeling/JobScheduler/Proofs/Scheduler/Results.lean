import JobScheduler.Proofs.Job.Release
import JobScheduler.Proofs.Scheduler.Journal
import JobScheduler.Proofs.Scheduler.Lasting

namespace JobScheduler

-- The results of a job show what was told of its tasks. Its exceptions are kept even if a
-- task that was restarted has had another result since.
structure JobResult.Recounts (results : JobResult) (tasks : List PlannedTask)
    (history : TaskId → List Note) : Prop where
  listed : ∀ name, results.all.contains name ↔ name ∈ tasks.map (·.name)
  within : ∀ name, results.precious.contains name ∨ results.exceptions.contains name →
    results.all.contains name
  last : ∀ task ∈ tasks, results.all.find? task.name =
    (Account.closed task (history task.id)).recorded.getLast?
  precious : ∀ task ∈ tasks, results.precious.find? task.name =
    if task.precious then results.all.find? task.name else none
  exceptions : ∀ task ∈ tasks, results.exceptions.find? task.name =
    (Account.closed task (history task.id)).exception?
  steady : ∀ task ∈ tasks, .restarted ∉ history task.id → results.exceptions.find? task.name =
    (results.all.find? task.name).filter (·.isSettledException)
  hadException : results.hadException ↔ ∃ task ∈ tasks,
    ∃ result ∈ (Account.closed task (history task.id)).recorded, result.isSettledException

-- What did not end well is listed as an exception, unless all that was recorded of it was
-- still on its way. The last of that is its result then.
structure Summary.ListsFailures (summary : Summary) (tasks : List PlannedTask)
    (history : TaskId → List Note) : Prop where
  shown : ∀ name, summary.tasks.contains name ↔ name ∈ tasks.map (·.name)
  listed : ∀ task ∈ tasks, ∀ status ∈ [.faulty, .killed, .aborted],
    summary.tasks.find? task.name = some status →
      (summary.results.exceptions.contains task.name ↔
        ¬(Account.of task (history task.id)).AllPending)
  killed : ∀ task ∈ tasks, summary.tasks.find? task.name = some .killed →
    summary.results.exceptions.contains task.name
  awaited : ∀ task ∈ tasks, (Account.of task (history task.id)).AllPending →
    ∃ result, summary.results.all.find? task.name = some result ∧ result.pending ∧ result.hadException

-- The exceptions of a job are those of its tasks.
theorem JobResult.hadException_iff {results : JobResult} {tasks : List PlannedTask}
    (h : ∀ name, results.exceptions.contains name → name ∈ tasks.map (·.name)) :
    results.hadException ↔ ∃ task ∈ tasks, (results.exceptions.find? task.name).isSome := by
  rw [hadException, Bool.not_eq_true', Bool.eq_false_iff, Ne, SortedMap.isEmpty_iff]
  constructor
  · intro hsome
    obtain ⟨name, hname⟩ := not_forall.mp hsome
    have hcontains := Option.isSome_iff_ne_none.mpr hname
    obtain ⟨task, htask, rfl⟩ := List.mem_map.mp (h name hcontains)
    exact ⟨task, htask, hcontains⟩
  · rintro ⟨task, -, hsome⟩ hnone
    rw [hnone] at hsome
    cases hsome

-- While no task was restarted, the last results tell whether there was an exception.
theorem JobResult.Recounts.hadException_of_steady {results : JobResult} {tasks : List PlannedTask}
    {history : TaskId → List Note} (h : results.Recounts tasks history)
    (hfirst : ∀ task ∈ tasks, .restarted ∉ history task.id) :
    results.hadException ↔ ∃ task ∈ tasks, ∃ result,
      results.all.find? task.name = some result ∧ result.isSettledException := by
  rw [hadException_iff fun name hname => (h.listed name).mp (h.within name (.inr hname))]
  refine exists_congr fun task => and_congr_right fun htask => ?_
  rw [h.steady task htask (hfirst task htask)]
  cases results.all.find? task.name <;> simp [Option.isSome_filter]

namespace LiveJob

variable {job : LiveJob} (hs : job.Sound) {submission : Submission} (hc : job.CarriesOut submission)
  {history : TaskId → List Note} (hf : job.Follows history)
include hs hc hf

-- The record of a job recounts what was told of its tasks.
theorem recounts_closing (status : JobStatus) :
    (job.closing status).results.Recounts (job.board.cards.map Card.task) history := by
  obtain ⟨haccounts, hall⟩ := accounts_closing hs hc status
  have hnames : (job.board.cards.map Card.task).map (·.name) = submission.tasks.map (·.name) := by
    rw [← hc.tasks, ← map_name_cards hs, List.map_map]
    rfl
  have hlisted (name : String) : (job.closing status).results.all.contains name ↔
      name ∈ (job.board.cards.map Card.task).map (·.name) := by
    rw [hnames]
    refine ⟨haccounts.declared name, fun hname => ?_⟩
    obtain ⟨task, htask, rfl⟩ := List.mem_map.mp hname
    exact hall task htask
  have hexceptions : ∀ task ∈ job.board.cards.map Card.task,
      (job.closing status).results.exceptions.find? task.name =
        (Account.closed task (history task.id)).exception? := fun task htask => by
    obtain ⟨card, hcard, rfl⟩ := List.mem_map.mp htask
    exact (hf.closing hs status hcard).2
  constructor
  case listed => exact hlisted
  case within => exact fun _ => haccounts.within
  case last =>
    intro task htask
    obtain ⟨card, hcard, rfl⟩ := List.mem_map.mp htask
    exact (hf.closing hs status hcard).1
  case precious =>
    intro task htask
    obtain ⟨card, hcard, rfl⟩ := List.mem_map.mp htask
    obtain ⟨task, htask, hname, hprecious⟩ := hs.declared hcard
    have hkept := haccounts.find?_precious (hc.nodup_names hs) (hc.tasks ▸ htask)
    rwa [hname, hprecious] at hkept
  case exceptions => exact hexceptions
  case steady =>
    intro task htask hfirst
    obtain ⟨card, hcard, rfl⟩ := List.mem_map.mp htask
    obtain ⟨shown, -, hfits, -⟩ := (hf card.task htask).shown
    have hrerun : (Account.of card.task (history card.task.id)).rerun = false :=
      Bool.eq_false_iff.mpr fun hrerun => hfirst ((Account.rerun_of _ _).mp hrerun)
    rw [hexceptions card.task htask, show (job.closing status).results.all.find? card.task.name = _ from
      (hf.closing hs status hcard).1]
    exact hfits.exception?_close hrerun
  case hadException =>
    rw [JobResult.hadException_iff fun name hname => (hlisted name).mp (haccounts.within (.inr hname))]
    refine exists_congr fun task => and_congr_right fun htask => ?_
    rw [hexceptions task htask]
    exact Account.isSome_exception?_iff

omit hc

-- The record shows a task of the board where it has got to, which fits what was told of it.
theorem exists_shown_closing_of_card (status : JobStatus) {card : Card} (hcard : card ∈ job.board.cards) :
    ∃ old, (Account.of card.task (history card.task.id)).Fits card.task old ∧
      (job.closing status).tasks.find? card.name = some (if old.isTerminated then old else .aborted) := by
  have hid := hs.board.wired.card_id_of_mem hcard
  obtain ⟨task, htask, hname⟩ := hs.laysOut.task_of_card hid
  obtain ⟨old, hold, hfind⟩ := exists_shown_closing hs status htask
  obtain ⟨shown, hshown, hfits, -⟩ := (hf card.task (List.mem_map_of_mem hcard)).shown
  have htaskId : card.task.id = ⟨job.id, card.id.index⟩ := by
    rw [LiveJob.id, ← (Board.card_eq_ok_iff.mp hid).1]
    rfl
  rw [htaskId, hold, Option.some.injEq] at hshown
  subst hshown
  exact ⟨old, hfits, hname ▸ hfind⟩

theorem listsFailures_closing (status : JobStatus) :
    (job.closing status).ListsFailures (job.board.cards.map Card.task) history := by
  have hexceptions {card : Card} (hcard : card ∈ job.board.cards) {old : TaskStatus}
      (hfits : (Account.of card.task (history card.task.id)).Fits card.task old) (hstatus : old ≠ .finished) :
      (job.closing status).results.exceptions.contains card.task.name ↔
        ¬(Account.of card.task (history card.task.id)).AllPending := by
    have hclosing : (job.closing status).results.exceptions.find? card.task.name =
        (Account.closed card.task (history card.task.id)).exception? := (hf.closing hs status hcard).2
    rw [SortedMap.contains, hclosing]
    exact hfits.isSome_exception?_close hstatus
  constructor
  case shown =>
    intro name
    rw [closing_tasks_contains hs, ← map_name_cards hs, List.map_map]
    rfl
  case listed =>
    intro task htask shown hshown hfind
    obtain ⟨card, hcard, rfl⟩ := List.mem_map.mp htask
    obtain ⟨old, hfits, hold⟩ := exists_shown_closing_of_card hs hf status hcard
    refine hexceptions hcard hfits ?_
    rintro rfl
    obtain rfl : TaskStatus.finished = shown := Option.some.inj (hold.symm.trans hfind)
    simp at hshown
  case killed =>
    intro task htask hfind
    obtain ⟨card, hcard, rfl⟩ := List.mem_map.mp htask
    obtain ⟨old, hfits, hold⟩ := exists_shown_closing_of_card hs hf status hcard
    obtain rfl : old = .killed := by
      have hshown := Option.some.inj (hold.symm.trans hfind)
      split at hshown
      · exact hshown
      · cases hshown
    exact (hexceptions hcard hfits (by simp)).mpr hfits.not_allPending
  case awaited =>
    intro task htask hpending
    obtain ⟨card, hcard, rfl⟩ := List.mem_map.mp htask
    obtain ⟨last, hlast⟩ := Option.isSome_iff_exists.mp (List.getLast?_isSome.mpr hpending.1)
    have hclosing : (job.closing status).results.all.find? card.task.name =
        (Account.closed card.task (history card.task.id)).recorded.getLast? := (hf.closing hs status hcard).1
    refine ⟨last, ?_, hpending.2 last (List.mem_of_getLast? hlast)⟩
    rw [hclosing, Account.closed, Account.getLast?_close, hlast, Option.getD_some]

end LiveJob

-- The record closes the books of a job that goes back to a submission.
structure LiveJob.ClosesWith (job : LiveJob) (history : TaskId → List Note) (summary : Summary) : Prop where
  sound : job.Sound
  submitted : ∃ submission, job.CarriesOut submission
  follows : job.Follows history
  closing : ∃ status, job.closing status = summary

theorem LiveJob.ClosesWith.recounts {job : LiveJob} {history : TaskId → List Note} {summary : Summary}
    (h : job.ClosesWith history summary) :
    summary.results.Recounts (job.board.cards.map Card.task) history := by
  obtain ⟨submission, hcarries⟩ := h.submitted
  obtain ⟨status, rfl⟩ := h.closing
  exact recounts_closing h.sound hcarries h.follows status

theorem LiveJob.ClosesWith.listsFailures {job : LiveJob} {history : TaskId → List Note} {summary : Summary}
    (h : job.ClosesWith history summary) :
    summary.ListsFailures (job.board.cards.map Card.task) history := by
  obtain ⟨status, rfl⟩ := h.closing
  exact listsFailures_closing h.sound h.follows status

namespace Scheduler

-- Where nothing was held back, a step hands out the records of its event.
theorem records_finishStep {scheduler : Scheduler} (hs : scheduler.Sound) (hpending : scheduler.pending = [])
    (policy : Policy) {commands : List Command} (hexit : .exit ∉ commands) :
    Command.records (scheduler.finishStep policy commands).1.commands = Command.records commands := by
  have hrecords := (finishStep_hands_out hs policy (by rwa [hpending])).1
  rwa [hpending] at hrecords

section Steps

variable {scheduler : Scheduler} (hs : scheduler.Sound) {history : TaskId → List Note}
  (h : scheduler.Chronicled history)
  (hcarries : ∀ id job, scheduler.registry.find? id = some job → ∃ submission, job.CarriesOut submission)
include hs h hcarries

-- A record closes the books on all that was told of the tasks of a job, up to the event
-- that has ended it.
theorem Reaction.closes {event : Event} {answer : Except Fault (List Command)} {final : Scheduler}
    (hreaction : scheduler.Reaction event answer final) (policy : Policy) {summary : Summary}
    (hsummary : summary ∈ Command.records (commandsOf answer)) :
    ∃ (job closed : LiveJob), scheduler.registry.find? summary.id = some job ∧
      job.submission.resolve summary.id = .ok (closed.board.cards.map Card.task) ∧
      closed.ClosesWith (fun task => history task ++ scheduler.noted task (.step policy event)) summary := by
  cases hreaction with
  | refused | ignored | joined => cases hsummary
  | wentOn =>
      rw [commandsOf, Command.records, Command.filterMap_summary?_cancelling] at hsummary
      cases hsummary
  | @ended job work job' given status cancelled hattends hturn hwork =>
      rw [commandsOf, Command.records_ending, List.mem_singleton] at hsummary
      subst hsummary
      have hsound := hs.live hattends.2
      have hlater := hturn.advances.sound
      have hid : (job'.closing status).id = job.id := (job'.closing_id status).trans hturn.advances.id
      obtain ⟨submission, hcarries⟩ := hcarries job.id job hattends.2
      have hcarries' : job'.CarriesOut submission :=
        (LiveJob.outcome_of_work? hsound hattends.1 rfl hwork).carriesOut hsound hcarries
      have hfollows : job'.Follows fun task => history task ++ scheduler.noted task (.step policy event) :=
        h.taken hs hattends hwork (by simp) hturn.advances
      refine ⟨job, job', hid ▸ hattends.2, ?_, hlater, ⟨submission, hcarries'⟩, hfollows, status, rfl⟩
      have hresolved := hlater.resolved
      rw [hcarries'.submitted, Submission.resolve_setPriority] at hresolved
      rw [job'.closing_id, hcarries.submitted, Submission.resolve_setPriority]
      exact hresolved

-- Only steps end jobs.
theorem Chronicled.closes {operation : Operation} (hkind : operation.isRecovery = false) {summary : Summary}
    (hsummary : summary ∈ Command.records (scheduler.perform operation).1) :
    ∃ (job closed : LiveJob), scheduler.registry.find? summary.id = some job ∧
      job.submission.resolve summary.id = .ok (closed.board.cards.map Card.task) ∧
      closed.ClosesWith (fun task => history task ++ scheduler.noted task operation) summary := by
  cases operation with
  | submit => cases hsummary
  | recover => cases hkind
  | kickoff policy =>
      change summary ∈ Command.records (scheduler.finishStep policy []).1.commands at hsummary
      rw [records_finishStep hs h.pending policy List.not_mem_nil] at hsummary
      cases hsummary
  | step policy event =>
      by_cases hshutdown : event = .shutdown
      · subst hshutdown
        change summary ∈ Command.records scheduler.pending at hsummary
        rw [h.pending] at hsummary
        cases hsummary
      · have hreaction := SchedulerM.reacts_handle hs event
        have hhandled : (scheduler.run (SchedulerM.handle event)).2.Sound :=
          ((performs_any hs (.step policy event)).handled.sound hs).1
        have hpending := hreaction.pending_eq.trans h.pending
        rw [Scheduler.perform, step_of_ne_shutdown policy hshutdown] at hsummary
        have hrecords := records_finishStep hhandled hpending policy hreaction.not_exit
        exact hreaction.closes hs h hcarries policy (hrecords ▸ hsummary)

theorem Chronicled.recounts {operation : Operation} (hkind : operation.isRecovery = false) {summary : Summary}
    (hsummary : summary ∈ Command.records (scheduler.perform operation).1) :
    ∃ job tasks, scheduler.registry.find? summary.id = some job ∧
      job.submission.resolve summary.id = .ok tasks ∧
      summary.results.Recounts tasks fun task => history task ++ scheduler.noted task operation := by
  obtain ⟨job, closed, hjob, hresolve, hcloses⟩ := h.closes hs hcarries hkind hsummary
  exact ⟨job, _, hjob, hresolve, hcloses.recounts⟩

end Steps

-- In a run without recoveries, the record of a job that ends has the last result recorded
-- of each of its tasks, and once more of those that are precious. An exception is the last
-- one recorded of a task, and while the task was not restarted that is its last result. No
-- job may have been given the last id.
theorem ended_recounts (total : Nat) {operations : List Operation} {operation : Operation}
    (hkinds : ∀ other ∈ operations ++ [operation], other.isRecovery = false)
    (hlast : .last ∉ (Scheduler.new total).ids operations) {summary : Summary}
    (hsummary : summary ∈ Command.records (((Scheduler.new total).reached operations).perform operation).1) :
    ∃ job tasks, ((Scheduler.new total).reached operations).registry.find? summary.id = some job ∧
      job.submission.resolve summary.id = .ok tasks ∧
      (summary.results.Recounts tasks fun task =>
        (Scheduler.new total).journal task (operations ++ [operation])) ∧
      ((∀ task ∈ tasks, .restarted ∉ (Scheduler.new total).journal task.id (operations ++ [operation])) →
        (summary.results.hadException ↔ ∃ task ∈ tasks, ∃ result,
          summary.results.all.find? task.name = some result ∧ result.isSettledException)) := by
  obtain ⟨hbefore, hnow⟩ := List.forall_mem_append.mp hkinds
  have hchronicled := chronicled_reached hbefore hlast
  obtain ⟨job, tasks, hjob, hresolve, hrecounts⟩ := hchronicled.recounts (sound_reached total operations)
    (fun _ _ => Ledger.carriesOut_reached total operations) (hnow operation (List.mem_singleton.mpr rfl))
    hsummary
  simp only [← journal_concat] at hrecounts
  exact ⟨job, tasks, hjob, hresolve, hrecounts, hrecounts.hadException_of_steady⟩

-- The first task fails, is killed while it is executed again, and the second one succeeds.
theorem ended_recounts_patientRelease :
    let first : TaskId := ⟨⟨0⟩, 0⟩
    let second : TaskId := ⟨⟨0⟩, 1⟩
    let policy := Policy.acceptAll true
    let operations := [.submit patientRelease, .kickoff policy,
      .step policy (.completed first (.failure first "exit code 2")), .step policy (.killTask first)]
    let operation := .step policy (.completed second (.success second ""))
    (∀ other ∈ operations ++ [operation], other.isRecovery = false) ∧
    ∃ summary ∈ Command.records (((Scheduler.new 2).reached operations).perform operation).1,
      summary.results.all.find? "a" = some (.killed first) ∧
      summary.results.precious.find? "a" = some (.killed first) ∧
      summary.results.exceptions.find? "a" = some (.killed first) ∧ summary.results.hadException := by
  intro first second policy operations operation
  have hkinds : ∀ other ∈ operations ++ [operation], other.isRecovery = false := by decide
  have hjournal : (Scheduler.new 2).journal first (operations ++ [operation]) =
      [.reported (.failure first "exit code 2"), .killed] := by
    rw [List.cons_append, journal_submit (.new 2) resolve_patientRelease]
    decide +kernel
  have hsubmission : (((Scheduler.new 2).reached operations).registry.find? ⟨0⟩).map (·.submission) =
      some patientRelease := by
    rw [reached_submit (.new 2) resolve_patientRelease]
    decide +kernel
  have hended : (Command.records (((Scheduler.new 2).reached operations).perform operation).1).map
      Summary.id = [⟨0⟩] := by
    rw [reached_submit (.new 2) resolve_patientRelease]
    decide +kernel
  obtain ⟨summary, hsummary, hid⟩ := List.mem_map.mp (hended ▸ List.mem_singleton.mpr rfl)
  have hlast : .last ∉ (Scheduler.new 2).ids operations :=
    last_not_mem_ids 2 0 (by simp [operations]) (by decide)
  obtain ⟨job, tasks, hjob, hresolve, hrecounts, -⟩ := ended_recounts 2 hkinds hlast hsummary
  rw [hid] at hjob hresolve
  rw [hjob, Option.map_some, Option.some.injEq] at hsubmission
  rw [hsubmission, resolve_patientRelease, Except.ok.injEq] at hresolve
  subst hresolve
  have hplanned : ⟨first, "a", "make", 1, true, 2, []⟩ ∈ patientRelease.plan ⟨0⟩ := by decide
  have hall : summary.results.all.find? "a" = some (.killed first) := by
    rw [hrecounts.last _ hplanned, hjournal]
    rfl
  have hexception : summary.results.exceptions.find? "a" = some (.killed first) := by
    rw [hrecounts.exceptions _ hplanned, hjournal]
    rfl
  refine ⟨hkinds, summary, hsummary, hall, (hrecounts.precious _ hplanned).trans hall, hexception, ?_⟩
  rw [hrecounts.hadException]
  refine ⟨_, hplanned, .killed first, ?_, rfl⟩
  rw [hjournal]
  exact List.mem_singleton.mpr rfl

-- A release that holds failed tasks until a client decides.
def heldRelease : Submission := { release with pauseOnError := true }

theorem resolve_heldRelease : heldRelease.resolve ⟨0⟩ = .ok (heldRelease.plan ⟨0⟩) :=
  resolve_of_graph heldRelease rfl rfl rfl rfl ⟨0⟩

-- The first task fails, is restarted by a client and succeeds, and so does the second one.
-- The record still has the exception, though no last result is one.
theorem exception_kept_heldRelease :
    let first : TaskId := ⟨⟨0⟩, 0⟩
    let second : TaskId := ⟨⟨0⟩, 1⟩
    let policy := Policy.acceptAll true
    let operations := [.submit heldRelease, .kickoff policy,
      .step policy (.completed first (.failure first "exit code 2")), .step policy (.restart first),
      .step policy (.completed first (.success first ""))]
    let operation := .step policy (.completed second (.success second ""))
    (∀ other ∈ operations ++ [operation], other.isRecovery = false) ∧
    ∃ summary ∈ Command.records (((Scheduler.new 2).reached operations).perform operation).1,
      summary.results.all.find? "a" = some (.success first "") ∧
      summary.results.all.find? "b" = some (.success second "") ∧
      summary.results.exceptions.find? "a" = some (.failure first "exit code 2") ∧
      (∀ result ∈ summary.results.all.values, ¬result.isSettledException) ∧
      summary.results.hadException := by
  intro first second policy operations operation
  have hended : (Command.records (((Scheduler.new 2).reached operations).perform operation).1).map
      (fun summary => (summary.results.all.find? "a", summary.results.all.find? "b",
        summary.results.exceptions.find? "a", summary.results.all.values.map (·.isSettledException),
        summary.results.hadException)) =
      [(some (.success first ""), some (.success second ""), some (.failure first "exit code 2"),
        [false, false], true)] := by
    rw [reached_submit (.new 2) resolve_heldRelease]
    decide +kernel
  obtain ⟨summary, hsummary, hshown⟩ := List.mem_map.mp (hended ▸ List.mem_singleton.mpr rfl)
  simp only [Prod.mk.injEq] at hshown
  obtain ⟨hfirst, hsecond, hexception, hsettled, hhad⟩ := hshown
  refine ⟨by decide, summary, hsummary, hfirst, hsecond, hexception, fun result hresult hexceptional => ?_, hhad⟩
  have hmem := List.mem_map_of_mem (f := (·.isSettledException)) hresult
  rw [hsettled, hexceptional] at hmem
  simp at hmem

-- In a run without recoveries, the record of a job that ends lists as exceptions all that
-- failed, was killed or was given up, unless all that was recorded of it was still on its
-- way. No job may have been given the last id.
theorem ended_lists_failures (total : Nat) {operations : List Operation} {operation : Operation}
    (hkinds : ∀ other ∈ operations ++ [operation], other.isRecovery = false)
    (hlast : .last ∉ (Scheduler.new total).ids operations) {summary : Summary}
    (hsummary : summary ∈ Command.records (((Scheduler.new total).reached operations).perform operation).1) :
    ∃ job tasks, ((Scheduler.new total).reached operations).registry.find? summary.id = some job ∧
      job.submission.resolve summary.id = .ok tasks ∧
      summary.ListsFailures tasks fun task =>
        (Scheduler.new total).journal task (operations ++ [operation]) := by
  obtain ⟨hbefore, hnow⟩ := List.forall_mem_append.mp hkinds
  have hchronicled := chronicled_reached hbefore hlast
  obtain ⟨job, closed, hjob, hresolve, hcloses⟩ := hchronicled.closes (sound_reached total operations)
    (fun _ _ => Ledger.carriesOut_reached total operations) (hnow operation (List.mem_singleton.mpr rfl)) hsummary
  simp only [← journal_concat] at hcloses
  exact ⟨job, _, hjob, hresolve, hcloses.listsFailures⟩

-- The first task fails with a result that is still on its way, and the job is killed while a
-- client has yet to decide. Only the second task is listed.
theorem ended_lists_failures_heldRelease :
    let first : TaskId := ⟨⟨0⟩, 0⟩
    let policy := Policy.acceptAll true
    let operations := [.submit heldRelease, .kickoff policy,
      .step policy (.completed first { TaskResult.failure first "exit code 2" with pending := true })]
    let operation := .step policy (.kill ⟨0⟩)
    (∀ other ∈ operations ++ [operation], other.isRecovery = false) ∧
    ∃ summary ∈ Command.records (((Scheduler.new 2).reached operations).perform operation).1,
      summary.tasks.find? "a" = some .aborted ∧ ¬summary.results.exceptions.contains "a" ∧
      summary.tasks.find? "b" = some .aborted ∧ summary.results.exceptions.contains "b" := by
  intro first policy operations operation
  let second : TaskId := ⟨⟨0⟩, 1⟩
  have hkinds : ∀ other ∈ operations ++ [operation], other.isRecovery = false := by decide
  have hpending : (Account.of ⟨first, "a", "make", 1, false, 1, []⟩
      ((Scheduler.new 2).journal first (operations ++ [operation]))).AllPending := by
    rw [List.cons_append, journal_submit (.new 2) resolve_heldRelease]
    decide +kernel
  have hunreported : ¬(Account.of ⟨second, "b", "make test", 1, false, 1, [first]⟩
      ((Scheduler.new 2).journal second (operations ++ [operation]))).AllPending := by
    rw [List.cons_append, journal_submit (.new 2) resolve_heldRelease]
    decide +kernel
  have hsubmission : (((Scheduler.new 2).reached operations).registry.find? ⟨0⟩).map (·.submission) =
      some heldRelease := by
    rw [reached_submit (.new 2) resolve_heldRelease]
    decide +kernel
  have hended : (Command.records (((Scheduler.new 2).reached operations).perform operation).1).map
      (fun summary => (summary.id, summary.tasks.find? "a", summary.tasks.find? "b")) =
      [(⟨0⟩, some .aborted, some .aborted)] := by
    rw [reached_submit (.new 2) resolve_heldRelease]
    decide +kernel
  obtain ⟨summary, hsummary, hshown⟩ := List.mem_map.mp (hended ▸ List.mem_singleton.mpr rfl)
  simp only [Prod.mk.injEq] at hshown
  obtain ⟨hid, hfirst, hsecond⟩ := hshown
  have hlast : .last ∉ (Scheduler.new 2).ids operations :=
    last_not_mem_ids 2 0 (by simp [operations]) (by decide)
  obtain ⟨job, tasks, hjob, hresolve, hlists⟩ := ended_lists_failures 2 hkinds hlast hsummary
  rw [hid] at hjob hresolve
  rw [hjob, Option.map_some, Option.some.injEq] at hsubmission
  rw [hsubmission, resolve_heldRelease, Except.ok.injEq] at hresolve
  subst hresolve
  refine ⟨hkinds, summary, hsummary, hfirst, fun hcontains => ?_, hsecond, ?_⟩
  · exact (hlists.listed ⟨first, "a", "make", 1, false, 1, []⟩ (by decide) .aborted (by simp) hfirst).mp
      hcontains hpending
  · exact (hlists.listed ⟨second, "b", "make test", 1, false, 1, [first]⟩ (by decide) .aborted (by simp)
      hsecond).mpr hunreported

-- The first task fails with a result that is still on its way and the second one succeeds.
-- The first one is shown as faulty, but it is not listed.
theorem faulty_not_listed_release :
    let first : TaskId := ⟨⟨0⟩, 0⟩
    let second : TaskId := ⟨⟨0⟩, 1⟩
    let policy := Policy.acceptAll true
    let operations := [.submit release, .kickoff policy,
      .step policy (.completed first { TaskResult.failure first "exit code 2" with pending := true })]
    let operation := .step policy (.completed second (.success second ""))
    (∀ other ∈ operations ++ [operation], other.isRecovery = false) ∧
    ∃ summary ∈ Command.records (((Scheduler.new 2).reached operations).perform operation).1,
      summary.tasks.find? "a" = some .faulty ∧ ¬summary.results.exceptions.contains "a" := by
  intro first second policy operations operation
  have hended : (Command.records (((Scheduler.new 2).reached operations).perform operation).1).map
      (fun summary => (summary.tasks.find? "a", summary.results.exceptions.contains "a")) =
      [(some .faulty, false)] := by
    rw [reached_submit (.new 2) resolve_release]
    decide +kernel
  obtain ⟨summary, hsummary, hshown⟩ := List.mem_map.mp (hended ▸ List.mem_singleton.mpr rfl)
  simp only [Prod.mk.injEq] at hshown
  exact ⟨by decide, summary, hsummary, hshown.1, Bool.not_eq_true _ ▸ hshown.2⟩

end Scheduler

end JobScheduler
