import JobScheduler.Proofs.Scheduler.Balance
import JobScheduler.Proofs.Scheduler.Starts

namespace JobScheduler

namespace Scheduler

-- Where the records of the jobs go that end in an operation. A step hands them out, after
-- those that were held back. A recovery ends only jobs that it has taken in itself, and
-- holds their records back.
def Delivers (scheduler : Scheduler) (newly : List Summary) (operation : Operation) : Prop :=
  let commands := (scheduler.perform operation).1
  let after := (scheduler.perform operation).2
  match operation with
  | .submit _ => commands = [] ∧ newly = [] ∧ after.pending = scheduler.pending
  | .recover _ => commands = [] ∧
      Command.records after.pending = Command.records scheduler.pending ++ newly ∧
      ∀ summary ∈ newly, scheduler.registry.find? summary.id = none
  | .kickoff _ | .step .. => after.pending = [] ∧
      Command.records commands = Command.records scheduler.pending ++ newly ∧
      ∀ summary ∈ newly, (scheduler.registry.find? summary.id).isSome

theorem Delivers.records {scheduler : Scheduler} {newly : List Summary} {operation : Operation}
    (h : scheduler.Delivers newly operation) :
    Command.records ((scheduler.perform operation).1 ++ (scheduler.perform operation).2.pending) =
      Command.records scheduler.pending ++ newly := by
  cases operation with
  | submit =>
      obtain ⟨hcommands, hnewly, hpending⟩ := h
      rw [hcommands, hnewly, hpending, List.nil_append, List.append_nil]
  | recover =>
      obtain ⟨hcommands, hrecords, -⟩ := h
      rw [hcommands, List.nil_append, hrecords]
  | kickoff | step =>
      obtain ⟨hpending, hrecords, -⟩ := h
      rw [hpending, List.append_nil, hrecords]

-- One event may end one job, and its commands have the record then.
theorem Reaction.records {scheduler final : Scheduler} {event : Event}
    {answer : Except Fault (List Command)} (hreaction : scheduler.Reaction event answer final) :
    ∀ summary ∈ Command.records (commandsOf answer), (scheduler.registry.find? summary.id).isSome ∧
      final.registry.ended? summary.id = some summary := by
  cases hreaction with
  | refused | ignored | joined => simp [commandsOf, Command.records]
  | @wentOn job work job' given cancelled =>
      have hnone : Command.records (commandsOf (.ok (Command.cancelling cancelled))) = [] :=
        Command.filterMap_summary?_cancelling cancelled
      simp [hnone]
  | @ended job work job' given status cancelled hattends hturn =>
      intro summary hsummary
      rw [commandsOf, Command.records_ending] at hsummary
      obtain rfl := List.mem_singleton.mp hsummary
      refine ⟨?_, (scheduler.ended?_closed job' given status _).trans (if_pos (job'.closing_id status))⟩
      rw [(job'.closing_id status).trans hturn.advances.id, hattends.2]
      rfl

section Steps

variable {scheduler : Scheduler} (hs : scheduler.Counted) {jobs : List (JobId × Submission)}
  {records : List Summary} (hb : scheduler.registry.Balanced jobs records)
include hs hb

theorem balanced_submit (submission : Submission) :
    (scheduler.run (SchedulerM.submit submission)).2.registry.Balanced
      (jobs ++ scheduler.accepted (.submit submission)) records := by
  cases hjob : LiveJob.new ⟨scheduler.registry.nextId⟩ submission with
  | error fault =>
      rw [accepted, run_of_error (SchedulerM.submit_of_refused hjob), List.append_nil]
      exact hb
  | ok job =>
      obtain ⟨hlive, hopen⟩ := hs.free
      rw [← (LiveJob.fresh_of_new hjob).id] at hlive hopen
      rw [accepted_of_new hjob, run_of_ok (SchedulerM.submit_of_new hjob)]
      exact hb.joins hlive hopen (LiveJob.carriesOut_of_new hjob) (scheduler.find?_joined job) fun _ => rfl

theorem Reaction.balanced {event : Event} {answer : Except Fault (List Command)} {final : Scheduler}
    (hevent : ∀ submission, event ≠ .submitted submission)
    (hreaction : scheduler.Reaction event answer final) :
    final.registry.Balanced jobs (records ++ Command.records (commandsOf answer)) := by
  cases hreaction with
  | refused | ignored =>
      rw [commandsOf, Command.records, List.filterMap_nil, List.append_nil]
      exact hb
  | joined heq => exact absurd heq (hevent _)
  | @wentOn job work job' given cancelled hattends hturn hwork =>
      have hsound := hs.toSound.live hattends.2
      have houtcome := LiveJob.outcome_of_work? hsound hattends.1 rfl hwork
      have hnone : Command.records (commandsOf (.ok (Command.cancelling cancelled))) = [] :=
        Command.filterMap_summary?_cancelling cancelled
      rw [hnone, List.append_nil]
      exact hb.goesOn hattends.2 hturn.advances.id (fun _ hc => houtcome.carriesOut hsound hc)
        (scheduler.find?_wentOn job' given) fun _ => rfl
  | @ended job work job' given status cancelled hattends hturn hwork =>
      have hsound := hs.toSound.live hattends.2
      have houtcome := LiveJob.outcome_of_work? hsound hattends.1 rfl hwork
      obtain ⟨hterminal, hdone⟩ := houtcome.ends
      have hid := hturn.advances.id
      have hclosing : (job'.closing status).id = job.id := (job'.closing_id status).trans hid
      rw [commandsOf, Command.records_ending]
      refine hb.ends hattends.2 (hs.apart job.id (by rw [hattends.2]; rfl)) hclosing (fun _ hc => ?_)
        (fun id => ?_) fun id => ?_
      · exact LiveJob.completes_closing hturn.advances.sound (houtcome.carriesOut hsound hc) hterminal hdone
      · rw [← hid]
        exact scheduler.find?_closed job' given status id
      · rw [← hid]
        exact scheduler.ended?_closed job' given status id

theorem balanced_handle (policy : Policy) (event : Event) :
    let handled := scheduler.run (SchedulerM.handle event)
    handled.2.registry.Balanced (jobs ++ scheduler.accepted (.step policy event))
      (records ++ Command.records (commandsOf handled.1)) := by
  intro handled
  have hreaction := SchedulerM.reacts_handle hs.toSound event
  by_cases hsubmitted : ∃ submission, event = .submitted submission
  · obtain ⟨submission, rfl⟩ := hsubmitted
    rw [hreaction.commandsOf_submitted]
    have hsubmit := balanced_submit hs hb submission
    rw [run_submit] at hsubmit
    rw [Command.records, List.filterMap_nil, List.append_nil]
    exact hsubmit
  · have hother (submission : Submission) : event ≠ .submitted submission := fun heq =>
      hsubmitted ⟨submission, heq⟩
    have hnone : scheduler.accepted (.step policy event) = [] := by
      cases event with
      | submitted submission => exact absurd rfl (hother submission)
      | _ => rfl
    rw [hnone, List.append_nil]
    exact hreaction.balanced hs hb hother

end Steps

theorem Serves.balanced {accepts : Card → Bool} {ids : List JobId} {scheduler final : Scheduler}
    {assignments : List Assignment} (hserves : Serves accepts ids scheduler assignments final)
    (hs : scheduler.Sound) {jobs : List (JobId × Submission)} {records : List Summary}
    (hb : scheduler.registry.Balanced jobs records) : final.registry.Balanced jobs records := by
  induction hserves with
  | spent => exact hb
  | gone _ _ ih => exact ih (hs.queued _) hb
  | @job job _ scheduler _ _ hjob _ ih =>
      refine ih (hs.attended accepts hjob) ?_
      have hid := (LiveJob.advances_served (hs.live hjob) accepts scheduler.slots.free).id
      refine hb.goesOn hjob hid (fun _ hc => hc.keep (.of_undisturbed (job.undisturbed_served _)))
        (fun id => ?_) fun _ => rfl
      rw [find?_attended hs accepts hjob, selection, hid]

-- What a recovery makes of a scheduler that takes in some jobs, of which some end at once.
structure Recovers (scheduler : Scheduler) (taken : List PersistedJob) (newly : List Summary)
    (final : Scheduler) : Prop where
  balanced : ∀ jobs records, scheduler.registry.Balanced jobs records → final.registry.Balanced
    (jobs ++ taken.map fun persisted => (persisted.id, persisted.submission)) (records ++ newly)
  live : ∀ id, (scheduler.registry.find? id).isSome → (final.registry.find? id).isSome
  kept : ∀ id summary, scheduler.registry.ended? id = some summary →
    final.registry.ended? id = some summary
  fresh : ∀ summary ∈ newly, scheduler.registry.find? summary.id = none
  ended : ∀ summary ∈ newly, final.registry.ended? summary.id = some summary
  records : Command.records final.pending = Command.records scheduler.pending ++ newly
  exit : .exit ∉ scheduler.pending → .exit ∉ final.pending

theorem Recovers.refl (scheduler : Scheduler) : scheduler.Recovers [] [] scheduler where
  balanced jobs records hb := by simpa using hb
  live _ h := h
  kept _ _ h := h
  fresh := by simp
  ended := by simp
  records := by simp
  exit h := h

theorem Recovers.trans {a b c : Scheduler} {taken taken' : List PersistedJob} {newly newly' : List Summary}
    (h : a.Recovers taken newly b) (h' : b.Recovers taken' newly' c) :
    a.Recovers (taken ++ taken') (newly ++ newly') c where
  balanced jobs records hb := by
    have hboth := h'.balanced _ _ (h.balanced jobs records hb)
    rwa [List.append_assoc, List.append_assoc, ← List.map_append] at hboth
  live id hid := h'.live id (h.live id hid)
  kept id summary hended := h'.kept id summary (h.kept id summary hended)
  fresh summary hsummary := by
    rcases List.mem_append.mp hsummary with hfirst | hlater
    · exact h.fresh summary hfirst
    · have hnone := h'.fresh summary hlater
      have hkept := mt (h.live summary.id)
      simpa [hnone] using hkept
  ended summary hsummary := by
    rcases List.mem_append.mp hsummary with hfirst | hlater
    · exact h'.kept _ summary (h.ended summary hfirst)
    · exact h'.ended summary hlater
  records := by rw [h'.records, h.records, List.append_assoc]
  exit hexit := h'.exit (h.exit hexit)

section Recover

variable {scheduler : Scheduler}

theorem Revival.recovers {persisted : PersistedJob} {answer : Except Fault Unit} {final : Scheduler}
    (h : scheduler.Revival persisted answer final) :
    ∃ newly, scheduler.Recovers (if answer.isOk then [persisted] else []) newly final := by
  cases h with
  | refused => exact ⟨[], .refl scheduler⟩
  | @goesOn job hrevive hlive hopen _ =>
      obtain ⟨-, -, hid⟩ := PersistedJob.sound_of_revive hrevive
      have hfind := scheduler.find?_readmitted job
      refine ⟨[], fun jobs records hb => ?_, fun id hlive' => ?_, fun _ _ hkept => hkept, by simp, by simp,
        by simp [readmitted, admitted], id⟩
      · rw [List.append_nil]
        have hjoins := hb.joins hlive hopen (PersistedJob.carriesOut_of_revive hrevive) hfind fun _ => rfl
        rw [hid] at hjoins
        exact hjoins
      · change ((scheduler.readmitted job).registry.find? id).isSome
        rw [hfind]
        split
        · rfl
        · exact hlive'
  | @ends job hrevive hlive hopen hcomplete =>
      obtain ⟨hsound, -, hid⟩ := PersistedJob.sound_of_revive hrevive
      have hfind := scheduler.find?_readmitted job
      have hc := PersistedJob.carriesOut_of_revive hrevive
      have hclosing := job.closing_id (PersistedJob.endStatus job)
      have hterminal : (PersistedJob.endStatus job).isTerminal := by
        unfold PersistedJob.endStatus
        split <;> rfl
      -- The record stands under the id of the job, which was free.
      have hfiled := (scheduler.readmitted job).ended?_retired job (PersistedJob.endStatus job)
      have hgone := scheduler.find?_readmitted_retired job (PersistedJob.endStatus job)
      refine ⟨[job.closing (PersistedJob.endStatus job)], fun jobs records hb => ?_, fun id hlive' => ?_,
        fun id summary hkept => ?_, fun summary hsummary => ?_, fun summary hsummary => ?_, ?_,
        fun hexit => ?_⟩
      · have hjoins := hb.joins hlive hopen hc hfind fun _ => rfl
        rw [hid] at hjoins
        refine hjoins.ends ((hfind job.id).trans (if_pos rfl)) hopen hclosing (fun submission hc' => ?_)
          (fun id => Registry.find?_drop_record _ _ _ _) hfiled
        exact LiveJob.completes_closing hsound hc' hterminal fun _ => hcomplete
      · refine (congrArg Option.isSome (hgone id)).trans ?_
        split
        · rename_i heq
          rw [heq, hlive] at hlive'
          cases hlive'
        · exact hlive'
      · refine (hfiled id).trans ((if_neg fun heq => ?_).trans hkept)
        rw [heq, hopen] at hkept
        cases hkept
      · rw [List.mem_singleton.mp hsummary, hclosing, hlive]
      · rw [List.mem_singleton.mp hsummary]
        exact (hfiled _).trans (if_pos hclosing)
      · simp [Command.records, Command.summary?]
      · simp [hexit]

theorem recovers_recoverOne (hs : scheduler.Sound) (persisted : PersistedJob) :
    let one := recoverOne (0, scheduler) persisted
    (∃ newly, scheduler.Recovers (List.replicate one.1 persisted) newly one.2) ∧
      ∀ count, (recoverOne (count, scheduler) persisted).2 = one.2 := by
  intro one
  rcases SchedulerM.revival_recoverOne hs persisted with ⟨-, hpassed⟩ | ⟨-, answer, final, hrevival, hone⟩
  · refine ⟨⟨[], ?_⟩, fun count => by simp only [one, hpassed]⟩
    simp only [one, hpassed]
    exact .refl scheduler
  · obtain ⟨newly, hrecovers⟩ := hrevival.recovers
    refine ⟨⟨newly, ?_⟩, fun count => by simp only [one, hone]⟩
    simp only [one, hone]
    cases answer <;> exact hrecovers

end Recover

-- Persisted jobs are taken in one after the other.
theorem recovers_recover {scheduler : Scheduler} (h : scheduler.Orderly) (persisted : List PersistedJob) :
    ∃ newly, scheduler.Recovers (scheduler.recovered persisted) newly (scheduler.recover persisted).2 := by
  suffices hall : ∀ count, ∃ newly, scheduler.Recovers (scheduler.recovered persisted) newly
      (persisted.foldl recoverOne (count, scheduler)).2 from hall 0
  induction persisted generalizing scheduler with
  | nil => exact fun _ => ⟨[], .refl scheduler⟩
  | cons first rest ih =>
      intro count
      obtain ⟨⟨newly, hfirst⟩, hsame⟩ := recovers_recoverOne h.sound first
      have hmid : (recoverOne (0, scheduler) first).2.Orderly := orderly_recover [first] h
      obtain ⟨newly', hrest⟩ := ih hmid (recoverOne (count, scheduler) first).1
      have hcount : recoverOne (count, scheduler) first =
          ((recoverOne (count, scheduler) first).1, (recoverOne (0, scheduler) first).2) :=
        Prod.ext rfl (hsame count)
      refine ⟨newly ++ newly', ?_⟩
      rw [List.foldl_cons, hcount]
      exact hfirst.trans hrest

-- What becomes of the records of jobs in an operation, of which some are new.
structure Files (scheduler : Scheduler) (operation : Operation) (newly : List Summary) : Prop where
  delivers : scheduler.Delivers newly operation
  ended : ∀ summary ∈ newly, (scheduler.handled operation).registry.ended? summary.id = some summary
  balanced : scheduler.Counted → ∀ jobs records, scheduler.registry.Balanced jobs records →
    (scheduler.perform operation).2.registry.Balanced (jobs ++ scheduler.accepted operation) (records ++ newly)
  pending : .exit ∉ (scheduler.perform operation).2.pending
  exit : .exit ∈ (scheduler.perform operation).1 →
    (scheduler.perform operation).2.pending = [] ∧ (scheduler.perform operation).2.registry.live.isEmpty

section Perform

variable {scheduler : Scheduler} (h : scheduler.Orderly)
include h

theorem delivers_finishStep (policy : Policy) {commands : List Command}
    (hexit : .exit ∉ scheduler.pending ++ commands) :
    let step := scheduler.finishStep policy commands
    step.2.pending = [] ∧
      Command.records step.1.commands = Command.records scheduler.pending ++ Command.records commands ∧
      (∀ jobs records, scheduler.registry.Balanced jobs records → step.2.registry.Balanced jobs records) ∧
      (.exit ∈ step.1.commands → step.2.registry.live.isEmpty) := by
  intro step
  obtain ⟨hrecords, hexits⟩ := finishStep_hands_out h.sound policy hexit
  obtain ⟨assignments, final, hserves, hfinal, -⟩ := finishStep_eq h.sound policy commands
  refine ⟨?_, hrecords.trans (Command.records_append _ _), fun jobs records hb => ?_,
    fun hmem => (hexits.mp hmem).2⟩
  · simp only [step, hfinal]
    exact (hserves.starts policy.accepts h.sound.cleared).pending
  · simp only [step, hfinal]
    exact hserves.balanced h.sound.cleared hb

-- The records of what an event ends are handed out with those that were held back.
theorem files_step (hexit : .exit ∉ scheduler.pending) (policy : Policy) {event : Event}
    (hshutdown : event ≠ .shutdown) : ∃ newly, scheduler.Files (.step policy event) newly := by
  have hreaction := SchedulerM.reacts_handle h.sound event
  have hpending := hreaction.pending_eq
  have hnew := hreaction.records
  have hexits : .exit ∉ (scheduler.run (SchedulerM.handle event)).2.pending ++
      commandsOf (scheduler.run (SchedulerM.handle event)).1 := by
    rw [hpending, List.mem_append]
    exact not_or.mpr ⟨hexit, hreaction.not_exit⟩
  obtain ⟨hclear, hrecords, hbalanced, hidle⟩ :=
    delivers_finishStep (orderly_handle h event) policy hexits
  rw [hpending] at hrecords
  have hstep : scheduler.step policy event = _ := step_of_ne_shutdown policy hshutdown
  refine ⟨_, ⟨?_, ?_, fun summary hsummary => (hnew summary hsummary).1⟩,
    fun summary hsummary => (hnew summary hsummary).2, fun hs jobs records hb => ?_, ?_, fun hmem => ?_⟩
  · rw [perform, hstep]
    exact hclear
  · rw [perform, hstep]
    exact hrecords
  · rw [perform, hstep]
    exact hbalanced _ _ (balanced_handle hs hb policy event)
  · rw [perform, hstep, hclear]
    exact List.not_mem_nil
  · rw [perform, hstep] at hmem ⊢
    exact ⟨hclear, hidle hmem⟩

-- Whatever the operation is, the records of the jobs that it ends are handed out or held
-- back, and accepted jobs and records stay in balance.
theorem files_perform (hexit : .exit ∉ scheduler.pending) (operation : Operation) :
    ∃ newly, scheduler.Files operation newly := by
  cases operation with
  | submit submission =>
      have hreaction := SchedulerM.reacts_handle h.sound (.submitted submission)
      have hpending := hreaction.pending_eq
      rw [SchedulerM.handle, ← run_submit] at hpending
      refine ⟨[], ⟨rfl, rfl, hpending⟩, by simp, fun hs jobs records hb => ?_, ?_,
        fun hmem => absurd hmem List.not_mem_nil⟩
      · rw [List.append_nil]
        exact balanced_submit hs hb submission
      · rw [perform, hpending]
        exact hexit
  | recover persisted =>
      obtain ⟨newly, hrecovers⟩ := recovers_recover h persisted
      exact ⟨newly, ⟨rfl, hrecovers.records, hrecovers.fresh⟩, hrecovers.ended,
        fun _ => hrecovers.balanced, hrecovers.exit hexit, fun hmem => absurd hmem List.not_mem_nil⟩
  | kickoff policy =>
      have hexits : .exit ∉ scheduler.pending ++ [] := by rwa [List.append_nil]
      obtain ⟨hpending, hrecords, hbalanced, hidle⟩ := delivers_finishStep h policy hexits
      refine ⟨[], ⟨hpending, hrecords, by simp⟩, by simp, fun _ jobs records hb => ?_, ?_,
        fun hmem => ⟨hpending, hidle hmem⟩⟩
      · rw [List.append_nil, accepted, List.append_nil]
        exact hbalanced jobs records hb
      · rw [perform, kickoff, hpending]
        exact List.not_mem_nil
  | step policy event =>
      by_cases hshutdown : event = .shutdown
      · subst hshutdown
        refine ⟨[], ⟨rfl, by simp [perform, step], by simp⟩, by simp, fun _ jobs records hb => ?_,
          List.not_mem_nil, fun hmem => absurd hmem hexit⟩
        rw [List.append_nil, accepted, List.append_nil]
        · exact hb
        · simp
      · exact files_step h hexit policy hshutdown

end Perform

end Scheduler

-- A run of a scheduler with the jobs that it has accepted and the commands that it has
-- handed out.
structure Ledger where
  scheduler : Scheduler
  accepted : List (JobId × Submission)
  given : List Command

namespace Ledger

def perform (ledger : Ledger) (operation : Operation) : Ledger where
  scheduler := (ledger.scheduler.perform operation).2
  accepted := ledger.accepted ++ ledger.scheduler.accepted operation
  given := ledger.given ++ (ledger.scheduler.perform operation).1

def of (total : Nat) (operations : List Operation) : Ledger :=
  operations.foldl perform ⟨.new total, [], []⟩

-- Nothing that is held back asks for an exit.
structure Tidy (ledger : Ledger) : Prop where
  orderly : ledger.scheduler.Orderly
  exit : .exit ∉ ledger.scheduler.pending

theorem Tidy.perform {ledger : Ledger} (h : ledger.Tidy) (operation : Operation) :
    (ledger.perform operation).Tidy ∧ ∃ newly, ledger.scheduler.Files operation newly ∧
      Command.records ((ledger.perform operation).given ++ (ledger.perform operation).scheduler.pending) =
        Command.records (ledger.given ++ ledger.scheduler.pending) ++ newly := by
  obtain ⟨newly, hfiles⟩ := Scheduler.files_perform h.orderly h.exit operation
  refine ⟨⟨Scheduler.orderly_perform h.orderly operation, hfiles.pending⟩, newly, hfiles, ?_⟩
  simp only [Ledger.perform]
  rw [List.append_assoc, Command.records_append, hfiles.delivers.records, Command.records_append,
    List.append_assoc]

theorem tidy_new (total : Nat) : Tidy ⟨.new total, [], []⟩ :=
  ⟨Scheduler.orderly_new total, List.not_mem_nil⟩

-- No job has been lost, and the books are in balance with what was handed out and what is
-- held back.
structure Settled (ledger : Ledger) : Prop extends Tidy ledger where
  counted : ledger.scheduler.Counted
  balanced : ledger.scheduler.registry.Balanced ledger.accepted
    (Command.records (ledger.given ++ ledger.scheduler.pending))

theorem Settled.perform {ledger : Ledger} (h : ledger.Settled) {operation : Operation}
    (hlast : .last ∉ ledger.scheduler.gives operation) : (ledger.perform operation).Settled := by
  obtain ⟨htidy, newly, hfiles, hrecords⟩ := h.toTidy.perform operation
  have hleads := (Scheduler.performs_counting h.counted.toSound hlast).leads
  refine ⟨htidy, (hleads.counted Scheduler.Terms.counting_not_last h.counted).1, ?_⟩
  rw [hrecords]
  exact hfiles.balanced h.counted _ _ h.balanced

theorem settled_of {total : Nat} {operations : List Operation}
    (hlast : .last ∉ (Scheduler.new total).ids operations) : (of total operations).Settled := by
  suffices hall : ∀ ledger : Ledger, ledger.Settled → .last ∉ ledger.scheduler.ids operations →
      (operations.foldl perform ledger).Settled from
    hall _ ⟨tidy_new total, Scheduler.counted_new total, Registry.balanced_empty⟩ hlast
  clear hlast
  induction operations with
  | nil => exact fun _ h _ => h
  | cons first rest ih =>
      intro ledger h hlast
      obtain ⟨hfirst, hrest⟩ := not_or.mp (mt List.mem_append.mpr hlast)
      exact ih _ (h.perform hfirst) hrest

theorem scheduler_of (total : Nat) (operations : List Operation) :
    (of total operations).scheduler = (Scheduler.new total).reached operations := by
  suffices hall : ∀ ledger : Ledger,
      (operations.foldl perform ledger).scheduler = ledger.scheduler.reached operations from
    hall ⟨.new total, [], []⟩
  induction operations with
  | nil => exact fun _ => rfl
  | cons first rest ih => exact fun ledger => ih (ledger.perform first)

end Ledger

end JobScheduler
