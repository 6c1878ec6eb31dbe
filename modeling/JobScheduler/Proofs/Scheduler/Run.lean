import JobScheduler.Proofs.Scheduler.Answer
import JobScheduler.Proofs.Scheduler.Pass
import JobScheduler.Proofs.Scheduler.Recover

namespace JobScheduler

-- What drives a scheduler. Which tasks may start is up to each operation.
inductive Operation
  | submit (submission : Submission)
  | recover (jobs : List PersistedJob)
  | kickoff (policy : Policy)
  | step (policy : Policy) (event : Event)

def Operation.isRecovery : Operation → Bool
  | .recover _ => true
  | _ => false

-- Whether the operation resumes a job.
def Operation.resumes (id : JobId) : Operation → Bool
  | .step _ (.resume other) => other == id
  | _ => false

-- The tasks that commands start.
def Command.started (commands : List Command) : List Assignment := commands.flatMap assignments

namespace Scheduler

-- What an operation has made of a scheduler before it goes on to start tasks.
def handled (scheduler : Scheduler) : Operation → Scheduler
  | .submit submission => (scheduler.run (SchedulerM.submit submission)).2
  | .recover jobs => (scheduler.recover jobs).2
  | .kickoff _ => scheduler
  | .step _ event => (scheduler.run (SchedulerM.handle event)).2

def perform (scheduler : Scheduler) : Operation → List Command × Scheduler
  | .submit submission => ([], (scheduler.run (SchedulerM.submit submission)).2)
  | .recover jobs => ([], (scheduler.recover jobs).2)
  | .kickoff policy => ((scheduler.kickoff policy).1.commands, (scheduler.kickoff policy).2)
  | .step policy event =>
      ((scheduler.step policy event).1.commands, (scheduler.step policy event).2)

def reached (scheduler : Scheduler) (operations : List Operation) : Scheduler :=
  operations.foldl (fun scheduler operation => (scheduler.perform operation).2) scheduler

-- All states on the way, those in the middle of an operation included.
def moments (scheduler : Scheduler) : List Operation → List Scheduler
  | [] => [scheduler]
  | operation :: rest =>
      scheduler :: scheduler.handled operation :: moments (scheduler.perform operation).2 rest

theorem moments_concat (scheduler : Scheduler) (operations : List Operation) (operation : Operation) :
    scheduler.moments (operations ++ [operation]) = scheduler.moments operations ++
      [(scheduler.reached operations).handled operation,
        ((scheduler.reached operations).perform operation).2] := by
  induction operations generalizing scheduler with
  | nil => rfl
  | cons first rest ih =>
      rw [List.cons_append, moments, ih]
      rfl

theorem mem_moments_append (scheduler : Scheduler) (operations rest : List Operation) :
    scheduler.reached operations ∈ scheduler.moments (operations ++ rest) := by
  induction operations generalizing scheduler with
  | nil => cases rest <;> exact List.mem_cons_self
  | cons first later ih => exact List.mem_cons_of_mem _ (List.mem_cons_of_mem _ (ih _))

theorem reached_mem_moments (scheduler : Scheduler) (operations : List Operation) :
    scheduler.reached operations ∈ scheduler.moments operations := by
  simpa using scheduler.mem_moments_append operations []

-- All that the operations of a run give rise to, in their order.
def gathered {α : Type} (tell : Scheduler → Operation → List α) (scheduler : Scheduler) :
    List Operation → List α
  | [] => []
  | operation :: rest => tell scheduler operation ++ gathered tell (scheduler.perform operation).2 rest

theorem gathered_concat {α : Type} (tell : Scheduler → Operation → List α) (scheduler : Scheduler)
    (operations : List Operation) (operation : Operation) :
    scheduler.gathered tell (operations ++ [operation]) =
      scheduler.gathered tell operations ++ tell (scheduler.reached operations) operation := by
  induction operations generalizing scheduler with
  | nil => exact List.append_nil _
  | cons first rest ih =>
      rw [List.cons_append, gathered, ih, gathered, List.append_assoc]
      rfl

-- The jobs that an operation makes a scheduler accept, by the ids that it gives them.
def accepted (scheduler : Scheduler) : Operation → List (JobId × Submission)
  | .submit submission | .step _ (.submitted submission) =>
      match (scheduler.run (SchedulerM.submit submission)).1 with
      | .ok id => [(id, submission)]
      | .error _ => []
  | .recover jobs => (scheduler.recovered jobs).map fun persisted => (persisted.id, persisted.submission)
  | .kickoff _ | .step .. => []

theorem accepted_of_new {scheduler : Scheduler} {submission : Submission} {job : LiveJob}
    (hnew : LiveJob.new ⟨scheduler.registry.nextId⟩ submission = .ok job) :
    scheduler.accepted (.submit submission) = [(job.id, submission)] := by
  rw [accepted, run_of_ok (SchedulerM.submit_of_new hnew)]

-- The ids that an operation gives to jobs.
def gives (scheduler : Scheduler) (operation : Operation) : List JobId :=
  (scheduler.accepted operation).map Prod.fst

theorem id_mem_gives {scheduler : Scheduler} {submission : Submission} {job : LiveJob}
    (hnew : LiveJob.new ⟨scheduler.registry.nextId⟩ submission = .ok job) :
    job.id ∈ scheduler.gives (.submit submission) := by
  rw [gives, accepted_of_new hnew]
  exact List.mem_singleton.mpr rfl

-- The ids that a run gives to jobs.
def ids (scheduler : Scheduler) (operations : List Operation) : List JobId :=
  scheduler.gathered gives operations

-- The persisted jobs that an operation takes in.
def installed (scheduler : Scheduler) : Operation → List PersistedJob
  | .recover jobs => scheduler.recovered jobs
  | .submit _ | .kickoff _ | .step .. => []

-- A submission is given the next id.
theorem eq_of_mem_gives_submit {scheduler : Scheduler} {submission : Submission} {id : JobId}
    (h : id ∈ scheduler.gives (.submit submission)) : id = ⟨scheduler.registry.nextId⟩ := by
  cases hnew : LiveJob.new ⟨scheduler.registry.nextId⟩ submission with
  | error fault =>
      rw [gives, accepted, run_of_error (SchedulerM.submit_of_refused hnew)] at h
      cases h
  | ok job =>
      rw [gives, accepted_of_new hnew] at h
      exact (List.mem_singleton.mp h).trans (LiveJob.fresh_of_new hnew).id

theorem mem_of_mem_recovered {persisted : PersistedJob} {jobs : List PersistedJob} {scheduler : Scheduler}
    (h : persisted ∈ scheduler.recovered jobs) : persisted ∈ jobs := by
  induction jobs generalizing scheduler with
  | nil => cases h
  | cons first rest ih =>
      rcases List.mem_append.mp h with hone | hlater
      · exact List.eq_of_mem_replicate hone ▸ List.mem_cons_self
      · exact List.mem_cons_of_mem _ (ih hlater)

-- Jobs that had ended are passed over.
theorem open_of_mem_recovered {persisted : PersistedJob} {jobs : List PersistedJob} {scheduler : Scheduler}
    (h : persisted ∈ scheduler.recovered jobs) : persisted.status.isTerminal = false := by
  induction jobs generalizing scheduler with
  | nil => cases h
  | cons first rest ih =>
      change persisted ∈ List.replicate (recoverOne (0, scheduler) first).1 first ++ _ at h
      rcases List.mem_append.mp h with hone | hlater
      · obtain ⟨hcount, rfl⟩ := List.mem_replicate.mp hone
        refine Bool.eq_false_iff.mpr fun hterminal => hcount ?_
        simp [recoverOne, hterminal]
      · exact ih hlater

-- The ids that an operation gives are the next one and those that it recovers.
theorem mem_gives {scheduler : Scheduler} {operation : Operation} {id : JobId}
    (h : id ∈ scheduler.gives operation) : id = ⟨scheduler.registry.nextId⟩ ∨
      ∃ jobs, operation = .recover jobs ∧ ∃ persisted ∈ jobs, persisted.id = id := by
  cases operation with
  | submit submission => exact .inl (eq_of_mem_gives_submit h)
  | recover jobs =>
      simp only [gives, accepted, List.map_map, List.mem_map] at h
      obtain ⟨persisted, htaken, hid⟩ := h
      exact .inr ⟨jobs, rfl, persisted, mem_of_mem_recovered htaken, hid⟩
  | kickoff policy => cases h
  | step policy event =>
      cases event with
      | submitted submission => exact .inl (eq_of_mem_gives_submit h)
      | _ => cases h

theorem open_of_mem_installed {persisted : PersistedJob} {operations : List Operation} {scheduler : Scheduler}
    (h : persisted ∈ scheduler.gathered installed operations) : persisted.status.isTerminal = false := by
  induction operations generalizing scheduler with
  | nil => cases h
  | cons first rest ih =>
      rcases List.mem_append.mp h with hone | hlater
      · cases first with
        | recover jobs => exact open_of_mem_recovered hone
        | submit | kickoff | step => cases hone
      · exact ih hlater

-- Where nothing is recovered, nothing is installed.
theorem gathered_installed_of_submits {operations : List Operation} {scheduler : Scheduler}
    (h : ∀ operation ∈ operations, operation.isRecovery = false) :
    scheduler.gathered installed operations = [] := by
  induction operations generalizing scheduler with
  | nil => rfl
  | cons first rest ih =>
      obtain ⟨hfirst, hrest⟩ := List.forall_mem_cons.mp h
      rw [gathered, ih hrest, List.append_nil]
      cases first with
      | recover jobs => cases hfirst
      | submit | kickoff | step => rfl

theorem not_mem_ids_concat {scheduler : Scheduler} {operations : List Operation} {operation : Operation}
    {id : JobId} : id ∉ scheduler.ids (operations ++ [operation]) ↔
      id ∉ scheduler.ids operations ∧ id ∉ (scheduler.reached operations).gives operation := by
  rw [ids, gathered_concat, List.mem_append, not_or]
  rfl

-- An operation asks for no more than the terms allow.
structure Terms.Allows (terms : Terms) (operation : Operation) : Prop where
  submitted : ∀ job : LiveJob, job.Coherent → terms.expected job
  recovered : operation.isRecovery → ∀ job : LiveJob, job.Sound → terms.expected job
  resumed : ∀ id, operation.resumes id → terms.resumed id

theorem Terms.giving_allows (given : JobId → Prop) (operation : Operation) :
    (Terms.giving given).Allows operation :=
  ⟨fun _ _ => trivial, fun _ _ _ => trivial, fun _ _ => rfl⟩

-- What an operation does to a sound scheduler: its own work, then a dispatch pass. A higher
-- limit for the slots that may be given back makes no difference.
structure Performs (terms : Terms) (scheduler : Scheduler) (operation : Operation) : Prop where
  handled : Leads terms scheduler (scheduler.handled operation)
  passes : Passes terms (scheduler.handled operation) (scheduler.perform operation).2
    (Command.started (scheduler.perform operation).1)
  raised : ∀ count, (scheduler.raise count).perform operation =
    ((scheduler.perform operation).1, (scheduler.perform operation).2.raise count)

theorem sound_new (total : Nat) : (Scheduler.new total).Sound := by
  refine ⟨fun id job hjob => ?_, Nat.le_refl total, by simp [Scheduler.new]⟩
  cases hjob

theorem counted_new (total : Nat) : (Scheduler.new total).Counted := by
  refine ⟨sound_new total, fun id hid => ?_, fun id hid => ?_, Nat.le_refl total⟩
  · rcases hid with hid | hid <;> cases hid
  · cases hid

theorem started_of_none {commands : List Command}
    (h : ∀ command ∈ commands, command.assignments = []) : Command.started commands = [] := by
  rw [Command.started, List.flatMap_eq_nil_iff]
  exact h

theorem started_append (first rest : List Command) :
    Command.started (first ++ rest) = Command.started first ++ Command.started rest :=
  List.flatMap_append

theorem started_dispatched (assignments : List Assignment) :
    Command.started (dispatched (.ok assignments)) = assignments := by
  cases assignments with
  | nil => rfl
  | cons first rest => simp [Command.started, dispatched, Command.assignments]

section Perform

variable {scheduler : Scheduler} (hs : scheduler.Sound) {terms : Terms}
include hs

-- The end of a step clears the commands held back and makes a dispatch pass.
theorem passes_finishStep (policy : Policy) {commands : List Command}
    (hnone : ∀ command ∈ commands, command.assignments = []) :
    Passes terms scheduler (scheduler.finishStep policy commands).2
        (Command.started (scheduler.finishStep policy commands).1.commands) ∧
      ∀ count, (scheduler.raise count).finishStep policy commands =
        ((scheduler.finishStep policy commands).1,
          (scheduler.finishStep policy commands).2.raise count) := by
  have hclear : Passes terms scheduler { scheduler with pending := [] } [] :=
    .of_advance terms hs (.pending (by simp)) rfl rfl
  obtain ⟨assignments, final, hpasses, hdispatch⟩ :=
    SchedulerM.passes_dispatch (hclear.leads.sound hs).1 terms policy.accepts
  have hold : Command.started (scheduler.pending ++ commands) = [] :=
    started_of_none fun command hcommand =>
      (List.mem_append.mp hcommand).elim (hs.pending command) (hnone command)
  have hfinish (count : Nat) : (scheduler.raise count).finishStep policy commands =
      (if policy.exitWhenIdle ∧ final.registry.live.isEmpty then
        (⟨scheduler.pending ++ commands ++ dispatched (.ok assignments) ++ [.exit], false⟩,
          final.raise count)
      else (⟨scheduler.pending ++ commands ++ dispatched (.ok assignments), true⟩,
        final.raise count)) := by
    have hrun := run_of_ok (hdispatch count)
    simp only [finishStep]
    rw [show ({ scheduler.raise count with pending := [] } : Scheduler) =
      { scheduler with pending := [] }.raise count from rfl, hrun]
    rfl
  have hfirst := hfinish 0
  rw [raise_zero, raise_zero] at hfirst
  have hall := hclear.trans hpasses
  rw [List.nil_append] at hall
  simp only [hfirst, hfinish]
  split
  · refine ⟨?_, fun count => rfl⟩
    rw [started_append, started_append, hold, started_dispatched]
    simpa [Command.started, Command.assignments] using hall
  · refine ⟨?_, fun count => rfl⟩
    rw [started_append, hold, started_dispatched]
    exact hall

omit hs in
theorem run_submit (submission : Submission) :
    (scheduler.run (SchedulerM.submit submission)).2 =
      (scheduler.run (do let _ ← SchedulerM.submit submission; return ([] : List Command))).2 := by
  simp only [run, SchedulerM.run_bind]
  cases SchedulerM.submit submission scheduler <;> rfl

-- The commands of an event, none if it is refused.
def commandsOf : Except Fault (List Command) → List Command
  | .ok commands => commands
  | .error _ => []

omit hs in
theorem step_of_ne_shutdown (policy : Policy) {event : Event} (h : event ≠ .shutdown) :
    scheduler.step policy event = (scheduler.run (SchedulerM.handle event)).2.finishStep policy
      (commandsOf (scheduler.run (SchedulerM.handle event)).1) := by
  rcases hrun : scheduler.run (SchedulerM.handle event) with ⟨_ | _, final⟩ <;>
    cases event <;> first | exact absurd rfl h | simp only [step, hrun, commandsOf]

theorem performs_step (policy : Policy) {event : Event} (hallows : terms.Allows (.step policy event))
    (hgiven : ∀ id ∈ scheduler.gives (.step policy event), terms.given id) :
    Performs terms scheduler (.step policy event) := by
  by_cases hshutdown : event = .shutdown
  · subst hshutdown
    refine ⟨.refl scheduler, ?_, fun count => rfl⟩
    have hclear : Passes terms scheduler { scheduler with pending := [] } [] :=
      .of_advance terms hs (.pending (by simp)) rfl rfl
    have hnone : Command.started scheduler.pending = [] := started_of_none hs.pending
    simp only [perform, step, hnone]
    exact hclear
  · have hgives (submission : Submission) (job : LiveJob) (hsubmit : event = .submitted submission)
        (hnew : LiveJob.new ⟨scheduler.registry.nextId⟩ submission = .ok job) : terms.given job.id := by
      subst hsubmit
      exact hgiven job.id (id_mem_gives hnew)
    obtain ⟨answer, final, hleads, hnone, hrun⟩ := SchedulerM.handle_proceeds hs hallows.submitted
      event hgives fun id heq => hallows.resumed id (by simp [Operation.resumes, heq])
    have hcommands : ∀ command ∈ commandsOf answer, command.assignments = [] := by
      cases answer with
      | ok commands => exact hnone commands rfl
      | error fault => simp [commandsOf]
    obtain ⟨hpasses, hraised⟩ := passes_finishStep (hleads.sound hs).1 policy hcommands
    have hfirst := hrun 0
    rw [raise_zero, raise_zero] at hfirst
    have hstep (count : Nat) : (scheduler.raise count).perform (.step policy event) =
        ((final.finishStep policy (commandsOf answer)).1.commands,
          (final.finishStep policy (commandsOf answer)).2.raise count) := by
      simp only [perform, step_of_ne_shutdown policy hshutdown, hrun, hraised]
    have hself := hstep 0
    rw [raise_zero, raise_zero] at hself
    have hhandled : scheduler.handled (.step policy event) = final := by
      simp only [handled, hfirst]
    refine ⟨hhandled ▸ hleads, ?_, fun count => by rw [hstep, hself]⟩
    rw [hhandled, hself]
    exact hpasses

-- An operation that starts nothing.
theorem Performs.of_handled {operation : Operation} {final : Scheduler}
    (hleads : Leads terms scheduler final)
    (hnothing : ∀ scheduler : Scheduler,
      scheduler.perform operation = ([], scheduler.handled operation))
    (hhandled : ∀ count, (scheduler.raise count).handled operation = final.raise count) :
    Performs terms scheduler operation := by
  have hfinal := hhandled 0
  rw [raise_zero, raise_zero] at hfinal
  refine ⟨hfinal ▸ hleads, ?_, fun count => ?_⟩
  · rw [hnothing, hfinal]
    exact .refl (hleads.sound hs).1
  · rw [hnothing, hnothing, hhandled, hfinal]

-- Every operation does what it may.
theorem performs {operation : Operation} (hallows : terms.Allows operation)
    (hgiven : ∀ id ∈ scheduler.gives operation, terms.given id) :
    Performs terms scheduler operation := by
  cases operation with
  | submit submission =>
      obtain ⟨answer, final, hleads, -, hrun⟩ :=
        SchedulerM.submit_proceeds hallows.submitted fun job hnew => hgiven job.id (id_mem_gives hnew)
      exact .of_handled hs hleads (fun _ => rfl) fun count => by rw [handled, run_submit, hrun]
  | recover jobs =>
      obtain ⟨accepted, final, hleads, hrun⟩ := SchedulerM.leads_recover hs (hallows.recovered rfl) jobs
        fun taken htaken => hgiven taken.id (by simpa [gives, accepted] using ⟨taken, htaken, rfl⟩)
      exact .of_handled hs hleads (fun _ => rfl) fun count => by rw [handled, hrun]
  | kickoff policy =>
      obtain ⟨hpasses, hraised⟩ := passes_finishStep hs policy (List.forall_mem_nil _)
      exact ⟨.refl scheduler, hpasses, fun count => by simp only [perform, kickoff, hraised]⟩
  | step policy event => exact performs_step hs policy hallows hgiven

theorem performs_any (operation : Operation) : Performs .any scheduler operation :=
  performs hs (Terms.giving_allows _ operation) fun _ _ => trivial

omit hs in
theorem Performs.leads {operation : Operation} (h : Performs terms scheduler operation) :
    Leads terms scheduler (scheduler.perform operation).2 :=
  h.handled.trans h.passes.leads

section Run

variable {operations : List Operation} (hallows : ∀ operation ∈ operations, terms.Allows operation)
  (hgiven : ∀ id ∈ scheduler.ids operations, terms.given id)
include hallows hgiven

theorem leads_reached : Leads terms scheduler (scheduler.reached operations) := by
  induction operations generalizing scheduler with
  | nil => exact .refl scheduler
  | cons first rest ih =>
      obtain ⟨hfirst, hrest⟩ := List.forall_mem_cons.mp hallows
      obtain ⟨hgives, hlater⟩ := List.forall_mem_append.mp hgiven
      have hleads := (performs hs hfirst hgives).leads
      exact hleads.trans (ih (hleads.sound hs).1 hrest hlater)

-- A run leads to every state on the way, and from there to where it gets.
theorem leads_of_moment {moment : Scheduler} (hmoment : moment ∈ scheduler.moments operations) :
    Leads terms scheduler moment ∧ Leads terms moment (scheduler.reached operations) := by
  induction operations generalizing scheduler with
  | nil =>
      rw [List.mem_singleton.mp hmoment]
      exact ⟨.refl scheduler, .refl scheduler⟩
  | cons first rest ih =>
      obtain ⟨hfirst, hrest⟩ := List.forall_mem_cons.mp hallows
      obtain ⟨hgives, hlater⟩ := List.forall_mem_append.mp hgiven
      have hperforms := performs hs hfirst hgives
      have hafter := (hperforms.leads.sound hs).1
      rcases List.mem_cons.mp hmoment with rfl | hmoment
      · exact ⟨.refl moment, leads_reached hs hallows hgiven⟩
      · rcases List.mem_cons.mp hmoment with rfl | hmoment
        · exact ⟨hperforms.handled, hperforms.passes.leads.trans (leads_reached hafter hrest hlater)⟩
        · obtain ⟨hbefore, hreached⟩ := ih hafter hrest hlater hmoment
          exact ⟨hperforms.leads.trans hbefore, hreached⟩

end Run

end Perform

section Any

variable {total : Nat} {operations : List Operation} {moment : Scheduler}

-- Whatever drives a new scheduler, it stays sound.
theorem sound_of_moment (hmoment : moment ∈ (Scheduler.new total).moments operations) :
    moment.Sound ∧ moment.slots.total = total := by
  have hallows : ∀ operation ∈ operations, Terms.any.Allows operation :=
    fun operation _ => Terms.giving_allows _ operation
  obtain ⟨hleads, -⟩ := leads_of_moment (sound_new total) hallows (fun _ _ => trivial) hmoment
  exact hleads.sound (sound_new total)

theorem sound_reached (total : Nat) (operations : List Operation) :
    ((Scheduler.new total).reached operations).Sound :=
  (sound_of_moment (reached_mem_moments _ operations)).1

end Any

-- As long as no job is given the last id, no job is lost.
section Counted

theorem performs_counting {scheduler : Scheduler} (hs : scheduler.Sound) {operation : Operation}
    (hlast : .last ∉ scheduler.gives operation) : Performs .counting scheduler operation :=
  performs hs (Terms.giving_allows _ operation) fun _ hid => ne_of_mem_of_not_mem hid hlast

-- A run meets this if its length and the ids that it recovers are not beyond all bounds.
theorem last_not_mem_ids (total bound : Nat) {operations : List Operation}
    (hrecovered : ∀ jobs, .recover jobs ∈ operations →
      ∀ persisted ∈ jobs, persisted.id.number.toNat < bound)
    (hbound : bound + operations.length < 2 ^ 64) : .last ∉ (Scheduler.new total).ids operations := by
  suffices hall : ∀ limit, bound ≤ limit → limit + operations.length < 2 ^ 64 →
      ∀ scheduler : Scheduler, scheduler.Sound → scheduler.registry.nextId.toNat ≤ limit →
        .last ∉ scheduler.ids operations from
    hall bound (Nat.le_refl _) hbound _ (sound_new total) (Nat.zero_le _)
  clear hbound
  induction operations with
  | nil => exact fun _ _ _ _ _ _ => List.not_mem_nil
  | cons first rest ih =>
      intro limit hlimit hlength scheduler hs hnext hmem
      rw [List.length_cons] at hlength
      have hbelow : ∀ id ∈ scheduler.gives first, id.number.toNat < limit + 1 := by
        intro id hid
        rcases mem_gives hid with rfl | ⟨jobs, rfl, persisted, hpersisted, rfl⟩
        · exact Nat.lt_succ_of_le hnext
        · exact Nat.lt_succ_of_lt (Nat.lt_of_lt_of_le
            (hrecovered jobs List.mem_cons_self persisted hpersisted) hlimit)
      have hleads := (performs hs (Terms.giving_allows _ first) hbelow).leads
      rcases List.mem_append.mp hmem with hone | hlater
      · have hlarge := hbelow _ hone
        rw [show JobId.last.number.toNat = 2 ^ 64 - 1 from rfl] at hlarge
        omega
      · have hnext' := hleads.nextId_le (by omega) (fun _ hid => hid) (Nat.le_succ_of_le hnext)
        exact ih (fun jobs hjobs => hrecovered jobs (List.mem_cons_of_mem _ hjobs)) (limit + 1) (by omega)
          (by omega) _ (hleads.sound hs).1 hnext' hlater

variable {total : Nat} {operations : List Operation} {moment : Scheduler}
  (hlast : .last ∉ (Scheduler.new total).ids operations)
include hlast

theorem counted_of_moment (hmoment : moment ∈ (Scheduler.new total).moments operations) :
    moment.Counted ∧ Leads .counting moment ((Scheduler.new total).reached operations) := by
  have hallows : ∀ operation ∈ operations, Terms.counting.Allows operation :=
    fun operation _ => Terms.giving_allows _ operation
  obtain ⟨hbefore, hreached⟩ := leads_of_moment (sound_new total) hallows
    (fun _ hid => ne_of_mem_of_not_mem hid hlast) hmoment
  exact ⟨(hbefore.counted Terms.counting_not_last (counted_new total)).1, hreached⟩

theorem counted_reached : ((Scheduler.new total).reached operations).Counted :=
  (counted_of_moment hlast (reached_mem_moments _ operations)).1

-- Every state up to the middle of an operation leads there.
omit hlast in
theorem counted_to_handled {operation : Operation}
    (hlast : .last ∉ (Scheduler.new total).ids (operations ++ [operation]))
    (hmoment : moment ∈ (Scheduler.new total).moments operations ++
      [((Scheduler.new total).reached operations).handled operation]) :
    moment.Counted ∧
      Leads .counting moment (((Scheduler.new total).reached operations).handled operation) := by
  obtain ⟨hbefore, hgives⟩ := not_mem_ids_concat.mp hlast
  have hreached := counted_reached hbefore
  have hhandled := (performs_counting hreached.toSound hgives).handled
  rcases List.mem_append.mp hmoment with hmoment | hmoment
  · obtain ⟨hcounted, hleads⟩ := counted_of_moment hbefore hmoment
    exact ⟨hcounted, hleads.trans hhandled⟩
  · rw [List.mem_singleton.mp hmoment]
    exact ⟨(hhandled.counted Terms.counting_not_last hreached).1, .refl _⟩

end Counted

-- What a submission makes of a scheduler once its tasks are planned.
def planned (scheduler : Scheduler) (submission : Submission) (tasks : List PlannedTask) :
    Scheduler :=
  match Board.build ⟨scheduler.registry.nextId⟩ submission.priority submission.kind tasks with
  | .ok board =>
      { scheduler.admitted (.ofBoard submission board) (scheduler.registry.nextId + 1) with
        queue := scheduler.queue.refresh board }
  | .error _ => scheduler

theorem perform_submit (scheduler : Scheduler) {submission : Submission} {tasks : List PlannedTask}
    (h : submission.resolve ⟨scheduler.registry.nextId⟩ = .ok tasks) :
    (scheduler.perform (.submit submission)).2 = scheduler.planned submission tasks := by
  have hsubmit : scheduler.registry.submit submission =
      (Board.build ⟨scheduler.registry.nextId⟩ submission.priority submission.kind tasks).map
        fun board => ((scheduler.admitted (.ofBoard submission board)
          (scheduler.registry.nextId + 1)).registry, .ofBoard submission board) := by
    simp only [Registry.submit, LiveJob.new, h, bind, Except.bind]
    cases Board.build ⟨scheduler.registry.nextId⟩ submission.priority submission.kind tasks <;> rfl
  simp only [perform, run, SchedulerM.submit, SchedulerM.run_bind, SchedulerM.run_get, hsubmit, planned]
  cases Board.build ⟨scheduler.registry.nextId⟩ submission.priority submission.kind tasks <;> rfl

theorem reached_submit (scheduler : Scheduler) {submission : Submission} {tasks : List PlannedTask}
    (h : submission.resolve ⟨scheduler.registry.nextId⟩ = .ok tasks) (rest : List Operation) :
    scheduler.reached (.submit submission :: rest) =
      (scheduler.planned submission tasks).reached rest := by
  rw [reached, List.foldl_cons, perform_submit scheduler h]
  rfl

theorem gathered_submit {α : Type} {tell : Scheduler → Operation → List α} (scheduler : Scheduler)
    {submission : Submission} {tasks : List PlannedTask}
    (h : submission.resolve ⟨scheduler.registry.nextId⟩ = .ok tasks)
    (hnothing : tell scheduler (.submit submission) = []) (rest : List Operation) :
    scheduler.gathered tell (.submit submission :: rest) =
      (scheduler.planned submission tasks).gathered tell rest := by
  rw [gathered, hnothing, perform_submit scheduler h]
  rfl

-- A task and one that comes after it.
def release : Submission :=
  ⟨"release", .normal, .taskFlow, false, false,
    [⟨"a", "make", [], 1, false, 1⟩, ⟨"b", "make test", ["a"], 1, false, 1⟩]⟩

theorem cycleTask?_release : (NameGraph.ofSubmission release).cycleTask? = none := by
  have hnodes : (NameGraph.ofSubmission release).nodes = ["a", "b"] := by decide
  have hwaiting : (NameGraph.ofSubmission release).waiting "a" = ["b"] ∧
      (NameGraph.ofSubmission release).waiting "b" = [] := by decide
  have hawaited : (NameGraph.ofSubmission release).awaited "a" = [] ∧
      (NameGraph.ofSubmission release).awaited "b" = ["a"] := by decide
  simp [NameGraph.cycleTask?, CycleSearch.onCycle?, CycleSearch.finishing,
    CycleSearch.companion?, CycleSearch.reached, hnodes, hwaiting, hawaited]

-- A submission with the links of this one is accepted if the rest of it is in order.
theorem resolve_of_graph (submission : Submission)
    (hgraph : NameGraph.ofSubmission submission = .ofSubmission release)
    (hsome : submission.tasks.isEmpty = false)
    (hpolicies : (submission.cancelOnError && submission.pauseOnError) = false)
    (htasks : submission.checkTasks [] submission.tasks = .ok ()) (id : JobId) :
    submission.resolve id = .ok (submission.plan id) := by
  have hcheck : (NameGraph.ofSubmission submission).check submission.name = .ok () := by
    rw [NameGraph.check, hgraph, cycleTask?_release]
    rfl
  rw [Submission.resolve, hcheck, htasks, hsome, hpolicies]
  rfl

theorem resolve_release : release.resolve ⟨0⟩ = .ok (release.plan ⟨0⟩) :=
  resolve_of_graph release rfl rfl rfl rfl ⟨0⟩

end Scheduler

end JobScheduler
