import JobScheduler.Proofs.Exchange.Executions
import JobScheduler.Proofs.Scheduler.Order
import JobScheduler.Proofs.Scheduler.Orderly

namespace JobScheduler

-- A scheduler whose commands go to an executor: all executions that it has handed out so
-- far, and all that it has asked for.
structure Exchange where
  scheduler : Scheduler
  executions : List Execution
  given : List Command

-- What clients ask of a scheduler: they do not report on executions.
def Operation.isRequest : Operation → Bool
  | .submit _ | .kickoff _ => true
  | .recover _ => false
  | .step _ event => event.reported.isEmpty

def Operation.reported : Operation → List TaskId
  | .step _ event => event.reported
  | .submit _ | .kickoff _ | .recover _ => []

-- The report of an execution: its result, or none if it got lost.
def Execution.event (execution : Execution) : Option TaskResult → Event
  | some result => .completed execution.task result
  | none => .lost execution.task

namespace Exchange

def new (total : Nat) : Exchange := ⟨Scheduler.new total, [], []⟩

def perform (exchange : Exchange) (operation : Operation) : Exchange where
  scheduler := (exchange.scheduler.perform operation).2
  executions := (exchange.scheduler.perform operation).1.foldl Command.obeyed exchange.executions
  given := exchange.given ++ (exchange.scheduler.perform operation).1

-- What reaches the scheduler next, and the exchange when it does: a request, or the one
-- report of an execution, whether that was cancelled or not.
inductive Hears : Exchange → Exchange → Operation → Prop
  | request {exchange operation} : operation.isRequest → Hears exchange exchange operation
  | report {exchange before execution after policy result} :
      exchange.executions = before ++ execution :: after → execution.reported = false →
      Hears exchange { exchange with executions := before ++ execution.report :: after }
        (.step policy (execution.event result))

-- An exchange goes on until all ids are used up.
inductive Reachable (total : Nat) : Exchange → Prop
  | new : Reachable total (.new total)
  | step {exchange heard operation} : Reachable total exchange → exchange.Hears heard operation →
      .last ∉ heard.scheduler.gives operation → Reachable total (heard.perform operation)

-- The executor runs what the scheduler takes to be running, and no job gets mixed up with one
-- of before.
structure Faithful (exchange : Exchange) : Prop where
  orderly : exchange.scheduler.Orderly
  counted : exchange.scheduler.Counted
  pending : exchange.scheduler.pending = []
  tracks : exchange.scheduler.Tracks exchange.scheduler.Runs exchange.executions
  knows : exchange.scheduler.Knows exchange.executions

theorem Faithful.given {exchange : Exchange} (h : exchange.Faithful) (given : List Command) :
    Faithful { exchange with given } :=
  ⟨h.orderly, h.counted, h.pending, h.tracks, h.knows⟩

theorem faithful_new (total : Nat) : (Exchange.new total).Faithful where
  orderly := Scheduler.orderly_new total
  counted := Scheduler.counted_new total
  pending := rfl
  tracks := Scheduler.tracks_nil fun _ => Scheduler.not_runs_of_none rfl
  knows := List.forall_mem_nil _

end Exchange

@[simp] theorem Execution.reported_event (execution : Execution) (result : Option TaskResult) :
    (execution.event result).reported = [execution.task] := by
  cases result <;> rfl

namespace Scheduler

theorem cleared_eq_self {scheduler : Scheduler} (hpending : scheduler.pending = []) :
    ({ scheduler with pending := [] } : Scheduler) = scheduler := by
  rw [← hpending]

-- What the executor hears at the end of a step: what was to be told before, what the pass
-- hands out, and perhaps that it may stop.
theorem obeyed_finishStep {scheduler : Scheduler} (hs : scheduler.Sound)
    (hpending : scheduler.pending = []) (policy : Policy) (commands : List Command) :
    let step := scheduler.finishStep policy commands
    ∃ assignments, scheduler.Starts step.2 assignments ∧ ∀ executions,
      step.1.commands.foldl Command.obeyed executions =
        commands.foldl Command.obeyed executions ++ assignments.map .ofAssignment ∧
      (Command.AllFit executions commands →
        (Command.dispatch assignments).Fits (commands.foldl Command.obeyed executions) →
          Command.AllFit executions step.1.commands) := by
  intro step
  obtain ⟨assignments, final, hserves, hfinal, hcommands⟩ := finishStep_eq hs policy commands
  rw [cleared_eq_self hpending] at hserves
  have hexit (executions : List Execution) (idle : Prop) [Decidable idle] :
      Command.AllFit executions (if idle then [.exit] else []) ∧
        (if idle then [.exit] else []).foldl Command.obeyed executions = executions := by
    split <;> exact ⟨by simp [Command.AllFit, Command.Fits], rfl⟩
  refine ⟨assignments, hfinal ▸ hserves.starts policy.accepts hs, fun executions => ?_⟩
  simp only [step, hcommands, hpending, List.nil_append, List.foldl_append, Command.allFit_append,
    Command.foldl_obeyed_dispatched]
  exact ⟨(hexit _ _).2, fun hall hfits => ⟨⟨hall, Command.allFit_dispatched hfits⟩, (hexit _ _).1⟩⟩

section Perform

variable {scheduler : Scheduler} (h : scheduler.Orderly) (hcounted : scheduler.Counted)
  (hpending : scheduler.pending = []) {executions : List Execution} (hknows : scheduler.Knows executions)
include h hcounted hpending hknows

theorem tracks_handle {event : Event}
    (htracks : scheduler.Tracks (fun task => scheduler.Runs task ∧ task ∉ event.reported) executions) :
    let commands := commandsOf (scheduler.run (SchedulerM.handle event)).1
    let final := (scheduler.run (SchedulerM.handle event)).2
    Command.AllFit executions commands ∧ final.pending = [] ∧
      final.Tracks final.Runs (commands.foldl Command.obeyed executions) := by
  intro commands final
  have hreaction := SchedulerM.reacts_handle h.sound event
  have hhalts := hreaction.halts hcounted
  obtain ⟨hall, hfinal⟩ := (htracks.halts hknows hhalts).obeyed hreaction.quiet hhalts.nodup hhalts.stopped
  exact ⟨hall, hreaction.pending_eq.trans hpending, hfinal.congr fun task => (hhalts.runs task).symm⟩

omit hcounted hknows in
theorem tracks_finishStep (policy : Policy) {commands : List Command}
    (hall : Command.AllFit executions commands)
    (htracks : scheduler.Tracks scheduler.Runs (commands.foldl Command.obeyed executions)) :
    let step := scheduler.finishStep policy commands
    Command.AllFit executions step.1.commands ∧ step.2.pending = [] ∧
      step.2.Tracks step.2.Runs (step.1.commands.foldl Command.obeyed executions) := by
  intro step
  obtain ⟨assignments, hstarts, hobeyed⟩ := obeyed_finishStep h.sound hpending policy commands
  obtain ⟨hsame, hfit⟩ := hobeyed executions
  obtain ⟨hfits, hafter⟩ := htracks.starts hstarts h.sound (orderly_finishStep h policy commands).sound
  exact ⟨hfit hall hfits, hstarts.pending.trans hpending, hsame ▸ hafter⟩

omit h hknows in
theorem knows_finishStep (policy : Policy) {commands : List Command}
    (hknows : scheduler.Knows (commands.foldl Command.obeyed executions)) :
    let step := scheduler.finishStep policy commands
    step.2.Knows (step.1.commands.foldl Command.obeyed executions) := by
  intro step
  obtain ⟨assignments, hstarts, hobeyed⟩ := obeyed_finishStep hcounted.toSound hpending policy commands
  rw [(hobeyed executions).1]
  exact hknows.starts hstarts hcounted

-- An operation that leaves an id to give is about jobs that the scheduler knows.
theorem knows_perform {operation : Operation} (hrecovery : operation.isRecovery = false)
    (hlast : .last ∉ scheduler.gives operation) :
    let performed := scheduler.perform operation
    performed.2.Counted ∧ performed.2.Knows (performed.1.foldl Command.obeyed executions) := by
  intro performed
  have hperforms := performs_counting h.sound hlast
  obtain ⟨hmid, hlater⟩ := hperforms.handled.counted Terms.counting_not_last hcounted
  refine ⟨(hperforms.passes.leads.counted Terms.counting_not_last hmid).1, ?_⟩
  cases operation with
  | submit submission => exact hknows.mono hlater.nextId
  | recover jobs => cases hrecovery
  | kickoff policy => exact knows_finishStep hcounted hpending policy hknows
  | step policy event =>
      by_cases hshutdown : event = .shutdown
      · subst hshutdown
        simp only [performed, perform, step, cleared_eq_self hpending, hpending]
        exact hknows
      · have hreaction := SchedulerM.reacts_handle h.sound event
        simp only [performed, perform, step_of_ne_shutdown policy hshutdown]
        exact knows_finishStep hmid (hreaction.pending_eq.trans hpending) policy
          ((hknows.mono hlater.nextId).obeyed hreaction.quiet)

theorem tracks_perform {operation : Operation} (hrecovery : operation.isRecovery = false)
    (htracks : scheduler.Tracks (fun task => scheduler.Runs task ∧ task ∉ operation.reported)
      executions) :
    let performed := scheduler.perform operation
    Command.AllFit executions performed.1 ∧ performed.2.pending = [] ∧
      performed.2.Tracks performed.2.Runs (performed.1.foldl Command.obeyed executions) := by
  have hnothing (hreported : operation.reported = []) : scheduler.Tracks scheduler.Runs executions :=
    htracks.congr fun task => by simp [hreported]
  cases operation with
  | submit submission =>
      have hnone := (SchedulerM.reacts_handle h.sound (.submitted submission)).commandsOf_submitted
      have hreported : scheduler.Tracks (fun task => scheduler.Runs task ∧
          task ∉ (Event.submitted submission).reported) executions := htracks
      have hhandled := tracks_handle h hcounted hpending hknows hreported
      rw [hnone, SchedulerM.handle, ← run_submit] at hhandled
      exact hhandled
  | recover jobs => cases hrecovery
  | kickoff policy => exact tracks_finishStep h hpending policy trivial (hnothing rfl)
  | step policy event =>
      by_cases hshutdown : event = .shutdown
      · subst hshutdown
        simp only [perform, step, cleared_eq_self hpending, hpending]
        exact ⟨trivial, trivial, hnothing rfl⟩
      · obtain ⟨hall, hclear, hfinal⟩ := tracks_handle h hcounted hpending hknows htracks
        simp only [perform, step_of_ne_shutdown policy hshutdown]
        exact tracks_finishStep (orderly_handle h event) hclear policy hall hfinal

end Perform

end Scheduler

namespace Exchange

variable {exchange heard : Exchange} {operation : Operation}

theorem Faithful.hears (h : exchange.Faithful) (hhears : exchange.Hears heard operation) :
    heard.scheduler = exchange.scheduler ∧ operation.isRecovery = false ∧
      heard.scheduler.Tracks (fun task => heard.scheduler.Runs task ∧ task ∉ operation.reported)
        heard.executions ∧ heard.scheduler.Knows heard.executions := by
  cases hhears with
  | request hrequest =>
      cases operation with
      | submit | kickoff => exact ⟨rfl, rfl, h.tracks.congr fun task => by simp [Operation.reported], h.knows⟩
      | recover => cases hrequest
      | step policy event =>
          have hnone : event.reported = [] := List.isEmpty_iff.mp hrequest
          exact ⟨rfl, rfl, h.tracks.congr fun task => by simp [Operation.reported, hnone], h.knows⟩
  | report hexecutions hreported =>
      refine ⟨rfl, rfl, ?_, (hexecutions ▸ h.knows).report⟩
      rw [Operation.reported, Execution.reported_event]
      exact (hexecutions ▸ h.tracks).report h.orderly.sound hreported

-- Whatever the scheduler hears, its commands fit the executions as they find them, and
-- afterwards the two agree again if ids are left.
theorem Faithful.perform (h : exchange.Faithful) (hhears : exchange.Hears heard operation) :
    Command.AllFit heard.executions (heard.scheduler.perform operation).1 ∧
      (.last ∉ heard.scheduler.gives operation → (heard.perform operation).Faithful) := by
  obtain ⟨hsame, hrecovery, htracks, hknows⟩ := h.hears hhears
  have horderly : heard.scheduler.Orderly := hsame ▸ h.orderly
  have hcounted : heard.scheduler.Counted := hsame ▸ h.counted
  have hpending : heard.scheduler.pending = [] := hsame ▸ h.pending
  obtain ⟨hall, hclear, hfinal⟩ :=
    Scheduler.tracks_perform horderly hcounted hpending hknows hrecovery htracks
  refine ⟨hall, fun hlast => ?_⟩
  obtain ⟨hcounted', hknows'⟩ :=
    Scheduler.knows_perform horderly hcounted hpending hknows hrecovery hlast
  exact ⟨Scheduler.orderly_perform horderly operation, hcounted', hclear, hfinal, hknows'⟩

theorem Reachable.faithful {total : Nat} (h : Reachable total exchange) : exchange.Faithful := by
  induction h with
  | new => exact faithful_new total
  | step _ hhears hlast ih => exact (ih.perform hhears).2 hlast

end Exchange

end JobScheduler
