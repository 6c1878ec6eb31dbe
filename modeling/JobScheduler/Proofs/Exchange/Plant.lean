import JobScheduler.Executor.Plant
import JobScheduler.Proofs.Exchange.Errands
import JobScheduler.Proofs.Exchange.Foreman
import JobScheduler.Proofs.Exchange.Opening

namespace JobScheduler

def Message.work? : Message → Option Assignment
  | .asked _ => none
  | .reported work _ => some work

namespace Plant

-- Requests in the order in which the foreman will receive them.
def flight (plant : Plant) : List Errand := plant.errands ++ plant.outbox

-- The ids that a move makes the scheduler give to jobs.
def gives (plant : Plant) : Move → List JobId
  | .hear policy =>
      match plant.messages with
      | [] => []
      | message :: _ => plant.scheduler.gives (.step policy message.event)
  | .ask _ | .send | .receive | .report .. | .abandon _ | .finish _ => []

def ids (plant : Plant) : List Move → List JobId
  | [] => []
  | move :: rest => plant.gives move ++ (plant.move? move).elim [] (·.ids rest)

-- All work on which a report may still be heard: it waits to be started, or for its runner to
-- report, or the report waits to be heard.
def unheard (plant : Plant) : List Assignment :=
  Errand.works plant.flight ++ plant.foreman.unreported ++ plant.messages.filterMap Message.work?

-- The scheduler and the executions it has handed out agree. The foreman is on a task only
-- while that cannot get in the way of the next run.
structure Coupled (plant : Plant) (executions : List Execution) : Prop where
  faithful : Exchange.Faithful ⟨plant.scheduler, executions, []⟩
  awaits : Awaits executions plant.unheard
  settled : AllSettled executions plant.flight
  held : plant.foreman.Holds (Assignment.Settled executions plant.flight)
  asked : ∀ event, .asked event ∈ plant.messages → event.reported = []

-- What a move can be as long as ids are left. A runner leaves off where it ends or its report
-- goes nowhere.
inductive Moved (plant : Plant) : Plant → Prop
  | ask {event} : event.reported = [] →
      Moved plant { plant with messages := plant.messages ++ [.asked event] }
  | hear {policy message messages} : plant.outbox = [] → plant.messages = message :: messages →
      .last ∉ plant.scheduler.gives (.step policy message.event) →
      Moved plant ({ plant with messages }.follow (plant.scheduler.step policy message.event))
  | send {errand outbox} : plant.outbox = errand :: outbox →
      Moved plant { plant with outbox, errands := plant.errands ++ [errand] }
  | receive {errand errands} : plant.errands = errand :: errands →
      Moved plant { plant with errands, foreman := plant.foreman.receive errand }
  | report {number runner result} : plant.foreman.runners[number]? = some runner →
      runner.stage = .running →
      Moved plant { plant.advance number .reported with
        messages := plant.messages ++ [.reported runner.work result] }
  | leave {number runner stage} : plant.foreman.runners[number]? = some runner → stage ≠ .running →
      Moved plant (plant.advance number stage)

theorem moved_of_move? {plant next : Plant} {move : Move} (h : plant.move? move = some next)
    (hlast : .last ∉ plant.gives move) : plant.Moved next := by
  cases move with
  | ask event =>
      simp only [move?, ask?] at h
      split at h
      · rename_i hguard
        cases h
        exact .ask (List.isEmpty_iff.mp hguard.1)
      · cases h
  | hear policy =>
      simp only [move?, hear?] at h
      split at h
      · cases h
      · rename_i message messages hmessages
        split at h
        · rename_i hguard
          cases h
          rw [gives, hmessages] at hlast
          exact .hear (List.isEmpty_iff.mp hguard.2) hmessages hlast
        · cases h
  | send =>
      simp only [move?, send?] at h
      split at h
      · cases h
      · rename_i errand outbox houtbox
        split at h
        · cases h
          exact .send houtbox
        · cases h
  | receive =>
      simp only [move?, receive?] at h
      split at h
      · cases h
      · rename_i errand errands herrands
        cases h
        exact .receive herrands
  | report number result =>
      simp only [move?, report?] at h
      split at h
      · cases h
      · rename_i runner hrunner
        split at h
        · cases h
        · rename_i hrunning
          split at h
          · cases h
            exact .leave hrunner (by simp)
          · split at h
            · cases h
              exact .report hrunner (not_not.mp hrunning)
            · cases h
  | abandon number =>
      simp only [move?, abandon?] at h
      split at h
      · cases h
      · rename_i runner hrunner
        split at h
        · cases h
          exact .leave hrunner (by simp)
        · cases h
  | finish number =>
      simp only [move?, finish?] at h
      split at h
      · cases h
      · rename_i runner hrunner
        split at h
        · cases h
          exact .leave hrunner (by simp)
        · cases h

section Steps

variable {plant : Plant} {executions : List Execution}

-- A step of the scheduler, when all that was asked for before has been sent.
theorem coupled_follow {step : Step × Scheduler}
    (hfaithful : Exchange.Faithful ⟨step.2, step.1.commands.foldl Command.obeyed executions, []⟩)
    (hall : Command.AllFit executions step.1.commands) (hsent : plant.outbox = [])
    (hawaits : Awaits executions plant.unheard) (hflight : AllSettled executions plant.flight)
    (hheld : plant.foreman.Holds (Assignment.Settled executions plant.flight))
    (hasked : ∀ event, .asked event ∈ plant.messages → event.reported = []) :
    (plant.follow step).Coupled (step.1.commands.foldl Command.obeyed executions) := by
  obtain ⟨hawaited, hsettled, hkept⟩ := obey_all hall hawaits hflight
  have hqueue : (plant.follow step).flight =
      plant.flight ++ step.1.commands.flatMap Command.errands := by
    rw [flight, flight, hsent, List.append_nil]
    rfl
  have hunheard : (plant.follow step).unheard = Errand.works plant.flight ++
      Errand.works (step.1.commands.flatMap Command.errands) ++ plant.foreman.unreported ++
      plant.messages.filterMap Message.work? := by
    rw [unheard, hqueue, Errand.works_append]
    rfl
  refine ⟨hfaithful, hawaited.subperm (List.Perm.subperm ?_), ?_, ?_, hasked⟩
  · rw [hunheard, unheard, List.perm_iff_count]
    intro work
    simp only [List.count_append]
    omega
  · rw [hqueue]
    exact hsettled
  · rw [hqueue]
    exact hheld.imp hkept

theorem coupled_opened {scheduler : Scheduler} (h : scheduler.Unstarted) (hcounted : scheduler.Counted)
    (policy : Policy) (room : Nat) : ∃ executions, (opened policy scheduler room).Coupled executions := by
  obtain ⟨hall, hfaithful⟩ := h.faithful_kickoff hcounted policy
  exact ⟨_, coupled_follow hfaithful hall rfl ⟨List.nodup_nil, fun _ h => by cases h⟩ trivial
    Foreman.holds_new fun _ h => by cases h⟩

variable (h : plant.Coupled executions)
include h

theorem Coupled.ask {event : Event} (hevent : event.reported = []) :
    ({ plant with messages := plant.messages ++ [.asked event] } : Plant).Coupled executions := by
  refine ⟨h.faithful, ?_, h.settled, h.held, fun other hother => ?_⟩
  · rw [unheard, List.filterMap_append]
    exact (List.append_nil (plant.messages.filterMap Message.work?)).symm ▸ h.awaits
  · rcases List.mem_append.mp hother with hold | hnew
    · exact h.asked other hold
    · cases List.mem_singleton.mp hnew
      exact hevent

-- Whatever the scheduler hears, it is a request or the report of an execution that has not
-- been heard before.
theorem Coupled.hear (hsent : plant.outbox = []) {message : Message} {messages : List Message}
    (hmessages : plant.messages = message :: messages) (policy : Policy)
    (hlast : .last ∉ plant.scheduler.gives (.step policy message.event)) :
    ∃ executions', ({ plant with messages }.follow
      (plant.scheduler.step policy message.event)).Coupled executions' := by
  have hasked : ∀ event, .asked event ∈ messages → event.reported = [] := fun event hevent =>
    h.asked event (hmessages ▸ List.mem_cons_of_mem _ hevent)
  cases message with
  | asked event =>
      have hrequest : (Operation.step policy event).isRequest :=
        List.isEmpty_iff.mpr (h.asked event (hmessages ▸ List.mem_cons_self))
      obtain ⟨hall, hperform⟩ := h.faithful.perform (.request hrequest)
      have hfinal := hperform hlast
      have hawaits := h.awaits
      rw [unheard, hmessages] at hawaits
      exact ⟨_, coupled_follow (hfinal.given []) hall hsent hawaits h.settled h.held hasked⟩
  | reported work result =>
      have hawaits : Awaits executions (work :: ({ plant with messages } : Plant).unheard) := by
        refine h.awaits.subperm (List.Perm.subperm ?_)
        rw [unheard, unheard, hmessages]
        exact List.perm_middle.symm
      obtain ⟨execution, hmem, hlabel, hreported⟩ := hawaits.unreported work List.mem_cons_self
      obtain ⟨before, after, rfl⟩ := List.append_of_mem hmem
      have htask : execution.task = work.task := congrArg Prod.fst hlabel
      have hhears : Exchange.Hears ⟨plant.scheduler, before ++ execution :: after, []⟩
          ⟨plant.scheduler, before ++ execution.report :: after, []⟩
          (.step policy (execution.event (some result))) := .report rfl hreported
      have hevent : execution.event (some result) = (Message.reported work result).event := by
        rw [Execution.event, htask]
        rfl
      obtain ⟨hall, hperform⟩ := h.faithful.perform hhears
      rw [hevent] at hall hperform
      exact ⟨_, coupled_follow ((hperform hlast).given []) hall hsent
        (hawaits.report hlabel) (h.settled.imp fun _ _ => Assignment.Settled.report)
        (h.held.imp fun _ => Assignment.Settled.report) hasked⟩

theorem Coupled.send {errand : Errand} {outbox : List Errand} (houtbox : plant.outbox = errand :: outbox) :
    ({ plant with outbox, errands := plant.errands ++ [errand] } : Plant).Coupled executions := by
  have hsame : ({ plant with outbox, errands := plant.errands ++ [errand] } : Plant).flight = plant.flight := by
    rw [flight, flight, houtbox, List.append_assoc]
    rfl
  refine ⟨h.faithful, ?_, ?_, ?_, h.asked⟩
  · rw [unheard, hsame]
    exact h.awaits
  · rw [hsame]
    exact h.settled
  · rw [hsame]
    exact h.held

theorem Coupled.receive {errand : Errand} {errands : List Errand}
    (herrands : plant.errands = errand :: errands) :
    ({ plant with errands, foreman := plant.foreman.receive errand } : Plant).Coupled executions := by
  have hflight : plant.flight = errand :: (errands ++ plant.outbox) := by
    rw [flight, herrands]
    rfl
  have hawaits := h.awaits
  have hsettled := h.settled
  have hheld := h.held.sweep
  rw [unheard, hflight] at hawaits
  rw [hflight] at hsettled hheld
  cases errand with
  | run work =>
      refine ⟨h.faithful, hawaits.subperm ?_, hsettled.2,
        (hheld.imp fun _ => Assignment.Settled.received).start hsettled.1, h.asked⟩
      have hstarted : (plant.foreman.receive (.run work)).unreported.Subperm
          (plant.foreman.unreported ++ [work]) := by
        rw [Foreman.receive, Foreman.unreported_start, Foreman.unreported_sweep]
        split
        · exact (List.sublist_append_left _ _).subperm
        · exact List.Subperm.refl _
      refine (((List.Subperm.refl _).append hstarted).append (List.Subperm.refl _)).trans
        (List.Perm.subperm (List.perm_iff_count.mpr fun other => ?_))
      change List.count other (Errand.works (errands ++ plant.outbox) ++ _ ++ _) =
        List.count other (work :: Errand.works (errands ++ plant.outbox) ++ _ ++ _)
      simp only [List.count_append, List.count_cons, List.count_nil]
      omega
  | stop tasks =>
      refine ⟨h.faithful, ?_, hsettled,
        (hheld.stopAll tasks).imp fun work hwork => hwork.1.tail (decide_eq_false hwork.2), h.asked⟩
      rw [unheard, Foreman.receive, Foreman.unreported_stopAll]
      exact hawaits

-- A runner that comes to an end, or the report of which goes nowhere.
theorem Coupled.leave {number : Nat} {runner : Runner} {stage : Stage}
    (hrunner : plant.foreman.runners[number]? = some runner) (hstage : stage ≠ .running) :
    (plant.advance number stage).Coupled executions := by
  obtain ⟨before, after, hbefore, hafter⟩ := Foreman.unreported_alter hrunner ({ · with stage })
  have hover : Runner.unreported { runner with stage } = [] := if_neg hstage
  rw [hover, List.append_nil] at hafter
  refine ⟨h.faithful, h.awaits.subperm ?_, h.settled, h.held.alter number fun _ => rfl, h.asked⟩
  rw [unheard, unheard, advance, hafter, hbefore]
  refine List.Sublist.subperm (((List.Sublist.refl _).append ?_).append (List.Sublist.refl _))
  exact (List.sublist_append_left before _).append_right after

theorem Coupled.report {number : Nat} {runner : Runner} (result : TaskResult)
    (hrunner : plant.foreman.runners[number]? = some runner) (hrunning : runner.stage = .running) :
    ({ plant.advance number .reported with
      messages := plant.messages ++ [.reported runner.work result] } : Plant).Coupled executions := by
  obtain ⟨before, after, hbefore, hafter⟩ := Foreman.unreported_alter hrunner
    ({ · with stage := .reported })
  have hover : Runner.unreported { runner with stage := .reported } = [] := rfl
  rw [Runner.unreported, if_pos hrunning] at hbefore
  rw [hover, List.append_nil] at hafter
  have hunheard : ({ plant.advance number .reported with
      messages := plant.messages ++ [.reported runner.work result] } : Plant).unheard =
        Errand.works plant.flight ++ (before ++ after) ++
          (plant.messages.filterMap Message.work? ++ [runner.work]) := by
    rw [unheard, advance, hafter, List.filterMap_append]
    rfl
  refine ⟨h.faithful, h.awaits.subperm (List.Perm.subperm ?_), h.settled, h.held.alter number fun _ => rfl,
    fun event hevent => h.asked event ?_⟩
  · rw [hunheard, unheard, hbefore, List.perm_iff_count]
    intro work
    simp only [List.count_append]
    omega
  · simpa using hevent

-- One move keeps a plant coupled, though perhaps to other executions.
theorem Coupled.moved {next : Plant} (hmoved : plant.Moved next) :
    ∃ executions', next.Coupled executions' := by
  cases hmoved with
  | ask hevent => exact ⟨_, h.ask hevent⟩
  | hear hsent hmessages hlast => exact h.hear hsent hmessages _ hlast
  | send houtbox => exact ⟨_, h.send houtbox⟩
  | receive herrands => exact ⟨_, h.receive herrands⟩
  | report hrunner hrunning => exact ⟨_, h.report _ hrunner hrunning⟩
  | leave hrunner hstage => exact ⟨_, h.leave hrunner hstage⟩

theorem Coupled.moves {next : Plant} {moves : List Move} (hmoves : plant.moves? moves = some next)
    (hlast : .last ∉ plant.ids moves) : ∃ executions', next.Coupled executions' := by
  induction moves generalizing plant executions with
  | nil =>
      cases hmoves
      exact ⟨_, h⟩
  | cons first rest ih =>
      obtain ⟨mid, hfirst, hrest⟩ := Option.bind_eq_some_iff.mp hmoves
      rw [ids, hfirst, List.mem_append, not_or] at hlast
      obtain ⟨_, hmid⟩ := h.moved (moved_of_move? hfirst hlast.1)
      exact ih hmid hrest hlast.2

omit h in
theorem mem_unheard_of_running {number : Nat} {runner : Runner}
    (hrunner : plant.foreman.runners[number]? = some runner) (hrunning : runner.stage = .running) :
    runner.work ∈ plant.unheard :=
  List.mem_append_left _ (List.mem_append_right _ (Foreman.mem_unreported hrunner hrunning))

omit h in
theorem mem_unheard_of_reported {work : Assignment} {result : TaskResult}
    (hmem : .reported work result ∈ plant.messages) : work ∈ plant.unheard :=
  List.mem_append_right _ (List.mem_filterMap.mpr ⟨_, hmem, rfl⟩)

-- A task is to be run again only after the report on its last run was heard.
theorem Coupled.reported_of_held {work : Assignment} {errands : List Errand}
    (hnext : plant.errands = .run work :: errands) {number : Nat}
    (hactive : plant.foreman.active.find? work.task = some number) :
    ∃ runner, plant.foreman.runners[number]? = some runner ∧ runner.work.task = work.task ∧
      ∀ other ∈ plant.unheard, other.label ≠ runner.work.label := by
  obtain ⟨runner, hrunner, htask, hsettled⟩ := h.held work.task number hactive
  rw [flight, hnext] at hsettled
  obtain ⟨execution, hmem, hlabel, hreported⟩ := hsettled.reported_of_run htask.symm
  refine ⟨runner, hrunner, htask, fun other hunheard hsame => ?_⟩
  obtain ⟨found, hfound, hother, hnot⟩ := h.awaits.unreported other hunheard
  have heq : found = execution := List.inj_on_of_nodup_map h.faithful.tracks.labels hfound hmem
    (hother.trans (hsame.trans hlabel.symm))
  rw [heq, hreported] at hnot
  cases hnot

end Steps

-- As long as ids are left, a run that the foreman receives starts a runner, unless the runner
-- of an earlier run of the task has reported and is not over yet. The scheduler has heard that
-- report by then, which is why it hands the task out again.
theorem starts_unless_lingering (total : Nat) {operations : List Operation}
    (hall : ∀ operation ∈ operations, operation.takesIn) (policy : Policy) (room : Nat) {moves : List Move}
    {plant : Plant}
    (hmoves : (opened policy ((Scheduler.new total).reached operations) room).moves? moves = some plant)
    (hlast : .last ∉ (Scheduler.new total).ids operations ++
      (opened policy ((Scheduler.new total).reached operations) room).ids moves)
    {work : Assignment} {errands : List Errand} (hnext : plant.errands = .run work :: errands) :
    let received := plant.foreman.receive (.run work)
    (plant.foreman.lingering? work.task = none →
      received.runners = plant.foreman.runners ++ [⟨work, .running, false⟩] ∧
      received.active.find? work.task = some plant.foreman.runners.length) ∧
    ∀ runner, plant.foreman.lingering? work.task = some runner →
      received.runners = plant.foreman.runners ∧ runner.work.task = work.task ∧
      runner.work.attempt ≠ work.attempt ∧ ∀ result, .reported runner.work result ∉ plant.messages := by
  intro received
  rw [List.mem_append, not_or] at hlast
  obtain ⟨_, hopened⟩ := coupled_opened (Scheduler.unstarted_reached total hall)
    (Scheduler.counted_reached hlast.1) policy room
  obtain ⟨_, hcoupled⟩ := hopened.moves hmoves hlast.2
  constructor
  · intro hnone
    refine Foreman.receive_run_of_free hnone fun number runner hactive hrunner hrunning => ?_
    obtain ⟨held, hheld, -, hheard⟩ := hcoupled.reported_of_held hnext hactive
    rw [hrunner, Option.some.injEq] at hheld
    exact hheard runner.work (mem_unheard_of_running hrunner hrunning) (congrArg (·.work.label) hheld)
  · intro runner hlingering
    obtain ⟨number, hactive, hrunner, -⟩ := Foreman.lingering?_eq_some_iff.mp hlingering
    obtain ⟨held, hheld, htask, hheard⟩ := hcoupled.reported_of_held hnext hactive
    rw [hrunner, Option.some.injEq] at hheld
    subst hheld
    have hwaiting : work ∈ plant.unheard := by
      rw [unheard, flight, hnext]
      exact List.mem_cons_self
    exact ⟨Foreman.receive_run_of_lingering hlingering, htask,
      fun hattempt => hheard work hwaiting (Prod.ext htask.symm hattempt.symm),
      fun result hmem => hheard runner.work (mem_unheard_of_reported hmem) rfl⟩

-- A release whose first task may be run twice.
def retriedRelease : Submission :=
  { Scheduler.release with
    tasks := [⟨"a", "make", [], 1, false, 2⟩, ⟨"b", "make test", ["a"], 1, false, 1⟩] }

theorem resolve_retriedRelease : retriedRelease.resolve ⟨0⟩ = .ok (retriedRelease.plan ⟨0⟩) :=
  Scheduler.resolve_of_graph retriedRelease rfl rfl rfl rfl ⟨0⟩

def retriedPlant : Plant :=
  opened (.acceptAll true) ((Scheduler.new 1).reached [.submit retriedRelease]) 8

theorem retriedPlant_eq : retriedPlant =
    opened (.acceptAll true) ((Scheduler.new 1).planned retriedRelease (retriedRelease.plan ⟨0⟩)) 8 :=
  congrArg (opened _ · 8) (Scheduler.reached_submit (.new 1) resolve_retriedRelease [])

def firstRun (attempt : Nat) : Assignment := ⟨⟨⟨0⟩, 0⟩, "release", "a", "make", 1, attempt⟩

-- The first task fails, and the request to run it again is sent.
def failing : List Move :=
  [.send, .receive, .report 0 (.failure ⟨⟨0⟩, 0⟩ "exit code 2"), .hear (.acceptAll true), .send]

-- The runner is over before the foreman receives the request.
theorem starts_unless_lingering_retried :
    ∃ plant, retriedPlant.moves? (failing ++ [.finish 0]) = some plant ∧
      plant.errands = [.run (firstRun 2)] ∧ plant.foreman.runners = [⟨firstRun 1, .ended, false⟩] ∧
      (plant.foreman.receive (.run (firstRun 2))).runners =
        [⟨firstRun 1, .ended, false⟩, ⟨firstRun 2, .running, false⟩] := by
  have hshown : (retriedPlant.moves? (failing ++ [.finish 0])).map (fun plant =>
      (plant.errands, plant.foreman.runners, plant.foreman.lingering? ⟨⟨0⟩, 0⟩)) =
      some ([.run (firstRun 2)], [⟨firstRun 1, .ended, false⟩], none) := by
    rw [retriedPlant_eq]
    decide +kernel
  obtain ⟨plant, hmoves, hplant⟩ := Option.map_eq_some_iff.mp hshown
  obtain ⟨hnext, hplant⟩ := Prod.mk.inj hplant
  obtain ⟨hrunners, hnone⟩ := Prod.mk.inj hplant
  have hall : ∀ operation ∈ [Operation.submit retriedRelease], operation.takesIn := by
    simp [Operation.takesIn]
  have hlast : .last ∉ (Scheduler.new 1).ids [.submit retriedRelease] ++
      retriedPlant.ids (failing ++ [.finish 0]) := by
    have hmoved : .last ∉ retriedPlant.ids (failing ++ [.finish 0]) := by
      rw [retriedPlant_eq]
      decide +kernel
    exact List.mem_append.not.mpr (not_or.mpr ⟨Scheduler.last_not_mem_ids 1 0 (by simp) (by decide), hmoved⟩)
  obtain ⟨hstarts, -⟩ := starts_unless_lingering 1 hall (.acceptAll true) 8 hmoves hlast hnext
  refine ⟨plant, hmoves, hnext, hrunners, (hstarts hnone).1.trans ?_⟩
  rw [hrunners]
  rfl

-- The foreman receives the request first and passes it over. When the runner is over nothing
-- is left that could move the task, which the scheduler takes to be running.
theorem retry_passed_over :
    (∃ plant, retriedPlant.moves? failing = some plant ∧ plant.errands = [.run (firstRun 2)] ∧
      (plant.foreman.receive (.run (firstRun 2))).runners = plant.foreman.runners) ∧
    ∃ plant, retriedPlant.moves? (failing ++ [.receive, .finish 0]) = some plant ∧
      plant.scheduler.Runs ⟨⟨0⟩, 0⟩ ∧ plant.flight = [] ∧ plant.messages = [] ∧
      plant.foreman.runners = [⟨firstRun 1, .ended, false⟩] := by
  have hreceives : (retriedPlant.moves? failing).map (fun plant => (plant.errands, plant.foreman.runners,
      (plant.foreman.receive (.run (firstRun 2))).runners)) =
      some ([.run (firstRun 2)], [⟨firstRun 1, .reported, false⟩], [⟨firstRun 1, .reported, false⟩]) := by
    rw [retriedPlant_eq]
    decide +kernel
  have hstays : (retriedPlant.moves? (failing ++ [.receive, .finish 0])).map (fun plant =>
      (plant.flight, plant.messages.isEmpty, plant.foreman.runners)) =
      some ([], true, [⟨firstRun 1, .ended, false⟩]) := by
    rw [retriedPlant_eq]
    decide +kernel
  have hruns : (retriedPlant.moves? (failing ++ [.receive, .finish 0])).bind (fun plant =>
      (plant.scheduler.registry.find? ⟨0⟩).map (·.board.running.toList)) = some [⟨⟨0⟩, 0⟩] := by
    rw [retriedPlant_eq]
    decide +kernel
  obtain ⟨plant, hmoves, hplant⟩ := Option.map_eq_some_iff.mp hreceives
  obtain ⟨hnext, hplant⟩ := Prod.mk.inj hplant
  obtain ⟨hrunners, hreceived⟩ := Prod.mk.inj hplant
  obtain ⟨final, hfinal, hstill⟩ := Option.map_eq_some_iff.mp hstays
  obtain ⟨hflight, hstill⟩ := Prod.mk.inj hstill
  obtain ⟨hmessages, hover⟩ := Prod.mk.inj hstill
  rw [hfinal, Option.bind_some] at hruns
  obtain ⟨job, hjob, hrunning⟩ := Option.map_eq_some_iff.mp hruns
  refine ⟨⟨plant, hmoves, hnext, hreceived.trans hrunners.symm⟩, final, hfinal, ⟨job, hjob, ?_⟩, hflight,
    List.isEmpty_iff.mp hmessages, hover⟩
  rw [hrunning]
  exact List.mem_cons_self

end Plant

end JobScheduler
