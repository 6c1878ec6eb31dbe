import JobScheduler.Proofs.Batch.Run
import JobScheduler.Proofs.Simulation.Follow

namespace JobScheduler

theorem Command.filterMap_summary?_ended (records : List Summary) :
    (records.map Command.ended).filterMap Command.summary? = records := by
  rw [List.filterMap_map]
  exact List.filterMap_some

namespace Scheduler

variable {scheduler : Scheduler}

-- A step that may stop once no job is live goes on as long as one is.
theorem keepRunning_finishStep (commands : List Command) :
    let step := scheduler.finishStep (.acceptAll true) commands
    step.1.keepRunning = !step.2.registry.live.isEmpty := by
  intro step
  have hidle : (Policy.acceptAll true).exitWhenIdle = true := rfl
  simp only [step, finishStep, hidle, true_and]
  split
  · rename_i hempty
    simp [hempty]
  · rename_i hlive
    simp [hlive]

theorem summaries_finishStep (hs : scheduler.Sound) (hpending : scheduler.pending = []) (policy : Policy)
    (newly : List Summary) :
    (scheduler.finishStep policy (newly.map Command.ended)).1.commands.filterMap Command.summary? = newly := by
  have hexit : .exit ∉ scheduler.pending ++ newly.map Command.ended := by
    simp [hpending]
  rw [(finishStep_hands_out hs policy hexit).1, hpending, List.nil_append,
    Command.filterMap_summary?_ended]

end Scheduler

namespace Simulation

-- All jobs of a batch have been handed in, and nothing has been started yet.
def ofBatch (batch : Batch) (lines : List (String × ScriptLine)) : Simulation :=
  ⟨(Scheduler.new batch.limits.resources).reached (batch.jobs.map .submit), .ofLines lines,
    ⟨batch.limits.eventQueueLength, []⟩, []⟩

-- A simulation at the same point as a batch that is played.
structure InStep (simulation : Simulation) (batch : Batch) (lines : SortedMap String ScriptLine)
    (count : Nat) (exchange : Exchange) : Prop where
  played : batch.Played count exchange
  scheduler : simulation.scheduler = exchange.scheduler
  tells : simulation.Tells batch lines exchange.executions exchange.summaries
  traced : batch.Traced (batch.demand lines) (exchange.executions.map Execution.task) exchange.scheduler

end Simulation

namespace Simulation

section Playable

variable {batch : Batch} {lines : SortedMap String ScriptLine} (hplayable : batch.Playable lines)
include hplayable

-- The end of a step of the batch is one of the simulation.
theorem Tells.inStep {simulation : Simulation} {scheduler : Scheduler} {count : Nat}
    {executions : List Execution} {given : List Command} {newly : List Summary}
    (h : simulation.Tells batch lines executions (given.filterMap Command.summary?))
    (hu : batch.Underway count (given.filterMap Command.summary? ++ newly) scheduler)
    (htraced : batch.Traced (batch.demand lines) (executions.map Execution.task) scheduler)
    (htracks : scheduler.Tracks scheduler.Runs executions) :
    let step := scheduler.finishStep (.acceptAll true) (newly.map Command.ended)
    let exchange : Exchange :=
      ⟨step.2, step.1.commands.foldl Command.obeyed executions, given ++ step.1.commands⟩
    batch.Played count exchange → ∃ simulation', simulation'.InStep batch lines count exchange ∧
      simulation.follow step = some (!step.2.registry.live.isEmpty, simulation') := by
  intro step exchange hplayed
  obtain ⟨simulation', hfollow, hscheduler, htells, htraced'⟩ := h.follow hplayable hu htraced htracks
  have hsummaries : exchange.summaries = given.filterMap Command.summary? ++ newly := by
    rw [Exchange.summaries, List.filterMap_append,
      Scheduler.summaries_finishStep hu.orderly.sound hu.pending (.acceptAll true) newly]
  rw [Scheduler.keepRunning_finishStep] at hfollow
  exact ⟨simulation', ⟨hplayed, hscheduler, hsummaries ▸ htells, htraced'⟩, hfollow⟩

theorem inStep_kickoff {script : List (String × ScriptLine)}
    (hscript : (ScriptedExecutor.ofLines script).lines = lines) :
    ∃ simulation exchange, simulation.InStep batch lines 0 exchange ∧
      (ofBatch batch script).follow ((ofBatch batch script).scheduler.kickoff (.acceptAll true)) =
        some (!exchange.scheduler.registry.live.isEmpty, simulation) := by
  have hall := hplayable.runnable
  have hjoined := Batch.joined_reached hplayable.few hall batch.jobs.length (Nat.le_refl _)
  rw [List.take_length] at hjoined
  have htells : (ofBatch batch script).Tells batch lines [] (([] : List Command).filterMap Command.summary?) :=
    ⟨rfl, rfl, ScriptedExecutor.executed_ofLines script, hscript ▸ ScriptedExecutor.recalls_ofLines script, .nil⟩
  have htracks := (Batch.reachable_submitted hplayable.few).faithful.tracks
  have hplayed : batch.Played 0 (batch.submitted.perform (.kickoff (.acceptAll true))) := .kickoff
  rw [Batch.submitted_eq] at htracks hplayed
  have hu : batch.Underway 0 (([] : List Command).filterMap Command.summary? ++ []) _ := hjoined.underway
  obtain ⟨simulation, hinStep, hfollow⟩ := htells.inStep hplayable hu
    (Batch.traced_submitted hplayable.few hall hplayable.demand_pos) htracks hplayed
  exact ⟨simulation, _, hinStep, hfollow⟩

variable {simulation : Simulation} {count : Nat} {exchange : Exchange}

-- As long as the scheduler does not ask to exit there is a report to read, and reading it
-- keeps the simulation in step.
theorem InStep.round (h : simulation.InStep batch lines count exchange) (hexit : .exit ∉ exchange.given) :
    ∃ event waiting simulation' exchange', simulation.channel.waiting = event :: waiting ∧
      simulation'.InStep batch lines (count + 1) exchange' ∧
      follow { simulation with channel := { simulation.channel with waiting } }
          (simulation.scheduler.step (.acceptAll true) event) =
        some (!exchange'.scheduler.registry.live.isEmpty, simulation') := by
  have hall := hplayable.runnable
  have hinPlay := h.played.inPlay hplayable.few hall hplayable.pauseless
  have hfaithful := hinPlay.faithful
  have hs := hfaithful.orderly.sound
  obtain ⟨before, execution, after, event, waiting, hexecutions, hout, hwaiting, hawaits, hread⟩ :=
    h.tells.read (hinPlay.exists_outstanding hall hexit)
  obtain ⟨result, rfl, -⟩ := id hawaits
  have hmem : execution ∈ exchange.executions := by simp [hexecutions]
  have hruns : exchange.scheduler.Runs execution.task :=
    (hfaithful.tracks.outstanding _).mp (Execution.mem_outstanding_iff.mpr ⟨execution, hmem, hout, rfl⟩)
  have hreported : execution.reported = false := by
    simpa [Execution.isOutstanding] using (Bool.and_eq_true_iff.mp hout).1
  obtain ⟨htraced, newly, hnewly⟩ := h.traced.reaction hinPlay.underway hplayable.calm
    hplayable.demand_pos hruns hawaits.again (SchedulerM.reacts_handle hs _)
  have hu := hinPlay.underway.completed hplayable.pauseless hruns result
  have hplayed := Batch.Played.report before execution after result h.played hexit hexecutions hout
  have htracks : exchange.scheduler.Tracks (fun task => exchange.scheduler.Runs task ∧
      task ∉ (Event.completed execution.task result).reported) (before ++ execution.report :: after) :=
    (hexecutions ▸ hfaithful.tracks).report hs hreported
  have hknows := (hexecutions ▸ hfaithful.knows).report
  obtain ⟨-, -, hhandled⟩ :=
    Scheduler.tracks_handle hfaithful.orderly hfaithful.counted hfaithful.pending hknows htracks
  have hevent : Event.completed execution.task result ≠ .shutdown := by simp
  simp only [Exchange.perform, Scheduler.perform, Scheduler.step_of_ne_shutdown (.acceptAll true) hevent,
    hnewly] at hplayed
  dsimp only at hu
  rw [hnewly, Command.filterMap_summary?_ended] at hu
  rw [hnewly, foldl_obeyed_ended] at hhandled
  have htasks : exchange.executions.map Execution.task =
      (before ++ execution.report :: after).map Execution.task := by
    rw [hexecutions, List.map_append, List.map_append]
    rfl
  obtain ⟨simulation', hinStep, hfollow⟩ := hread.inStep hplayable hu (htasks ▸ htraced) hhandled hplayed
  refine ⟨_, waiting, simulation', _, hwaiting, hinStep, ?_⟩
  rw [h.scheduler, Scheduler.step_of_ne_shutdown (.acceptAll true) hevent, hnewly]
  exact hfollow

-- Every round uses an execution, so the scheduler asks to exit before none is left.
theorem InStep.rounds (h : simulation.InStep batch lines count exchange) (hexit : .exit ∉ exchange.given)
    (remaining : Nat) (hremaining : batch.executions ≤ count + remaining) :
    ∃ final count' exchange', final.InStep batch lines count' exchange' ∧ .exit ∈ exchange'.given ∧
      ∀ left, batch.executions ≤ count + left →
        rounds (.acceptAll true) left simulation = (.exited, final) := by
  induction remaining generalizing count exchange simulation with
  | zero =>
      obtain ⟨_, _, _, exchange', _, hnext, _⟩ := h.round hplayable hexit
      have hleft := (hnext.played.inPlay hplayable.few hplayable.runnable hplayable.pauseless).underway.left
      omega
  | succ remaining ih =>
      obtain ⟨event, waiting, simulation', exchange', hwaiting, hnext, hfollow⟩ := h.round hplayable hexit
      have hinPlay := hnext.played.inPlay hplayable.few hplayable.runnable hplayable.pauseless
      have hused := hinPlay.underway.left
      have hone (left : Nat) (hleft : batch.executions ≤ count + left) :
          ∃ later, left = later + 1 ∧ batch.executions ≤ count + 1 + later :=
        ⟨left - 1, by omega, by omega⟩
      by_cases hexit' : .exit ∈ exchange'.given
      · refine ⟨simulation', _, exchange', hnext, hexit', fun left hleft => ?_⟩
        obtain ⟨later, rfl, -⟩ := hone left hleft
        rw [hinPlay.exit.mp hexit'] at hfollow
        simp only [Simulation.rounds, hwaiting, hfollow, Bool.not_true]
      · obtain ⟨final, count', exchange'', hfinal, hends, hrounds⟩ := ih hnext hexit' (by omega)
        refine ⟨final, count', exchange'', hfinal, hends, fun left hleft => ?_⟩
        obtain ⟨later, rfl, hlater⟩ := hone left hleft
        have hlive : exchange'.scheduler.registry.live.isEmpty = false :=
          Bool.eq_false_iff.mpr fun hempty => hexit' (hinPlay.exit.mpr hempty)
        rw [hlive] at hfollow
        simp only [Simulation.rounds, hwaiting, hfollow, Bool.not_false]
        exact hrounds later hlater

theorem exists_run {script : List (String × ScriptLine)}
    (hscript : (ScriptedExecutor.ofLines script).lines = lines) :
    ∃ final count exchange, final.InStep batch lines count exchange ∧ .exit ∈ exchange.given ∧
      ∀ limit, batch.executions ≤ limit →
        (ofBatch batch script).run (.acceptAll true) limit = (.exited, final) := by
  obtain ⟨simulation, exchange, hstart, hfollow⟩ := inStep_kickoff hplayable hscript
  have hinPlay := hstart.played.inPlay hplayable.few hplayable.runnable hplayable.pauseless
  by_cases hexit : .exit ∈ exchange.given
  · refine ⟨simulation, 0, exchange, hstart, hexit, fun limit _ => ?_⟩
    rw [hinPlay.exit.mp hexit] at hfollow
    simp only [run, hfollow, Bool.not_true]
  · obtain ⟨final, count, exchange', hfinal, hends, hrounds⟩ :=
      hstart.rounds hplayable hexit batch.executions (Nat.le_add_left _ _)
    refine ⟨final, count, exchange', hfinal, hends, fun limit hlimit => ?_⟩
    have hlive : exchange.scheduler.registry.live.isEmpty = false :=
      Bool.eq_false_iff.mpr fun hempty => hexit (hinPlay.exit.mpr hempty)
    rw [hlive] at hfollow
    simp only [run, hfollow, Bool.not_false]
    exact hrounds limit (by omega)

omit hplayable in
theorem executionsLeft_le_allowance (job : LiveJob) : job.executionsLeft ≤ allowance job.submission := by
  rw [allowance, total, ← List.sum_eq_foldl, LiveJob.executionsLeft]
  generalize job.executions = used
  induction job.submission.tasks generalizing used with
  | nil => simp
  | cons first rest ih =>
      cases used with
      | nil => simp
      | cons count used =>
          have hrest := ih used
          simp only [List.zipWith_cons_cons, List.map_cons, List.sum_cons]
          omega

-- A simulation is given more rounds than there are executions.
theorem executions_le_limit (script : List (String × ScriptLine)) :
    batch.executions ≤ (ofBatch batch script).limit := by
  have hjoined := Batch.joined_reached hplayable.few hplayable.runnable batch.jobs.length (Nat.le_refl _)
  rw [List.take_length] at hjoined
  have hleft := hjoined.left
  rw [List.take_length] at hleft
  have hlimit : (ofBatch batch script).limit =
      (((ofBatch batch script).scheduler.registry.live.values.map fun job => allowance job.submission)).sum := by
    simp [limit, ofBatch, total, ← List.sum_eq_foldl]
  rw [hlimit, Batch.executions, List.map_flatMap, ← hleft, SortedMap.total]
  exact List.sum_le_sum fun job _ => executionsLeft_le_allowance job

end Playable

-- A batch that goes on by itself by a script is run to the end: the scheduler reads no
-- empty queue and no report finds it full, every job ends, once and finished, and every task
-- is executed as often as the script makes it, never before what it comes after is done with.
theorem plays_to_end {batch : Batch} {script : List (String × ScriptLine)}
    (h : batch.Playable (ScriptedExecutor.ofLines script).lines) :
    (∀ index submission, batch.jobs[index]? = some submission →
      (((Scheduler.new batch.limits.resources).reached ((batch.jobs.take index).map .submit)).run
        (SchedulerM.submit submission)).1 = .ok (.nth index)) ∧
    ∃ (final : Simulation) (trace : List TaskId),
      (∀ limit, batch.executions ≤ limit →
        (ofBatch batch script).run (.acceptAll true) limit = (.exited, final)) ∧
      (ofBatch batch script).runToEnd (.acceptAll true) = (.exited, final) ∧
      (final.ended.map Summary.id).Perm ((List.range batch.jobs.length).map .nth) ∧
      (∀ summary ∈ final.ended, summary.status = .finished) ∧
      final.executor.executed =
        trace.map (fun id => s!"{batch.jobName id.job}/{batch.taskName id}") ∧
      (∀ id, trace.count id = batch.demand (ScriptedExecutor.ofLines script).lines id) ∧
      trace.Pairwise fun earlier later => ¬batch.ComesAfter earlier later := by
  refine ⟨fun index submission hsubmission => ?_, ?_⟩
  · obtain ⟨hlt, -⟩ := List.getElem?_eq_some_iff.mp hsubmission
    have hrunnable := h.runnable submission (List.mem_of_getElem? hsubmission)
    exact ((Batch.joined_reached h.few h.runnable index (Nat.le_of_lt hlt)).submit
      (Nat.lt_trans hlt h.few) hsubmission hrunnable).1
  obtain ⟨final, count, exchange, hfinal, hexit, hrun⟩ := exists_run h rfl
  have hinPlay := hfinal.played.inPlay h.few h.runnable h.pauseless
  obtain ⟨-, hended, hfair⟩ := hinPlay.all_ended h.few hexit
  have hnone (id : JobId) : exchange.scheduler.registry.find? id = none :=
    SortedMap.isEmpty_iff.mp (hinPlay.exit.mp hexit) id
  rw [← hfinal.tells.ended] at hended hfair
  refine ⟨final, exchange.executions.map Execution.task, hrun, hrun _ (executions_le_limit h script), hended,
    fun summary hmem => ?_, hfinal.tells.noted, fun id => ?_, hfinal.traced.ordered⟩
  · have hid := hended.subset (List.mem_map_of_mem hmem)
    obtain ⟨index, hindex, hsame⟩ := List.mem_map.mp hid
    have hlt := List.mem_range.mp hindex
    have hnumber : summary.id.number.toNat = index := hsame ▸ JobId.toNat_nth (Nat.lt_trans hlt h.few)
    have hsubmission : batch.jobs[summary.id.number.toNat]? = some batch.jobs[index] := by
      rw [hnumber]
      exact List.getElem?_eq_getElem hlt
    rw [hfair summary hmem _ hsubmission, (h.calm _ (List.mem_of_getElem? hsubmission)).1]
    simp
  · by_cases hdeclared : (batch.declared? id).isSome
    · exact hfinal.traced.finished id hdeclared (hnone _)
    · have hfresh : id ∉ exchange.executions.map Execution.task := fun hmem =>
        hdeclared (hfinal.traced.declared id hmem)
      rw [List.count_eq_zero_of_not_mem hfresh, Batch.demand]
      rw [Option.not_isSome_iff_eq_none] at hdeclared
      rw [hdeclared]

-- A job of two tasks, of which the first one may be executed three times.
def stubbornRelease : Submission :=
  { Scheduler.release with
    tasks := [⟨"a", "make", [], 1, false, 3⟩, ⟨"b", "make test", ["a"], 1, false, 1⟩] }

-- The first task fails once, so it is executed twice.
theorem plays_to_end_stubbornRelease :
    let batch : Batch := ⟨⟨2, 2⟩, [stubbornRelease]⟩
    let script := [("a", ScriptLine.failTimes 1)]
    batch.Playable (ScriptedExecutor.ofLines script).lines ∧
      ∃ (final : Simulation) (trace : List TaskId),
        (ofBatch batch script).runToEnd (.acceptAll true) = (.exited, final) ∧
        final.executor.executed =
          trace.map (fun id => s!"{batch.jobName id.job}/{batch.taskName id}") ∧
        trace.count ⟨⟨0⟩, 0⟩ = 2 ∧ trace.count ⟨⟨0⟩, 1⟩ = 1 := by
  intro batch script
  have hrunnable (submission : Submission) (hmem : submission ∈ batch.jobs) :
      Config.Runnable batch.limits submission := by
    obtain rfl := List.mem_singleton.mp hmem
    exact ⟨by decide, Scheduler.resolve_of_graph stubbornRelease rfl rfl rfl rfl ⟨0⟩⟩
  have hfew : batch.jobs.length < 2 ^ 64 := by decide
  have hplayable : batch.Playable (ScriptedExecutor.ofLines script).lines := by
    refine ⟨hfew, fun index submission hsubmission => ?_, by decide, by decide, by decide, by decide, by decide⟩
    obtain ⟨hlt, -⟩ := List.getElem?_eq_some_iff.mp hsubmission
    exact ⟨_, ((Batch.joined_reached hfew hrunnable index (Nat.le_of_lt hlt)).submit (Nat.lt_trans hlt hfew)
      hsubmission (hrunnable submission (List.mem_of_getElem? hsubmission))).1⟩
  obtain ⟨-, final, trace, -, hrun, -, -, hexecuted, hcount, -⟩ := plays_to_end hplayable
  refine ⟨hplayable, final, trace, hrun, hexecuted, ?_, ?_⟩
  · rw [hcount]
    decide
  · rw [hcount]
    decide

end Simulation

end JobScheduler
