import Mathlib.Algebra.Order.BigOperators.Group.List
import Mathlib.Algebra.Order.Ring.Nat
import JobScheduler.Executor.Simulation
import JobScheduler.Proofs.Exchange.Executions
import JobScheduler.Proofs.Simulation.Playable

namespace JobScheduler

-- A running task takes at least one slot.
theorem LiveJob.length_running_le {job : LiveJob} (hs : job.Sound) :
    job.board.running.toList.length ≤ job.board.load := by
  rw [← Board.sum_resourcesOf_running hs.board, ← List.length_map (f := job.board.resourcesOf)]
  refine List.length_le_sum_of_one_le _ fun weight hweight => ?_
  obtain ⟨task, htask, rfl⟩ := List.mem_map.mp hweight
  obtain ⟨card, hcard, -⟩ := Board.placeOf_eq_ok_iff.mp (hs.board.partitioned.mem_running_iff.mp htask)
  rw [Board.resourcesOf, hcard]
  exact hs.resources_pos (Board.Wired.mem_of_card hcard)

-- No more tasks run than there are slots.
theorem Scheduler.Sound.length_le_of_runs {scheduler : Scheduler} (hs : scheduler.Sound)
    {tasks : List TaskId} (hnodup : tasks.Nodup) (h : ∀ task ∈ tasks, scheduler.Runs task) :
    tasks.length ≤ scheduler.slots.total := by
  have hlive (job : LiveJob) (hjob : job ∈ scheduler.registry.live.values) : job.Sound := by
    obtain ⟨⟨id, _⟩, hentry, rfl⟩ := List.mem_map.mp hjob
    exact (hs.jobs id _ (SortedMap.mem_entries_iff.mp hentry)).2
  have hsubset : tasks ⊆ scheduler.registry.live.values.flatMap (·.board.running.toList) := by
    intro task htask
    obtain ⟨job, hjob, hrunning⟩ := h task htask
    exact List.mem_flatMap.mpr ⟨job, List.mem_map.mpr ⟨_, SortedMap.mem_entries_iff.mpr hjob, rfl⟩, hrunning⟩
  calc tasks.length
      ≤ (scheduler.registry.live.values.flatMap (·.board.running.toList)).length :=
        hnodup.length_le_of_subset hsubset
    _ = (scheduler.registry.live.values.map (·.board.running.toList.length)).sum := List.length_flatMap
    _ ≤ (scheduler.registry.live.values.map (·.board.load)).sum :=
        List.sum_le_sum fun job hjob => LiveJob.length_running_le (hlive job hjob)
    _ ≤ scheduler.slots.total := by
        have hslots := hs.slots
        rw [Registry.load, SortedMap.total] at hslots
        omega

namespace Simulation

variable {simulation : Simulation}

-- Reports for which there is room are sent in their order.
theorem sendReports_eq {reports : List (TaskId × TaskResult)}
    (h : simulation.channel.waiting.length + reports.length ≤ simulation.channel.capacity) :
    simulation.sendReports reports = some { simulation with
      channel := { simulation.channel with
        waiting := simulation.channel.waiting ++ reports.map fun report => .completed report.1 report.2 } } := by
  induction reports generalizing simulation with
  | nil => simp [sendReports]
  | cons first rest ih =>
      rw [List.length_cons] at h
      have hroom : simulation.channel.waiting.length < simulation.channel.capacity := by omega
      simp only [sendReports, Channel.send?, if_pos hroom, Option.bind_eq_bind, Option.bind_some]
      rw [ih]
      · simp
      · simp only [List.length_append, List.length_singleton]
        omega

-- Records are kept in their order.
theorem obeyAll_ended (records : List Summary) (commands : List Command) :
    simulation.obeyAll (records.map .ended ++ commands) =
      obeyAll { simulation with ended := simulation.ended ++ records } commands := by
  induction records generalizing simulation with
  | nil => simp
  | cons first rest ih =>
      rw [List.map_cons, List.cons_append, obeyAll, List.foldlM_cons]
      simp only [obey, Option.bind_eq_bind, Option.bind_some]
      rw [← obeyAll, ih]
      simp

theorem obeyAll_dispatched (work : List Assignment) (commands : List Command) :
    simulation.obeyAll (Scheduler.dispatched (.ok work) ++ commands) =
      (simulation.obey (.dispatch work)).bind (obeyAll · commands) := by
  cases work with
  | nil => rfl
  | cons first rest => rfl

end Simulation

namespace Batch

-- What an executor reports of a task that has been executed so often.
def Awaits (batch : Batch) (lines : SortedMap String ScriptLine) (trace : List TaskId)
    (task : TaskId) (event : Event) : Prop :=
  ∃ result, event = .completed task result ∧ ∀ declared, batch.declared? task = some declared →
    result.hadException = ScriptLine.fails (lines.find? declared.name) (trace.count task - 1)

section Awaits

variable {batch : Batch} {lines : SortedMap String ScriptLine} {trace : List TaskId}

-- A report on a task that is not executed again stays right.
theorem Awaits.later {task : TaskId} {event : Event} (h : batch.Awaits lines trace task event)
    {added : List TaskId} (hnew : task ∉ added) : batch.Awaits lines (trace ++ added) task event := by
  rwa [Awaits, List.count_append, List.count_eq_zero_of_not_mem hnew, Nat.add_zero]

theorem awaits_of_reported (hplayable : batch.Playable lines)
    (htrace : ∀ id ∈ trace, (batch.declared? id).isSome) {assignment : Assignment}
    (hbears : batch.Bears assignment) {added : List TaskId} (hnodup : added.Nodup)
    (hadded : assignment.task ∈ added) {result : TaskResult}
    (hfails : result.hadException =
      ScriptLine.fails (lines.find? assignment.name) ((trace.map batch.taskName).count assignment.name)) :
    batch.Awaits lines (trace ++ added) assignment.task (.completed assignment.task result) := by
  refine ⟨result, rfl, fun declared hdeclared => ?_⟩
  rw [List.count_append, List.count_eq_one_of_mem hnodup hadded, Nat.add_sub_cancel]
  rwa [hbears.name, hplayable.count_taskName htrace hbears.declared, taskName_of_declared hdeclared] at hfails

-- A result that the script asks for makes a task run again just if it needs to.
theorem Awaits.again {task : TaskId} {result : TaskResult}
    (h : batch.Awaits lines trace task (.completed task result)) (declared : Submission.Task) (used : Nat)
    (hdeclared : batch.declared? task = some declared) (hcount : trace.count task = used + 1)
    (hless : used < batch.demand lines task) :
    result.hadException ∧ used + 1 < declared.maxExecutions ↔ used + 1 < batch.demand lines task := by
  obtain ⟨other, hevent, hfails⟩ := h
  cases hevent
  rw [demand_of_declared hdeclared] at hless ⊢
  rw [hfails declared hdeclared, hcount, Nat.add_sub_cancel]
  exact ScriptLine.fails_and_lt_iff hless

end Awaits

end Batch

namespace Simulation

-- The executor has been handed these executions and has sent reports of all of them. Those
-- that are outstanding wait to be read, in their order.
structure Tells (simulation : Simulation) (batch : Batch) (lines : SortedMap String ScriptLine)
    (executions : List Execution) (summaries : List Summary) : Prop where
  ended : simulation.ended = summaries
  capacity : simulation.channel.capacity = batch.limits.eventQueueLength
  noted : simulation.executor.executed =
    (executions.map Execution.task).map fun id => s!"{batch.jobName id.job}/{batch.taskName id}"
  recalls : simulation.executor.Recalls lines
    (((executions.map Execution.task).map batch.taskName).count ·)
  waiting : List.Forall₂ (batch.Awaits lines (executions.map Execution.task))
    (Execution.outstanding executions) simulation.channel.waiting

section Dispatch

variable {simulation : Simulation} {batch : Batch} {lines : SortedMap String ScriptLine}
  {executions : List Execution} {summaries : List Summary} {work : List Assignment}

-- What is handed out is executed and reported, and there is room for all reports.
theorem Tells.dispatch (h : simulation.Tells batch lines executions summaries)
    (hplayable : batch.Playable lines)
    (hdeclared : ∀ id ∈ executions.map Execution.task, (batch.declared? id).isSome)
    (hbears : ∀ assignment ∈ work, batch.Bears assignment)
    (hnodup : (work.map Assignment.task).Nodup)
    (hfresh : ∀ assignment ∈ work, assignment.task ∉ Execution.outstanding executions)
    (hroom : (Execution.outstanding (executions ++ work.map .ofAssignment)).length ≤
      batch.limits.eventQueueLength) :
    ∃ simulation', simulation.obey (.dispatch work) = some simulation' ∧
      simulation'.scheduler = simulation.scheduler ∧
      simulation'.Tells batch lines (executions ++ work.map .ofAssignment) summaries := by
  have htasks : (executions ++ work.map Execution.ofAssignment).map Execution.task =
      executions.map Execution.task ++ work.map Assignment.task := by
    rw [List.map_append, List.map_map]
    rfl
  obtain ⟨reports, executor, hall, hreports, hrecalls, hexecuted⟩ := ScriptedExecutor.executeAll_eq
    h.recalls (hplayable.nodup_names hbears hnodup) (hplayable.all_report hbears)
  rw [Execution.outstanding_append, Execution.outstanding_ofAssignment] at hroom
  have hsend : simulation.channel.waiting.length + reports.length ≤ simulation.channel.capacity := by
    rw [← h.waiting.length_eq, ← hreports.length_eq, h.capacity, ← List.length_map (f := Assignment.task),
      ← List.length_append]
    exact hroom
  have hwaiting : List.Forall₂ (batch.Awaits lines (executions.map Execution.task ++ work.map Assignment.task))
      (Execution.outstanding executions ++ work.map Assignment.task)
      (simulation.channel.waiting ++ reports.map fun report => .completed report.1 report.2) := by
    refine List.rel_append ?_ ?_
    · have hold (task : TaskId) (htask : task ∈ Execution.outstanding executions) :
          task ∉ work.map Assignment.task := fun hmem => by
        obtain ⟨assignment, hassignment, rfl⟩ := List.mem_map.mp hmem
        exact hfresh assignment hassignment htask
      exact ((List.forall₂_and_left _ _).mpr ⟨hold, h.waiting⟩).imp fun task event hboth =>
        hboth.2.later hboth.1
    · rw [List.forall₂_map_left_iff, List.forall₂_map_right_iff]
      refine ((List.forall₂_and_left _ _).mpr ⟨fun _ hmem => hmem, hreports⟩).imp ?_
      rintro assignment report ⟨hmem, htask, hfails⟩
      rw [htask]
      exact Batch.awaits_of_reported hplayable hdeclared (hbears assignment hmem) hnodup
        (List.mem_map_of_mem hmem) hfails
  refine ⟨{ simulation with
    executor
    channel := { simulation.channel with
      waiting := simulation.channel.waiting ++
        reports.map fun report => Event.completed report.1 report.2 } }, ?_, rfl,
    h.ended, h.capacity, ?_, ?_, ?_⟩
  · simp only [obey, hall]
    exact sendReports_eq hsend
  · rw [htasks, List.map_append, ← Batch.map_note_of_bears hbears, ← h.noted]
    exact hexecuted
  · rw [htasks, List.map_append, ← Batch.map_name_of_bears hbears]
    simpa only [List.count_append] using hrecalls
  · rw [Execution.outstanding_append, Execution.outstanding_ofAssignment, htasks]
    exact hwaiting

end Dispatch

variable {simulation : Simulation} {batch : Batch} {lines : SortedMap String ScriptLine}
  {executions : List Execution} {summaries : List Summary}

-- The report that is read next is that of the first execution that is outstanding.
theorem Tells.read (h : simulation.Tells batch lines executions summaries)
    (hsome : ∃ execution ∈ executions, execution.isOutstanding) :
    ∃ before execution after event waiting, executions = before ++ execution :: after ∧
      execution.isOutstanding ∧ simulation.channel.waiting = event :: waiting ∧
      batch.Awaits lines (executions.map Execution.task) execution.task event ∧
      Tells { simulation with channel := { simulation.channel with waiting } } batch lines
        (before ++ execution.report :: after) summaries := by
  have hwaiting := h.waiting
  have hne : executions.filter Execution.isOutstanding ≠ [] := by
    obtain ⟨execution, hmem, hout⟩ := hsome
    exact List.ne_nil_of_mem (List.mem_filter.mpr ⟨hmem, hout⟩)
  obtain ⟨execution, rest, hfilter⟩ := List.exists_cons_of_ne_nil hne
  obtain ⟨before, after, rfl, hbefore, hout, hafter⟩ := List.filter_eq_cons_iff.mp hfilter
  have hnone : Execution.outstanding before = [] := by
    rw [Execution.outstanding, List.filter_eq_nil_iff.mpr hbefore, List.map_nil]
  have hreported : execution.report.isOutstanding = false := by simp [Execution.report, Execution.isOutstanding]
  rw [Execution.outstanding_append, hnone, List.nil_append, Execution.outstanding_cons, if_pos hout,
    List.forall₂_cons_left_iff] at hwaiting
  obtain ⟨event, waiting, hevent, hrest, hchannel⟩ := hwaiting
  refine ⟨before, execution, after, event, waiting, rfl, hout, hchannel, hevent, ?_⟩
  have htasks : (before ++ execution.report :: after).map Execution.task =
      (before ++ execution :: after).map Execution.task := by
    rw [List.map_append, List.map_append]
    rfl
  refine ⟨h.ended, h.capacity, ?_, ?_, ?_⟩
  · rw [htasks]
    exact h.noted
  · rw [htasks]
    exact h.recalls
  · rw [htasks, Execution.outstanding_append, hnone, List.nil_append, Execution.outstanding_cons, hreported]
    exact hrest

theorem foldl_obeyed_ended (records : List Summary) (executions : List Execution) :
    (records.map Command.ended).foldl Command.obeyed executions = executions := by
  induction records with
  | nil => rfl
  | cons first rest ih => exact ih

section Follow

variable {scheduler : Scheduler} {count : Nat} {newly : List Summary}
  (hplayable : batch.Playable lines)
  (hu : batch.Underway count (summaries ++ newly) scheduler)
  (htraced : batch.Traced (batch.demand lines) (executions.map Execution.task) scheduler)
  (htracks : scheduler.Tracks scheduler.Runs executions)
include hplayable hu htraced htracks

-- Whatever a step asks for is done: no report finds the queue full, since every execution
-- that is outstanding takes a slot.
theorem Tells.follow (h : simulation.Tells batch lines executions summaries) :
    let step := scheduler.finishStep (.acceptAll true) (newly.map .ended)
    let executions' := step.1.commands.foldl Command.obeyed executions
    ∃ simulation', simulation.follow step = some (step.1.keepRunning, simulation') ∧
      simulation'.scheduler = step.2 ∧
      simulation'.Tells batch lines executions' (summaries ++ newly) ∧
      batch.Traced (batch.demand lines) (executions'.map Execution.task) step.2 := by
  intro step executions'
  have hs := hu.orderly.sound
  obtain ⟨work, final, hserves, hfinal, hcommands⟩ :=
    Scheduler.finishStep_eq hs (.acceptAll true) (newly.map Command.ended)
  rw [Scheduler.cleared_eq_self hu.pending] at hserves
  rw [hu.pending, List.nil_append, List.append_assoc] at hcommands
  have hstarts := hserves.starts _ hs
  have hs' := (hserves.orderly hu.orderly).sound
  obtain ⟨-, hafter⟩ := htracks.starts hstarts hs hs'
  have hexecutions : executions' = executions ++ work.map Execution.ofAssignment := by
    simp only [executions', step, hcommands]
    rw [List.foldl_append, foldl_obeyed_ended, List.foldl_append, Command.foldl_obeyed_dispatched]
    split <;> rfl
  have htasks : executions'.map Execution.task = executions.map Execution.task ++ work.map Assignment.task := by
    rw [hexecutions, List.map_append, List.map_map]
    rfl
  have hroom : (Execution.outstanding executions').length ≤ batch.limits.eventQueueLength := by
    rw [hexecutions]
    refine Nat.le_trans (hs'.length_le_of_runs hafter.alone fun task htask => (hafter.outstanding task).mp htask) ?_
    rw [hserves.slots_total, hu.total]
    exact hplayable.room
  have htold : Tells { simulation with
      scheduler := step.2
      ended := simulation.ended ++ newly } batch lines executions (summaries ++ newly) :=
    ⟨congrArg (· ++ newly) h.ended, h.capacity, h.noted, h.recalls, h.waiting⟩
  obtain ⟨simulation', hobeyed, hscheduler, htells⟩ := htold.dispatch hplayable htraced.declared
    (hu.bears hserves) hstarts.nodup (fun _ hmem => hstarts.not_outstanding htracks hs hmem) (hexecutions ▸ hroom)
  refine ⟨simulation', ?_, hscheduler, hexecutions ▸ htells, ?_⟩
  · have hall : obeyAll { simulation with scheduler := step.2 } step.1.commands = some simulation' := by
      simp only [step, hcommands]
      rw [obeyAll_ended, obeyAll_dispatched, hobeyed, Option.bind_some]
      split <;> rfl
    rw [Simulation.follow, hall]
    rfl
  · rw [htasks, hfinal]
    exact htraced.serves hu hserves

end Follow

end Simulation

end JobScheduler
