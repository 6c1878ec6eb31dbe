import Mathlib.Data.List.Perm.Subperm
import JobScheduler.Executor.Foreman
import JobScheduler.Proofs.Exchange.Executions

namespace JobScheduler

def Assignment.label (work : Assignment) : TaskId × Nat := (work.task, work.attempt)

namespace Errand

def names (task : TaskId) : Errand → Bool
  | .run work => work.task = task
  | .stop tasks => task ∈ tasks

def work? : Errand → Option Assignment
  | .run work => some work
  | .stop _ => none

-- What requests ask to run.
def works (errands : List Errand) : List Assignment := errands.filterMap work?

theorem works_append (first rest : List Errand) : works (first ++ rest) = works first ++ works rest :=
  List.filterMap_append

@[simp] theorem works_map_run (assignments : List Assignment) : works (assignments.map .run) = assignments := by
  induction assignments with
  | nil => rfl
  | cons first rest ih => exact congrArg (first :: ·) ih

@[simp] theorem works_errands (command : Command) : works command.errands = command.assignments := by
  cases command with
  | dispatch assignments => exact works_map_run assignments
  | cancel tasks =>
      rw [Command.errands]
      split <;> rfl
  | ended | exit => rfl

end Errand

namespace Command

-- A command asks to stop what it cancels, and asks nothing else of the foreman about tasks
-- that it does not start.
theorem find?_errands_of_cancelled {command : Command} {task : TaskId} (h : task ∈ command.cancelled) :
    ∃ tasks, command.errands.find? (Errand.names task) = some (.stop tasks) := by
  cases command with
  | cancel tasks =>
      have hmem : task ∈ tasks := h
      have hsome : ¬tasks.isEmpty := by simpa using List.ne_nil_of_mem hmem
      refine ⟨tasks, ?_⟩
      rw [errands, if_neg hsome]
      exact List.find?_cons_of_pos (decide_eq_true hmem)
  | dispatch | ended | exit => cases h

theorem find?_errands_of_other {command : Command} {task : TaskId} (hcancelled : task ∉ command.cancelled)
    (hstarted : task ∉ command.assignments.map Assignment.task) :
    command.errands.find? (Errand.names task) = none := by
  rw [List.find?_eq_none]
  cases command with
  | dispatch assignments =>
      intro errand herrand hnames
      obtain ⟨work, hwork, rfl⟩ := List.mem_map.mp herrand
      exact hstarted (List.mem_map.mpr ⟨work, hwork, of_decide_eq_true hnames⟩)
  | cancel tasks =>
      intro errand herrand hnames
      rw [errands] at herrand
      split at herrand
      · cases herrand
      · rw [List.mem_singleton.mp herrand] at hnames
        exact hcancelled (of_decide_eq_true hnames)
  | ended | exit => exact fun errand herrand => (List.not_mem_nil herrand).elim

-- An execution after a command: only a command that names its task ends it.
theorem exists_obeyed {executions : List Execution} {execution : Execution} (h : execution ∈ executions)
    (command : Command) : ∃ after ∈ command.obeyed executions, after.label = execution.label ∧
      after.reported = execution.reported ∧
      (execution.isOutstanding → execution.task ∉ command.cancelled → after.isOutstanding) := by
  cases command with
  | dispatch assignments => exact ⟨execution, List.mem_append_left _ h, rfl, rfl, fun hout _ => hout⟩
  | cancel tasks =>
      refine ⟨execution.cancel tasks, List.mem_map_of_mem h, execution.cancel_label tasks, ?_,
        fun hout hnot => (execution.isOutstanding_cancel tasks).mpr ⟨hout, hnot⟩⟩
      unfold Execution.cancel
      split <;> rfl
  | ended | exit => exact ⟨execution, h, rfl, rfl, fun hout _ => hout⟩

theorem Fits.not_started {executions : List Execution} {command : Command} (h : command.Fits executions)
    {execution : Execution} (hmem : execution ∈ executions) (hout : execution.isOutstanding) :
    execution.task ∉ command.assignments.map Assignment.task := by
  cases command with
  | dispatch assignments =>
      intro hstarted
      obtain ⟨work, hwork, htask⟩ := List.mem_map.mp hstarted
      refine (h.2 work hwork).1 ?_
      rw [htask]
      exact Execution.mem_outstanding_iff.mpr ⟨execution, hmem, hout, rfl⟩
  | cancel | ended | exit => exact List.not_mem_nil

theorem Fits.nodup_labels {executions : List Execution} {command : Command} (h : command.Fits executions) :
    (command.assignments.map Assignment.label).Nodup := by
  cases command with
  | dispatch assignments =>
      refine List.Nodup.of_map Prod.fst ?_
      rw [List.map_map]
      exact h.1
  | cancel | ended | exit => exact List.nodup_nil

theorem Fits.fresh_label {executions : List Execution} {command : Command} (h : command.Fits executions)
    {label : TaskId × Nat} (hlabel : label ∈ command.assignments.map Assignment.label) :
    label ∉ executions.map Execution.label := by
  cases command with
  | dispatch assignments =>
      obtain ⟨work, hwork, rfl⟩ := List.mem_map.mp hlabel
      exact (h.2 work hwork).2
  | cancel | ended | exit => cases hlabel

end Command

-- The work has been handed out, and while it is not reported nothing is on its way that would
-- start its task once more: if nothing names the task its execution is outstanding, and
-- otherwise the task is to be stopped first.
def Assignment.Settled (executions : List Execution) (errands : List Errand) (work : Assignment) : Prop :=
  ∃ execution ∈ executions, execution.label = work.label ∧
    (execution.reported ∨
      (errands.find? (Errand.names work.task) = none ∧ execution.isOutstanding) ∨
      ∃ tasks, errands.find? (Errand.names work.task) = some (.stop tasks))

-- Whatever is to be run will be settled once it is received.
def AllSettled (executions : List Execution) : List Errand → Prop
  | [] => True
  | .run work :: rest => work.Settled executions rest ∧ AllSettled executions rest
  | .stop _ :: rest => AllSettled executions rest

-- Runs of different tasks that have just been handed out.
theorem allSettled_runs {executions : List Execution} {assignments : List Assignment}
    (hnodup : (assignments.map Assignment.task).Nodup)
    (hnew : ∀ work ∈ assignments, .ofAssignment work ∈ executions) :
    AllSettled executions (assignments.map .run) := by
  induction assignments with
  | nil => exact trivial
  | cons first rest ih =>
      obtain ⟨hfresh, hnodup⟩ := List.nodup_cons.mp hnodup
      obtain ⟨hfirst, hrest⟩ := List.forall_mem_cons.mp hnew
      have hlater : (Command.dispatch rest).errands.find? (Errand.names first.task) = none :=
        Command.find?_errands_of_other List.not_mem_nil hfresh
      exact ⟨⟨_, hfirst, rfl, .inr (.inl ⟨hlater, rfl⟩)⟩, ih hnodup hrest⟩

-- Different executions of which no report has been heard.
structure Awaits (executions : List Execution) (works : List Assignment) : Prop where
  nodup : (works.map Assignment.label).Nodup
  unreported : ∀ work ∈ works, ∃ execution ∈ executions,
    execution.label = work.label ∧ execution.reported = false

theorem AllSettled.imp {executions executions' : List Execution} {errands : List Errand}
    (himp : ∀ (rest : List Errand) (work : Assignment), work.Settled executions rest →
      work.Settled executions' rest)
    (h : AllSettled executions errands) : AllSettled executions' errands := by
  induction errands with
  | nil => exact trivial
  | cons first rest ih =>
      cases first with
      | run work => exact ⟨himp rest work h.1, ih h.2⟩
      | stop => exact ih h

theorem Awaits.subperm {executions : List Execution} {works works' : List Assignment}
    (h : Awaits executions works) (hsub : works'.Subperm works) : Awaits executions works' where
  nodup := by
    obtain ⟨some, hperm, hsublist⟩ := hsub
    exact (hperm.map Assignment.label).nodup_iff.mp (h.nodup.sublist (hsublist.map Assignment.label))
  unreported work hwork := h.unreported work (hsub.subset hwork)

section Receive

variable {executions : List Execution} {rest : List Errand} {work : Assignment}

-- A run of a task of which other work is settled: that work has been reported.
theorem Assignment.Settled.reported_of_run {next : Assignment}
    (h : work.Settled executions (.run next :: rest)) (htask : next.task = work.task) :
    ∃ execution ∈ executions, execution.label = work.label ∧ execution.reported := by
  obtain ⟨execution, hmem, hlabel, hcase⟩ := h
  have hfind : (Errand.run next :: rest).find? (Errand.names work.task) = some (.run next) :=
    List.find?_cons_of_pos (decide_eq_true htask)
  rw [hfind] at hcase
  rcases hcase with hreported | ⟨hnone, -⟩ | ⟨tasks, hstop⟩
  · exact ⟨execution, hmem, hlabel, hreported⟩
  · cases hnone
  · cases hstop

theorem Assignment.Settled.tail {errand : Errand} (h : work.Settled executions (errand :: rest))
    (hother : errand.names work.task = false) : work.Settled executions rest := by
  rwa [Settled, List.find?_cons_of_neg (by simp [hother])] at h

theorem Assignment.Settled.received {next : Assignment} (h : work.Settled executions (.run next :: rest)) :
    work.Settled executions rest := by
  by_cases htask : next.task = work.task
  · obtain ⟨execution, hmem, hlabel, hreported⟩ := h.reported_of_run htask
    exact ⟨execution, hmem, hlabel, .inl hreported⟩
  · exact h.tail (decide_eq_false htask)

end Receive

section Report

variable {before after : List Execution} {execution : Execution}

theorem Execution.mem_of_report {other : Execution} (h : other ∈ before ++ execution :: after)
    (hne : other ≠ execution) : other ∈ before ++ execution.report :: after := by
  rw [List.mem_append, List.mem_cons] at h ⊢
  exact h.imp_right fun h => .inr (h.resolve_left hne)

theorem Assignment.Settled.report {errands : List Errand} {work : Assignment}
    (h : work.Settled (before ++ execution :: after) errands) :
    work.Settled (before ++ execution.report :: after) errands := by
  obtain ⟨other, hmem, hlabel, hcase⟩ := h
  by_cases hsame : other = execution
  · exact ⟨execution.report, by simp, hsame ▸ hlabel, .inl rfl⟩
  · exact ⟨other, Execution.mem_of_report hmem hsame, hlabel, hcase⟩

-- The report on one of the executions is heard.
theorem Awaits.report {work : Assignment} {works : List Assignment}
    (h : Awaits (before ++ execution :: after) (work :: works)) (hlabel : execution.label = work.label) :
    Awaits (before ++ execution.report :: after) works where
  nodup := (List.nodup_cons.mp h.nodup).2
  unreported other hother := by
    obtain ⟨found, hmem, hfound, hreported⟩ := h.unreported other (List.mem_cons_of_mem _ hother)
    refine ⟨found, Execution.mem_of_report hmem fun heq => ?_, hfound, hreported⟩
    refine (List.nodup_cons.mp h.nodup).1 (List.mem_map.mpr ⟨other, hother, ?_⟩)
    rw [← hfound, heq, hlabel]

end Report

section Obey

variable {executions : List Execution} {errands : List Errand} {works : List Assignment}
  {command : Command} (hfits : command.Fits executions)
include hfits

theorem Assignment.Settled.obey {work : Assignment} (h : work.Settled executions errands) :
    work.Settled (command.obeyed executions) (errands ++ command.errands) := by
  obtain ⟨execution, hmem, hlabel, hcase⟩ := h
  obtain ⟨after, hafter, hsame, hreported, hout⟩ := Command.exists_obeyed hmem command
  have htask : execution.task = work.task := congrArg Prod.fst hlabel
  refine ⟨after, hafter, hsame.trans hlabel, ?_⟩
  rw [List.find?_append]
  rcases hcase with hcase | ⟨hnone, houtstanding⟩ | ⟨tasks, hstop⟩
  · exact .inl (hreported.trans hcase)
  · rw [hnone, Option.none_or, ← htask]
    by_cases hcancelled : execution.task ∈ command.cancelled
    · exact .inr (.inr (Command.find?_errands_of_cancelled hcancelled))
    · exact .inr (.inl ⟨Command.find?_errands_of_other hcancelled (hfits.not_started hmem houtstanding),
        hout houtstanding hcancelled⟩)
  · exact .inr (.inr ⟨tasks, by rw [hstop, Option.some_or]⟩)

theorem AllSettled.obey (h : AllSettled executions errands) :
    AllSettled (command.obeyed executions) (errands ++ command.errands) := by
  induction errands with
  | nil =>
      cases command with
      | dispatch assignments =>
          exact allSettled_runs hfits.1 fun work hwork =>
            List.mem_append_right _ (List.mem_map_of_mem hwork)
      | cancel tasks =>
          rw [List.nil_append, Command.errands]
          split <;> exact trivial
      | ended | exit => exact trivial
  | cons first rest ih =>
      cases first with
      | run work => exact ⟨h.1.obey hfits, ih h.2⟩
      | stop tasks => exact ih h

theorem Awaits.obey (h : Awaits executions works) :
    Awaits (command.obeyed executions) (works ++ command.assignments) where
  nodup := by
    rw [List.map_append]
    refine List.nodup_append.mpr ⟨h.nodup, hfits.nodup_labels, fun label hold other hnew heq => ?_⟩
    obtain ⟨work, hwork, rfl⟩ := List.mem_map.mp hold
    obtain ⟨execution, hmem, hlabel, -⟩ := h.unreported work hwork
    exact hfits.fresh_label (heq ▸ hnew) (List.mem_map.mpr ⟨execution, hmem, hlabel⟩)
  unreported := by
    rw [List.forall_mem_append]
    constructor
    · intro work hwork
      obtain ⟨execution, hmem, hlabel, hreported⟩ := h.unreported work hwork
      obtain ⟨after, hafter, hsame, hkept, -⟩ := Command.exists_obeyed hmem command
      exact ⟨after, hafter, hsame.trans hlabel, hkept.trans hreported⟩
    · intro work hwork
      cases command with
      | dispatch assignments =>
          exact ⟨.ofAssignment work, List.mem_append_right _ (List.mem_map_of_mem hwork), rfl, rfl⟩
      | cancel | ended | exit => cases hwork

end Obey

-- The commands of a step, one after the other.
theorem obey_all {executions : List Execution} {errands : List Errand} {works : List Assignment}
    {commands : List Command} (hall : Command.AllFit executions commands) (hawaits : Awaits executions works)
    (hsettled : AllSettled executions errands) :
    let executions' := commands.foldl Command.obeyed executions
    let errands' := errands ++ commands.flatMap Command.errands
    Awaits executions' (works ++ Errand.works (commands.flatMap Command.errands)) ∧
      AllSettled executions' errands' ∧
      ∀ work : Assignment, work.Settled executions errands → work.Settled executions' errands' := by
  induction commands generalizing executions errands works with
  | nil => simpa [Errand.works] using ⟨hawaits, hsettled⟩
  | cons first rest ih =>
      obtain ⟨hfits, hrest⟩ := hall
      obtain ⟨hawaited, hflight, hkept⟩ := ih hrest (hawaits.obey hfits) (hsettled.obey hfits)
      rw [List.flatMap_cons, Errand.works_append, Errand.works_errands, ← List.append_assoc,
        ← List.append_assoc]
      exact ⟨hawaited, hflight, fun work hwork => hkept work (hwork.obey hfits)⟩

end JobScheduler
