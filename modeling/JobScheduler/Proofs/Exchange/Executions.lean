import Mathlib.Data.List.Nodup
import JobScheduler.Proofs.Scheduler.Starts

namespace JobScheduler

-- A task that an executor has been handed. An execution may be cancelled before it
-- reports and report nevertheless.
structure Execution where
  task : TaskId
  attempt : Nat
  reported : Bool
  cancelled : Bool
deriving DecidableEq, Repr

namespace Execution

def ofAssignment (assignment : Assignment) : Execution :=
  ⟨assignment.task, assignment.attempt, false, false⟩

def isOutstanding (execution : Execution) : Bool := !execution.reported && !execution.cancelled

def report (execution : Execution) : Execution := { execution with reported := true }

def cancel (tasks : List TaskId) (execution : Execution) : Execution :=
  if execution.isOutstanding ∧ execution.task ∈ tasks then { execution with cancelled := true }
  else execution

def label (execution : Execution) : TaskId × Nat := (execution.task, execution.attempt)

-- The tasks whose execution is outstanding, as often as they have one.
def outstanding (executions : List Execution) : List TaskId :=
  (executions.filter isOutstanding).map task

theorem mem_outstanding_iff {executions : List Execution} {id : TaskId} :
    id ∈ outstanding executions ↔
      ∃ execution ∈ executions, execution.isOutstanding ∧ execution.task = id := by
  simp only [outstanding, List.mem_map, List.mem_filter, and_assoc]

theorem outstanding_append (first rest : List Execution) :
    outstanding (first ++ rest) = outstanding first ++ outstanding rest := by
  simp only [outstanding, List.filter_append, List.map_append]

theorem outstanding_cons (first : Execution) (rest : List Execution) :
    outstanding (first :: rest) =
      if first.isOutstanding then first.task :: outstanding rest else outstanding rest := by
  rw [outstanding, List.filter_cons]
  split <;> rfl

theorem outstanding_ofAssignment (assignments : List Assignment) :
    outstanding (assignments.map ofAssignment) = assignments.map Assignment.task := by
  induction assignments with
  | nil => rfl
  | cons first rest ih =>
      rw [List.map_cons, outstanding_cons, ih]
      rfl

@[simp] theorem cancel_label (tasks : List TaskId) (execution : Execution) :
    (execution.cancel tasks).label = execution.label := by
  unfold cancel
  split <;> rfl

@[simp] theorem cancel_task (tasks : List TaskId) (execution : Execution) :
    (execution.cancel tasks).task = execution.task := congrArg Prod.fst (cancel_label tasks execution)

@[simp] theorem cancel_attempt (tasks : List TaskId) (execution : Execution) :
    (execution.cancel tasks).attempt = execution.attempt :=
  congrArg Prod.snd (cancel_label tasks execution)

theorem isOutstanding_cancel (tasks : List TaskId) (execution : Execution) :
    (execution.cancel tasks).isOutstanding ↔ execution.isOutstanding ∧ execution.task ∉ tasks := by
  unfold cancel
  split
  · rename_i h
    simp [isOutstanding, h.2]
  · rename_i h
    exact ⟨fun hout => ⟨hout, fun hmem => h ⟨hout, hmem⟩⟩, And.left⟩

theorem outstanding_cancel (tasks : List TaskId) (executions : List Execution) :
    outstanding (executions.map (cancel tasks)) = (outstanding executions).filter (· ∉ tasks) := by
  induction executions with
  | nil => rfl
  | cons first rest ih =>
      have hfirst := isOutstanding_cancel tasks first
      rw [List.map_cons, outstanding_cons, outstanding_cons, ih, cancel_task]
      by_cases hout : first.isOutstanding <;> by_cases hmem : first.task ∈ tasks <;>
        simp_all

end Execution

namespace Command

-- What an executor has on its hands after a command.
def obeyed (executions : List Execution) : Command → List Execution
  | .dispatch assignments => executions ++ assignments.map .ofAssignment
  | .cancel tasks => executions.map (.cancel tasks)
  | .ended _ | .exit => executions

-- A command that fits the executions when it arrives: it hands out no task that has an
-- execution outstanding, nor twice under the same number, and cancels none that has not.
def Fits (executions : List Execution) : Command → Prop
  | .dispatch assignments => (assignments.map Assignment.task).Nodup ∧
      ∀ assignment ∈ assignments, assignment.task ∉ Execution.outstanding executions ∧
        (assignment.task, assignment.attempt) ∉ executions.map Execution.label
  | .cancel tasks => ∀ task ∈ tasks, task ∈ Execution.outstanding executions
  | .ended _ | .exit => True

def AllFit (executions : List Execution) : List Command → Prop
  | [] => True
  | command :: rest => command.Fits executions ∧ AllFit (command.obeyed executions) rest

theorem allFit_append {executions : List Execution} {first rest : List Command} :
    AllFit executions (first ++ rest) ↔
      AllFit executions first ∧ AllFit (first.foldl obeyed executions) rest := by
  induction first generalizing executions with
  | nil => simp [AllFit]
  | cons command later ih => simp only [List.cons_append, AllFit, ih, and_assoc, List.foldl_cons]

-- A pass hands out what it has started, unless that is nothing.
theorem foldl_obeyed_dispatched (executions : List Execution) (assignments : List Assignment) :
    (Scheduler.dispatched (.ok assignments)).foldl obeyed executions =
      executions ++ assignments.map .ofAssignment := by
  cases assignments with
  | nil => exact (List.append_nil _).symm
  | cons first rest => rfl

theorem allFit_dispatched {executions : List Execution} {assignments : List Assignment}
    (h : (dispatch assignments).Fits executions) :
    AllFit executions (Scheduler.dispatched (.ok assignments)) := by
  cases assignments with
  | nil => trivial
  | cons first rest => exact ⟨h, trivial⟩

end Command

-- What the books of a scheduler say about an execution of a task that is still on them.
structure Execution.Matches (execution : Execution) (card : Card) : Prop where
  attempt : execution.attempt ≤ card.attempts
  outstanding : execution.isOutstanding → execution.attempt = card.attempts
  cancelled : execution.cancelled → card.place = .done

-- The outstanding executions are those of certain tasks, and what the scheduler has on its
-- books about an execution matches it.
structure Scheduler.Tracks (scheduler : Scheduler) (running : TaskId → Prop)
    (executions : List Execution) : Prop where
  outstanding : ∀ task, task ∈ Execution.outstanding executions ↔ running task
  alone : (Execution.outstanding executions).Nodup
  labels : (executions.map Execution.label).Nodup
  card : ∀ execution ∈ executions, scheduler.registry.find? execution.task.job = none ∨
    ∃ card, scheduler.card? execution.task = some card ∧ execution.Matches card

-- All executions are of jobs whose ids are used up.
def Scheduler.Knows (scheduler : Scheduler) (executions : List Execution) : Prop :=
  ∀ execution ∈ executions, execution.task.job.number < scheduler.registry.nextId

namespace Scheduler

variable {scheduler scheduler' : Scheduler} {running : TaskId → Prop} {executions : List Execution}

theorem Knows.mono (h : scheduler.Knows executions)
    (hnext : scheduler.registry.nextId ≤ scheduler'.registry.nextId) : scheduler'.Knows executions :=
  fun execution hmem => UInt64.lt_of_lt_of_le (h execution hmem) hnext

theorem Knows.report {before after : List Execution} {execution : Execution}
    (h : scheduler.Knows (before ++ execution :: after)) :
    scheduler.Knows (before ++ execution.report :: after) := by
  rw [Knows, List.forall_mem_append, List.forall_mem_cons] at h ⊢
  exact h

-- Commands that start nothing are about no new execution.
theorem Knows.obeyed {commands : List Command} (hquiet : ∀ command ∈ commands, command.assignments = [])
    (h : scheduler.Knows executions) : scheduler.Knows (commands.foldl Command.obeyed executions) := by
  induction commands generalizing executions with
  | nil => exact h
  | cons command rest ih =>
      obtain ⟨hfirst, hrest⟩ := List.forall_mem_cons.mp hquiet
      refine ih hrest ?_
      cases command with
      | dispatch assignments =>
          obtain rfl : assignments = [] := hfirst
          rwa [Command.obeyed, List.map_nil, List.append_nil]
      | cancel tasks =>
          simp only [Command.obeyed, Knows, List.forall_mem_map, Execution.cancel_task]
          exact h
      | ended | exit => exact h

theorem Tracks.congr {running' : TaskId → Prop} (h : scheduler.Tracks running executions)
    (hsame : ∀ task, running task ↔ running' task) : scheduler.Tracks running' executions :=
  ⟨fun task => (h.outstanding task).trans (hsame task), h.alone, h.labels, h.card⟩

theorem tracks_nil (h : ∀ task, ¬running task) : scheduler.Tracks running [] where
  outstanding task := iff_of_false List.not_mem_nil (h task)
  alone := List.nodup_nil
  labels := List.nodup_nil
  card := fun _ h => by cases h

-- The report of a cancelled execution is about a task that is done with.
theorem Tracks.not_runs_of_cancelled (h : scheduler.Tracks running executions) (hs : scheduler.Sound)
    {execution : Execution} (hmem : execution ∈ executions) (hcancelled : execution.cancelled) :
    ¬scheduler.Runs execution.task := by
  intro hruns
  rcases h.card execution hmem with hnone | ⟨card, hcard, hmatches⟩
  · exact not_runs_of_none hnone hruns
  · obtain ⟨card', hcard', hrunning⟩ := (runs_iff hs).mp hruns
    rw [hcard, Option.some.injEq] at hcard'
    rw [← hcard', hmatches.cancelled hcancelled] at hrunning
    cases hrunning

-- An execution has reported, and the scheduler has not heard of it yet.
theorem Tracks.report {before after : List Execution} {execution : Execution} (hs : scheduler.Sound)
    (h : scheduler.Tracks scheduler.Runs (before ++ execution :: after))
    (hreported : execution.reported = false) :
    scheduler.Tracks (fun task => scheduler.Runs task ∧ task ∉ [execution.task])
      (before ++ execution.report :: after) := by
  have hmem : execution ∈ before ++ execution :: after := by simp
  have hout := h.outstanding
  have halone := h.alone
  have hleft : Execution.outstanding (before ++ execution.report :: after) =
      Execution.outstanding before ++ Execution.outstanding after := by
    rw [Execution.outstanding_append, Execution.outstanding_cons, if_neg]
    simp [Execution.report, Execution.isOutstanding]
  rw [Execution.outstanding_append, Execution.outstanding_cons] at hout halone
  have hcard := h.card
  rw [List.forall_mem_append, List.forall_mem_cons] at hcard
  refine ⟨fun task => ?_, ?_, ?_, ?_⟩
  · rw [hleft, ← hout]
    by_cases hmine : execution.isOutstanding
    · rw [if_pos hmine] at halone ⊢
      have hfresh : execution.task ∉ Execution.outstanding before ++ Execution.outstanding after :=
        (List.nodup_cons.mp (List.nodup_middle.mp halone)).1
      simp only [List.mem_append, List.mem_cons] at hfresh ⊢
      by_cases htask : task = execution.task
      · simp [htask, hfresh]
      · simp [htask]
    · have hcancelled : execution.cancelled := by simpa [Execution.isOutstanding, hreported] using hmine
      rw [if_neg hmine] at hout ⊢
      have hne : task ∈ Execution.outstanding before ++ Execution.outstanding after →
          task ∉ [execution.task] := by
        rintro hin heq
        rw [List.mem_singleton.mp heq, hout] at hin
        exact h.not_runs_of_cancelled hs hmem hcancelled hin
      exact ⟨fun hin => ⟨hin, hne hin⟩, And.left⟩
  · rw [hleft]
    split at halone
    · exact (List.nodup_middle.mp halone).of_cons
    · exact halone
  · have hlabels := h.labels
    rwa [List.map_append, List.map_cons] at hlabels ⊢
  · rw [List.forall_mem_append, List.forall_mem_cons]
    refine ⟨hcard.1, hcard.2.1.imp_right fun ⟨card, hfound, hmatches⟩ => ⟨card, hfound, ?_⟩, hcard.2.2⟩
    exact ⟨hmatches.attempt, fun hout => by simp [Execution.report, Execution.isOutstanding] at hout,
      hmatches.cancelled⟩

-- The scheduler has handled an event, and the executor has not heard of it yet.
theorem Tracks.halts (h : scheduler.Tracks running executions) (hknows : scheduler.Knows executions)
    {reported stopped : List TaskId} (hhalts : scheduler.Halts scheduler' reported stopped) :
    scheduler'.Tracks running executions where
  outstanding := h.outstanding
  alone := h.alone
  labels := h.labels
  card execution hmem := by
    have hknown := hknows execution hmem
    rcases h.card execution hmem with hnone | ⟨card, hcard, hmatches⟩
    · exact .inl (hhalts.gone _ hknown hnone)
    · refine (hhalts.card _ card hknown hcard).imp_right fun ⟨card', hcard', hattempts, hdone⟩ =>
        ⟨card', hcard', ?_⟩
      exact ⟨by rw [hattempts]; exact hmatches.attempt,
        fun hout => (hmatches.outstanding hout).trans hattempts.symm,
        fun hcancelled => hdone (hmatches.cancelled hcancelled)⟩

theorem Tracks.cancel (h : scheduler.Tracks running executions) {tasks : List TaskId}
    (hrunning : ∀ task ∈ tasks, running task)
    (hdone : ∀ task ∈ tasks, ∀ card, scheduler.card? task = some card → card.place = .done) :
    (Command.cancel tasks).Fits executions ∧
      scheduler.Tracks (fun task => running task ∧ task ∉ tasks) (executions.map (.cancel tasks)) := by
  refine ⟨fun task htask => (h.outstanding task).mpr (hrunning task htask), fun task => ?_, ?_, ?_, ?_⟩
  · rw [Execution.outstanding_cancel, List.mem_filter, h.outstanding]
    simp
  · rw [Execution.outstanding_cancel]
    exact h.alone.filter _
  · rw [List.map_map]
    have hlabel : Execution.label ∘ Execution.cancel tasks = Execution.label :=
      funext (Execution.cancel_label tasks)
    rw [hlabel]
    exact h.labels
  · simp only [List.forall_mem_map, Execution.cancel_task]
    intro execution hmem
    refine (h.card execution hmem).imp_right fun ⟨card, hcard, hmatches⟩ => ⟨card, hcard, ?_⟩
    refine ⟨by rw [Execution.cancel_attempt]; exact hmatches.attempt, fun hout => ?_, fun hcancelled => ?_⟩
    · rw [Execution.cancel_attempt]
      exact hmatches.outstanding ((Execution.isOutstanding_cancel tasks execution).mp hout).1
    · unfold Execution.cancel at hcancelled
      split at hcancelled
      · rename_i hnamed
        exact hdone _ hnamed.2 card hcard
      · exact hmatches.cancelled hcancelled

-- Commands that start nothing reach the executor.
theorem Tracks.obeyed {commands : List Command} (hquiet : ∀ command ∈ commands, command.assignments = [])
    (h : scheduler.Tracks running executions) (hnodup : (commands.flatMap Command.cancelled).Nodup)
    (hstopped : ∀ task ∈ commands.flatMap Command.cancelled, running task ∧
      ∀ card, scheduler.card? task = some card → card.place = .done) :
    Command.AllFit executions commands ∧
      scheduler.Tracks (fun task => running task ∧ task ∉ commands.flatMap Command.cancelled)
        (commands.foldl Command.obeyed executions) := by
  induction commands generalizing running executions with
  | nil => exact ⟨trivial, h.congr fun task => by simp⟩
  | cons command rest ih =>
      obtain ⟨hfirst, hrest⟩ := List.forall_mem_cons.mp hquiet
      rw [List.flatMap_cons] at hnodup hstopped
      obtain ⟨-, hnodup, hapart⟩ := List.nodup_append.mp hnodup
      have hfits : command.Fits executions ∧
          scheduler.Tracks (fun task => running task ∧ task ∉ command.cancelled)
            (command.obeyed executions) := by
        cases command with
        | dispatch assignments =>
            obtain rfl : assignments = [] := hfirst
            refine ⟨⟨List.nodup_nil, by simp⟩, ?_⟩
            simp only [Command.obeyed, List.map_nil, List.append_nil]
            exact h.congr fun task => by simp [Command.cancelled]
        | cancel tasks =>
            exact h.cancel (fun task htask => (hstopped task (List.mem_append_left _ htask)).1)
              fun task htask => (hstopped task (List.mem_append_left _ htask)).2
        | ended | exit => exact ⟨trivial, h.congr fun task => by simp [Command.cancelled]⟩
      obtain ⟨hall, htracks⟩ := ih hrest hfits.2 hnodup fun task htask =>
        ⟨⟨(hstopped task (List.mem_append_right _ htask)).1, fun hmem => hapart _ hmem _ htask rfl⟩,
          (hstopped task (List.mem_append_right _ htask)).2⟩
      exact ⟨⟨hfits.1, hall⟩, htracks.congr fun task => by
        rw [List.flatMap_cons, List.mem_append, not_or, and_assoc]⟩

section Starts

variable {assignments : List Assignment} (hstarts : scheduler.Starts scheduler' assignments)
include hstarts

-- What a pass starts has no execution outstanding.
theorem Starts.not_outstanding (h : scheduler.Tracks scheduler.Runs executions) (hs : scheduler.Sound)
    {assignment : Assignment} (hmem : assignment ∈ assignments) :
    assignment.task ∉ Execution.outstanding executions := by
  rw [h.outstanding, Scheduler.runs_iff hs]
  rintro ⟨card', hcard', hrunning⟩
  obtain ⟨card, -, hcard, heligible, -⟩ := hstarts.started assignment hmem
  rw [hcard, Option.some.injEq] at hcard'
  rw [← hcard', heligible] at hrunning
  cases hrunning

-- Its number has not been given out before.
theorem Starts.fresh_label (h : scheduler.Tracks running executions) {assignment : Assignment}
    (hmem : assignment ∈ assignments) :
    (assignment.task, assignment.attempt) ∉ executions.map Execution.label := by
  intro hlabel
  obtain ⟨execution, hexecution, heq⟩ := List.mem_map.mp hlabel
  obtain ⟨htask, hattempt⟩ := Prod.mk.inj heq
  obtain ⟨card, -, hcard, -, hlt, -⟩ := hstarts.started assignment hmem
  rw [← htask] at hcard
  rcases h.card execution hexecution with hnone | ⟨card', hcard', hmatches⟩
  · rw [card?, hnone] at hcard
    cases hcard
  · rw [hcard, Option.some.injEq] at hcard'
    subst hcard'
    exact Nat.lt_irrefl _ (Nat.lt_of_lt_of_le (hattempt ▸ hlt) hmatches.attempt)

-- Executions of before match the books after a pass: those of a task that it starts have
-- reported.
theorem Starts.matches_started {execution : Execution} {card : Card}
    (hcard : scheduler.card? execution.task = some card) (hmatches : execution.Matches card)
    (htask : execution.task ∈ assignments.map Assignment.task)
    (hover : execution.isOutstanding = false) :
    ∃ card', scheduler'.card? execution.task = some card' ∧ execution.Matches card' := by
  obtain ⟨assignment, hassignment, hsame⟩ := List.mem_map.mp htask
  obtain ⟨before, card', hbefore, heligible, hlt, hcard', -, hattempt⟩ :=
    hstarts.started assignment hassignment
  rw [hsame] at hbefore hcard'
  rw [hcard, Option.some.injEq] at hbefore
  subst hbefore
  refine ⟨card', hcard', ?_, fun hout => ?_, fun hcancelled => ?_⟩
  · exact Nat.le_trans hmatches.attempt (Nat.le_of_lt (hattempt ▸ hlt))
  · rw [hover] at hout
    cases hout
  · rw [hmatches.cancelled hcancelled] at heligible
    cases heligible

theorem Starts.matches_others {execution : Execution} {card : Card}
    (hcard : scheduler.card? execution.task = some card) (hmatches : execution.Matches card)
    (htask : execution.task ∉ assignments.map Assignment.task)
    (hrunning : execution.isOutstanding → card.place = .running) :
    ∃ card', scheduler'.card? execution.task = some card' ∧ execution.Matches card' := by
  obtain ⟨card', hcard', hpassed⟩ := hstarts.after htask hcard
  refine ⟨card', hcard', Nat.le_trans hmatches.attempt hpassed.attempts, fun hout => ?_,
    fun hcancelled => hpassed.place.trans (hmatches.cancelled hcancelled)⟩
  rw [hpassed.eligible (by rw [hrunning hout]; simp)]
  exact hmatches.outstanding hout

theorem Knows.starts (h : scheduler.Knows executions) (hcounted : scheduler.Counted) :
    scheduler'.Knows (executions ++ assignments.map .ofAssignment) := by
  rw [Knows, hstarts.nextId, List.forall_mem_append, List.forall_mem_map]
  refine ⟨h, fun assignment hassignment => ?_⟩
  obtain ⟨card, -, hcard, -⟩ := hstarts.started assignment hassignment
  exact number_lt_of_card? hcounted hcard

-- A dispatch pass reaches the executor.
theorem Tracks.starts (h : scheduler.Tracks scheduler.Runs executions) (hs : scheduler.Sound)
    (hs' : scheduler'.Sound) :
    (Command.dispatch assignments).Fits executions ∧
      scheduler'.Tracks scheduler'.Runs (executions ++ assignments.map .ofAssignment) := by
  have hidle {assignment : Assignment} (hmem : assignment ∈ assignments) :=
    hstarts.not_outstanding h hs hmem
  have hfresh {assignment : Assignment} (hmem : assignment ∈ assignments) := hstarts.fresh_label h hmem
  refine ⟨⟨hstarts.nodup, fun assignment hmem => ⟨hidle hmem, hfresh hmem⟩⟩, fun task => ?_, ?_, ?_,
    fun execution hmem => ?_⟩
  · rw [Execution.outstanding_append, Execution.outstanding_ofAssignment, List.mem_append,
      h.outstanding, hstarts.runs_iff hs hs']
  · rw [Execution.outstanding_append, Execution.outstanding_ofAssignment]
    refine List.nodup_append.mpr ⟨h.alone, hstarts.nodup, fun task hout other hother heq => ?_⟩
    obtain ⟨assignment, hassignment, rfl⟩ := List.mem_map.mp hother
    exact hidle hassignment (heq ▸ hout)
  · rw [List.map_append, List.map_map]
    refine List.nodup_append.mpr ⟨h.labels, ?_, fun label hlabel other hother heq => ?_⟩
    · refine List.Nodup.of_map Prod.fst ?_
      rw [List.map_map]
      exact hstarts.nodup
    · obtain ⟨assignment, hassignment, rfl⟩ := List.mem_map.mp hother
      subst heq
      exact hfresh hassignment hlabel
  · rcases List.mem_append.mp hmem with hin | hin
    · refine (h.card execution hin).imp (hstarts.gone _) fun ⟨card, hcard, hmatches⟩ => ?_
      have hlisted (hout : execution.isOutstanding) : execution.task ∈ Execution.outstanding executions :=
        Execution.mem_outstanding_iff.mpr ⟨execution, hin, hout, rfl⟩
      by_cases htask : execution.task ∈ assignments.map Assignment.task
      · refine hstarts.matches_started hcard hmatches htask (Bool.eq_false_iff.mpr fun hout => ?_)
        obtain ⟨assignment, hassignment, hsame⟩ := List.mem_map.mp htask
        exact hidle hassignment (hsame ▸ hlisted hout)
      · refine hstarts.matches_others hcard hmatches htask fun hout => ?_
        obtain ⟨other, hother, hrunning⟩ :=
          (Scheduler.runs_iff hs).mp ((h.outstanding execution.task).mp (hlisted hout))
        rw [hcard, Option.some.injEq] at hother
        exact hother ▸ hrunning
    · obtain ⟨assignment, hassignment, rfl⟩ := List.mem_map.mp hin
      obtain ⟨-, card', -, -, -, hcard', -, hattempt⟩ := hstarts.started assignment hassignment
      exact .inr ⟨card', hcard', by rw [hattempt]; exact Nat.le_refl _, fun _ => hattempt.symm,
        fun hcancelled => by cases hcancelled⟩

end Starts

end Scheduler

end JobScheduler
