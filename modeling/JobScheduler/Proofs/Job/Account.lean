import Mathlib.Data.List.Basic
import JobScheduler.PlannedTask
import JobScheduler.Result
import JobScheduler.Status

namespace JobScheduler

-- Statuses of tasks that may still be executed without the client's doing.
def TaskStatus.isOpen (status : TaskStatus) : Bool := !status.isTerminated && status != .inError

theorem TaskStatus.ne_finished_of_isOpen {status : TaskStatus} (h : status.isOpen) : status ≠ .finished := by
  rintro rfl
  cases h

theorem TaskStatus.isOpen_iff {status : TaskStatus} :
    status.isOpen ↔ status.isTerminated = false ∧ status ≠ .inError := by
  simp [isOpen]

-- What happens to a task that bears on its executions and its results.
inductive Note
  | reported (result : TaskResult)
  | restarted
  | killed
deriving DecidableEq

-- The results that a task has reported since it was last restarted.
def Note.trials (notes : List Note) : List TaskResult :=
  notes.foldl (fun trials note =>
    match note with
    | .reported result => trials ++ [result]
    | .restarted => []
    | .killed => trials) []

-- What the notes on a task come to: the results of the executions that count since it was
-- last restarted, all results that were recorded, and whether it was ever restarted.
structure Account where
  trials : List TaskResult
  recorded : List TaskResult
  rerun : Bool

namespace Account

def opened : Account := ⟨[], [], false⟩

-- A failed execution is not recorded while there are executions left.
def add (planned : PlannedTask) (account : Account) : Note → Account
  | .reported result =>
      let trials := account.trials ++ [result]
      if result.hadException ∧ trials.length < planned.maxExecutions then { account with trials }
      else { account with trials, recorded := account.recorded ++ [result] }
  | .restarted => { account with trials := [], rerun := true }
  | .killed => { account with recorded := account.recorded ++ [.killed planned.id] }

def of (planned : PlannedTask) (notes : List Note) : Account := notes.foldl (add planned) opened

-- At the end of its job a task of which nothing was recorded gets a result that says so.
def close (planned : PlannedTask) (account : Account) : Account :=
  if account.recorded.isEmpty then { account with recorded := [.noneReturned planned.id] } else account

-- All that was recorded of a task once its job has ended.
def closed (planned : PlannedTask) (notes : List Note) : Account := (of planned notes).close planned

-- The last exception on record.
def exception? (account : Account) : Option TaskResult :=
  (account.recorded.filter (·.isSettledException)).getLast?

-- Something was recorded, but nothing except failures that were still on their way.
def AllPending (account : Account) : Prop :=
  account.recorded ≠ [] ∧ ∀ result ∈ account.recorded, result.pending ∧ result.hadException

instance (account : Account) : Decidable account.AllPending :=
  inferInstanceAs (Decidable (account.recorded ≠ [] ∧
    ∀ result ∈ account.recorded, result.pending ∧ result.hadException))

theorem of_append (planned : PlannedTask) (notes later : List Note) :
    of planned (notes ++ later) = later.foldl (add planned) (of planned notes) :=
  List.foldl_append

theorem rerun_of (planned : PlannedTask) (notes : List Note) :
    (of planned notes).rerun = true ↔ .restarted ∈ notes := by
  suffices hall : ∀ account : Account, (notes.foldl (add planned) account).rerun = true ↔
      account.rerun = true ∨ .restarted ∈ notes from
    (hall opened).trans (by simp [opened])
  induction notes with
  | nil => simp
  | cons first rest ih =>
      intro account
      rw [List.foldl_cons, ih]
      cases first with
      | reported result =>
          simp only [add]
          split <;> simp
      | restarted => simp [add]
      | killed => simp [add]

-- The trials of an account do not depend on how many executions a task may have.
theorem trials_of (planned : PlannedTask) (notes : List Note) :
    (of planned notes).trials = Note.trials notes := by
  suffices hall : ∀ account : Account, (notes.foldl (add planned) account).trials =
      notes.foldl (fun trials note =>
        match note with
        | .reported result => trials ++ [result]
        | .restarted => []
        | .killed => trials) account.trials from hall opened
  induction notes with
  | nil => exact fun _ => rfl
  | cons first rest ih =>
      intro account
      rw [List.foldl_cons, List.foldl_cons, ih]
      cases first with
      | reported result =>
          simp only [add]
          split <;> rfl
      | restarted | killed => rfl

-- The last exception on record is the last result if that is one.
theorem exception?_append (account : Account) (result : TaskResult) :
    ({ account with recorded := account.recorded ++ [result] } : Account).exception? =
      if result.isSettledException then some result else account.exception? := by
  rw [exception?, List.filter_append]
  by_cases hsettled : result.isSettledException
  · simp [hsettled]
  · simp [hsettled, exception?]

-- Where no exception but the last result was recorded, there is one if that is one.
theorem exception?_eq_filter {account : Account} (h : ∀ result, account.exception? = some result →
    account.recorded.getLast? = some result) :
    account.exception? = account.recorded.getLast?.filter (·.isSettledException) := by
  cases hexception : account.exception? with
  | some result =>
      have hsettled := (List.mem_filter.mp (List.mem_of_getLast? hexception)).2
      rw [h result hexception, Option.filter_some, if_pos hsettled]
  | none =>
      refine (Option.filter_eq_none_iff.mpr fun result hlast hsettled => ?_).symm
      rw [exception?, List.getLast?_eq_none_iff, List.filter_eq_nil_iff] at hexception
      exact hexception result (List.mem_of_getLast? hlast) hsettled

theorem isSome_exception?_iff {account : Account} :
    account.exception?.isSome ↔ ∃ result ∈ account.recorded, result.isSettledException := by
  simp [exception?]

section Close

variable (planned : PlannedTask) (account : Account)

theorem getLast?_close : (account.close planned).recorded.getLast? =
    some (account.recorded.getLast?.getD (.noneReturned planned.id)) := by
  unfold close
  rcases account.recorded.eq_nil_or_concat with hnil | ⟨rest, last, hlast⟩
  · rw [hnil]
    rfl
  · simp [hlast]

theorem exception?_close : (account.close planned).exception? =
    if account.recorded.getLast?.isSome then account.exception?
    else some (.noneReturned planned.id) := by
  unfold close
  rcases account.recorded.eq_nil_or_concat with hnil | ⟨rest, last, hlast⟩
  · rw [hnil]
    rfl
  · simp [hlast]

end Close

-- What the status shown of a task tells about its account.
def Shows (planned : PlannedTask) (account : Account) : TaskStatus → Prop
  | .finished => ∃ result, account.trials.getLast? = some result ∧
      account.recorded.getLast? = some result ∧ ¬result.hadException
  | .faulty | .inError => ∃ result, account.trials.getLast? = some result ∧
      account.recorded.getLast? = some result ∧ planned.maxExecutions ≤ account.trials.length
  | .killed => account.recorded.getLast? = some (.killed planned.id)
  | _ => account.trials.length < planned.maxExecutions

-- The account of a task that shows the status. Unless a task was restarted, nothing was
-- recorded before its last execution, or before it was killed. All that was recorded of one
-- that has not succeeded are failures.
structure Fits (planned : PlannedTask) (account : Account) (status : TaskStatus) : Prop where
  shows : account.Shows planned status
  budget : account.trials.length ≤ planned.maxExecutions
  unrecorded : status.isOpen → account.rerun = false → account.recorded = []
  exception : account.rerun = false → ∀ result, account.exception? = some result →
    account.recorded.getLast? = some result
  failed : status ≠ .finished → ∀ result ∈ account.recorded, result.hadException

section Fits

variable {planned : PlannedTask} {account : Account}

theorem shows_of_isOpen {status : TaskStatus} (h : status.isOpen) :
    account.Shows planned status ↔ account.trials.length < planned.maxExecutions := by
  cases status <;> first | exact Iff.rfl | cases h

theorem fits_opened (hpos : 0 < planned.maxExecutions) {status : TaskStatus} (h : status.isOpen) :
    opened.Fits planned status where
  shows := (shows_of_isOpen h).mpr hpos
  budget := Nat.zero_le _
  unrecorded _ _ := rfl
  exception _ _ hnone := by cases hnone
  failed _ _ hmem := absurd hmem List.not_mem_nil

variable {status : TaskStatus} (h : account.Fits planned status)
include h

theorem Fits.reopen {status' : TaskStatus} (hopen : status.isOpen) (hopen' : status'.isOpen) :
    account.Fits planned status' where
  shows := (shows_of_isOpen hopen').mpr ((shows_of_isOpen hopen).mp h.shows)
  budget := h.budget
  unrecorded _ := h.unrecorded hopen
  exception := h.exception
  failed _ := h.failed (TaskStatus.ne_finished_of_isOpen hopen)

-- Of a task that was never restarted nothing is recorded before it has terminated.
theorem Fits.isSome_recorded_iff (hfirst : account.rerun = false) (hstatus : status ≠ .inError) :
    account.recorded.getLast?.isSome ↔ status.isTerminated := by
  cases hterminated : status.isTerminated with
  | false =>
      rw [h.unrecorded (TaskStatus.isOpen_iff.mpr ⟨hterminated, hstatus⟩) hfirst]
      simp
  | true =>
      refine iff_of_true ?_ rfl
      cases status with
      | finished | faulty =>
          obtain ⟨result, -, hrecorded, -⟩ := h.shows
          rw [hrecorded]
          rfl
      | killed =>
          rw [show account.recorded.getLast? = _ from h.shows]
          rfl
      | submitted | pending | paused | running | waitingOnError | inError | aborted => cases hterminated

-- What is recorded of a task that has terminated is its last execution, or that it was killed.
theorem Fits.eq_of_recorded (hterminated : status.isTerminated) {result : TaskResult}
    (hrecorded : account.recorded.getLast? = some result) :
    if status = .killed then result = .killed planned.id
    else account.trials.getLast? = some result ∧
      ¬(result.hadException ∧ account.trials.length < planned.maxExecutions) := by
  have hshows := h.shows
  cases status with
  | killed => exact Option.some.inj (hrecorded.symm.trans hshows)
  | finished =>
      obtain ⟨last, htrial, hlast, hgood⟩ := hshows
      rw [hrecorded, Option.some.injEq] at hlast
      exact ⟨hlast ▸ htrial, fun hboth => hgood (hlast ▸ hboth.1)⟩
  | faulty =>
      obtain ⟨last, htrial, hlast, hfull⟩ := hshows
      rw [hrecorded, Option.some.injEq] at hlast
      exact ⟨hlast ▸ htrial, fun hboth => Nat.not_lt.mpr hfull hboth.2⟩
  | submitted | pending | paused | running | waitingOnError | inError | aborted => cases hterminated

-- Of a task that was never restarted no exception is on record but its last result.
theorem Fits.exception?_close (hfirst : account.rerun = false) : (account.close planned).exception? =
    (account.close planned).recorded.getLast?.filter (·.isSettledException) := by
  refine exception?_eq_filter fun result hexception => ?_
  rw [Account.exception?_close] at hexception
  rw [getLast?_close]
  cases hlast : account.recorded.getLast? with
  | some last =>
      rw [hlast, Option.isSome_some, if_pos rfl] at hexception
      have hsame : last = result :=
        Option.some.inj (hlast.symm.trans (h.exception hfirst result hexception))
      rw [hsame, Option.getD_some]
  | none =>
      rw [hlast] at hexception
      exact hexception

variable {result : TaskResult}

-- A failed execution with others left.
theorem Fits.tried (hopen : status.isOpen) (hfailed : result.hadException)
    (hleft : account.trials.length + 1 < planned.maxExecutions) {status' : TaskStatus}
    (hopen' : status'.isOpen) : (account.add planned (.reported result)).Fits planned status' := by
  have hlength : (account.trials ++ [result]).length = account.trials.length + 1 := List.length_append
  rw [add, if_pos ⟨hfailed, hlength ▸ hleft⟩]
  exact ⟨(shows_of_isOpen hopen').mpr (hlength ▸ hleft), Nat.le_of_lt (hlength ▸ hleft),
    fun _ => h.unrecorded hopen, h.exception, fun _ => h.failed (TaskStatus.ne_finished_of_isOpen hopen)⟩

theorem Fits.recorded_last (hopen : status.isOpen)
    (hlast : ¬(result.hadException ∧ account.trials.length + 1 < planned.maxExecutions)) {status' : TaskStatus}
    (hstatus : status' ∈ if result.hadException then [.faulty, .inError] else [.finished]) :
    (account.add planned (.reported result)).Fits planned status' := by
  have hlength : (account.trials ++ [result]).length = account.trials.length + 1 := List.length_append
  have hbudget := (shows_of_isOpen hopen).mp h.shows
  rw [add, if_neg (hlength ▸ hlast)]
  have hshut : status'.isOpen = false := by
    split at hstatus <;> simp only [List.mem_cons, List.not_mem_nil, or_false] at hstatus
    · rcases hstatus with rfl | rfl <;> rfl
    · rw [hstatus]
      rfl
  refine ⟨?_, hlength ▸ hbudget, fun hopen' => absurd hopen' (by simp [hshut]), fun hfirst other hother => ?_,
    fun hstatus' other hother => ?_⟩
  · split at hstatus
    · rename_i hfailed
      have hfull : planned.maxExecutions ≤ (account.trials ++ [result]).length := by
        rw [hlength]
        exact Nat.not_lt.mp fun hlt => hlast ⟨hfailed, hlt⟩
      have hshows : ∃ last, (account.trials ++ [result]).getLast? = some last ∧
          (account.recorded ++ [result]).getLast? = some last ∧
          planned.maxExecutions ≤ (account.trials ++ [result]).length :=
        ⟨result, List.getLast?_concat, List.getLast?_concat, hfull⟩
      simp only [List.mem_cons, List.not_mem_nil, or_false] at hstatus
      rcases hstatus with rfl | rfl <;> exact hshows
    · rename_i hgood
      rw [List.mem_singleton.mp hstatus]
      exact ⟨result, List.getLast?_concat, List.getLast?_concat, hgood⟩
  · have hnone := h.unrecorded hopen hfirst
    simp only [exception?, hnone, List.nil_append] at hother ⊢
    by_cases hsettled : result.isSettledException
    · simpa [hsettled] using hother
    · simp [hsettled] at hother
  · rcases List.mem_append.mp hother with hold | hnew
    · exact h.failed (TaskStatus.ne_finished_of_isOpen hopen) other hold
    · rw [List.mem_singleton.mp hnew]
      by_contra hgood
      rw [if_neg hgood] at hstatus
      exact hstatus' (List.mem_singleton.mp hstatus)

omit h in
-- The client gives up on a task in error.
theorem Fits.faulty (h : account.Fits planned .inError) : account.Fits planned .faulty :=
  ⟨h.shows, h.budget, (by cases ·), h.exception, fun _ => h.failed (by simp)⟩

-- The account of a task that a client kills.
theorem Fits.killed (hstatus : status ≠ .finished) : (account.add planned .killed).Fits planned .killed where
  shows := List.getLast?_concat
  budget := h.budget
  unrecorded hopen := by cases hopen
  exception _ result hresult := by
    have hkilled := (account.exception?_append (.killed planned.id)).trans (if_pos rfl)
    exact List.getLast?_concat.trans (hkilled.symm.trans hresult)
  failed _ result hresult := by
    rcases List.mem_append.mp hresult with hold | hnew
    · exact h.failed hstatus result hold
    · rw [List.mem_singleton.mp hnew]
      rfl

omit h in
-- The account of a task that a client has run again.
theorem Fits.restarted (h : account.Fits planned .inError) (hpos : 0 < planned.maxExecutions)
    {status' : TaskStatus} (hopen : status'.isOpen) : (account.add planned .restarted).Fits planned status' where
  shows := (shows_of_isOpen hopen).mpr hpos
  budget := Nat.zero_le _
  unrecorded _ hfirst := by cases hfirst
  exception hfirst := by cases hfirst
  failed _ := h.failed (by simp)

omit h in
-- The failure of a task that was killed is final.
theorem Fits.not_allPending (h : account.Fits planned .killed) : ¬account.AllPending := by
  have hlast : account.recorded.getLast? = some (.killed planned.id) := h.shows
  intro hpending
  exact Bool.false_ne_true (hpending.2 _ (List.mem_of_getLast? hlast)).1

-- A task that has not succeeded has an exception on record when its job ends, unless all
-- that was recorded of it was still on its way.
theorem Fits.isSome_exception?_close (hstatus : status ≠ .finished) :
    (account.close planned).exception?.isSome ↔ ¬account.AllPending := by
  rw [isSome_exception?_iff, close]
  by_cases hnone : account.recorded = []
  · simp [AllPending, hnone, TaskResult.isSettledException, TaskResult.hadException,
      TaskResult.noneReturned, TaskResult.failure]
  · have hsettled : (∃ result ∈ account.recorded, result.isSettledException) ↔
        ∃ result ∈ account.recorded, ¬(result.pending ∧ result.hadException) :=
      exists_congr fun result => and_congr_right fun hmem => by
        simp [TaskResult.isSettledException, h.failed hstatus result hmem]
    rw [if_neg (by simpa using hnone), hsettled, AllPending, and_iff_right hnone]
    simp

end Fits

end Account

end JobScheduler
