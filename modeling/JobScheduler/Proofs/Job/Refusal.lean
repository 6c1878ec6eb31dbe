import JobScheduler.Job.Live

namespace JobScheduler

-- The kinds of fault with which an event is refused.
def Fault.Kind.isRefusal : Fault.Kind → Bool
  | .configuration | .cycle | .jobNotFound | .taskNotFound => true
  | .contract | .recovery | .input | .format => false

-- Whatever goes wrong is a reason to refuse what was asked for.
def RefusesOnly {α : Type} (step : Except Fault α) : Prop :=
  ∀ fault, step = .error fault → fault.kind.isRefusal

namespace RefusesOnly

variable {α β : Type}

theorem of_ok (value : α) : RefusesOnly (.ok value) := by
  intro fault h
  cases h

theorem of_error {fault : Fault} (h : fault.kind.isRefusal) : RefusesOnly (.error fault : Except Fault α) := by
  rintro other ⟨⟩
  exact h

theorem bind {step : Except Fault α} {next : α → Except Fault β} (h : RefusesOnly step)
    (hnext : ∀ value, step = .ok value → RefusesOnly (next value)) : RefusesOnly (step >>= next) := by
  cases step with
  | error fault => exact of_error (h fault rfl)
  | ok value => exact hnext value rfl

theorem forM {items : List α} {check : α → Except Fault Unit} (h : ∀ item ∈ items, RefusesOnly (check item)) :
    RefusesOnly (items.forM check) := by
  induction items with
  | nil => exact of_ok ()
  | cons first rest ih =>
      obtain ⟨hfirst, hrest⟩ := List.forall_mem_cons.mp h
      exact hfirst.bind fun _ _ => ih hrest

end RefusesOnly

namespace Submission

theorem refusesOnly_checkTasks (submission : Submission) (seen : List String) (tasks : List Task) :
    RefusesOnly (submission.checkTasks seen tasks) := by
  induction tasks generalizing seen with
  | nil => exact .of_ok ()
  | cons first rest ih =>
      refine RefusesOnly.bind ?_ fun _ _ => ih _
      unfold checkTask
      dsimp only
      split
      · exact .of_error rfl
      · split
        · exact .of_error rfl
        · split
          · exact .of_error rfl
          · split
            · exact .of_error rfl
            · exact .of_ok ()

theorem refusesOnly_check (graph : NameGraph) (job : String) : RefusesOnly (graph.check job) := by
  refine RefusesOnly.bind (.forM fun name _ => .forM fun dependency _ => ?_) fun _ _ => ?_
  · unfold NameGraph.checkReference
    split
    · exact .of_error rfl
    · split
      · exact .of_error rfl
      · exact .of_ok ()
  · split
    · exact .of_error rfl
    · exact .of_ok ()

theorem refusesOnly_resolve (submission : Submission) (job : JobId) :
    RefusesOnly (submission.resolve job) := by
  have hfault (refusal : Refusal) : RefusesOnly (throw (.refused refusal) : Except Fault PUnit) :=
    .of_error rfl
  unfold resolve
  dsimp only
  split
  · exact (hfault _).bind fun _ h => by cases h
  · split
    · exact (hfault _).bind fun _ h => by cases h
    · exact (refusesOnly_checkTasks _ _ _).bind fun _ _ =>
        (refusesOnly_check _ _).bind fun _ _ => .of_ok _

end Submission

theorem Board.refusesOnly_checkPlan (job : JobId) (kind : JobKind) (size position : Nat)
    (tasks : List PlannedTask) : RefusesOnly (checkPlan job kind size position tasks) := by
  induction tasks generalizing position with
  | nil => exact .of_ok ()
  | cons first rest ih =>
      have hdependency (dependency : TaskId) : RefusesOnly (checkDependency job size dependency) := by
        unfold checkDependency
        split
        · exact .of_error rfl
        · exact .of_ok ()
      unfold checkPlan
      dsimp only
      split
      · exact RefusesOnly.bind (.of_error rfl) fun _ h => by cases h
      · split
        · exact (RefusesOnly.forM fun dependency _ => hdependency dependency).bind fun _ _ => ih _
        · exact ih _

-- A submission is refused for what is wrong with it, and never runs into a broken
-- contract.
theorem LiveJob.refusesOnly_new (id : JobId) (submission : Submission) :
    RefusesOnly (LiveJob.new id submission) :=
  (Submission.refusesOnly_resolve submission id).bind fun _ _ =>
    RefusesOnly.bind ((Board.refusesOnly_checkPlan _ _ _ _ _).bind fun _ _ => .of_ok _)
      fun _ _ => .of_ok _

end JobScheduler
