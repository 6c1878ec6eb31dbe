import JobScheduler.Config.Basic
import JobScheduler.Proofs.Job.Sound

namespace JobScheduler

namespace Submission

-- Whether a submission can be resolved is not a matter of the id that its job gets.
theorem resolve_of_resolve {submission : Submission} {a : JobId} {tasks : List PlannedTask}
    (h : submission.resolve a = .ok tasks) (b : JobId) :
    submission.resolve b = .ok (submission.plan b) := by
  obtain ⟨htasks, hpolicies, hchecked, hgraph, -⟩ := resolve_eq_ok_iff.mp h
  exact resolve_eq_ok_iff.mpr ⟨htasks, hpolicies, hchecked, hgraph, rfl⟩

end Submission

-- A submission that can be resolved is accepted under any id.
theorem LiveJob.exists_new_of_resolve {submission : Submission} {a : JobId} {tasks : List PlannedTask}
    (h : submission.resolve a = .ok tasks) (id : JobId) : ∃ job, LiveJob.new id submission = .ok job := by
  obtain ⟨board, hbuild⟩ :=
    Submission.exists_build_of_resolve (Submission.resolve_of_resolve h id) submission.priority
  refine ⟨ofBoard submission board, ?_⟩
  rw [LiveJob.new, bind_eq_ok_iff]
  exact ⟨_, Submission.resolve_of_resolve h id, bind_eq_ok_iff.mpr ⟨board, hbuild, rfl⟩⟩

namespace Config

-- What it takes to be run with these limits.
structure Runnable (limits : Limits) (submission : Submission) : Prop where
  fits : ∀ task ∈ submission.tasks, task.resources ≤ limits.resources
  resolves : submission.resolve ⟨0⟩ = .ok (submission.plan ⟨0⟩)

theorem runnable_of_checkJob {limits : Limits} {submission : Submission}
    (h : checkJob limits submission = .ok ()) : Runnable limits submission := by
  obtain ⟨_, hsizes, h⟩ := bind_eq_ok_iff.mp h
  obtain ⟨tasks, hresolve, -⟩ := bind_eq_ok_iff.mp h
  refine ⟨fun task htask => ?_, Submission.resolve_of_resolve hresolve ⟨0⟩⟩
  have hsize := forM_eq_ok_iff.mp hsizes task htask
  unfold checkSize at hsize
  split at hsize
  · cases hsize
  · rename_i hle
    exact Nat.not_lt.mp hle

-- An accepted file has jobs, all of which can be run, and they are handed in as they are
-- written.
theorem of_validate {config : Config} {batch : Batch} (h : config.validate = .ok batch) :
    batch.jobs = config.submissions ∧ batch.jobs ≠ [] ∧
      ∀ submission ∈ batch.jobs, Runnable batch.limits submission := by
  unfold validate at h
  by_cases hempty : config.jobs.isEmpty
  · simp [hempty, bind, Except.bind, throw, throwThe, MonadExceptOf.throw] at h
  · simp only [hempty, Bool.false_eq_true, if_false, bind_eq_ok_iff] at h
    obtain ⟨_, -, _, hjobs, h⟩ := h
    cases h
    refine ⟨rfl, fun hnil => hempty ?_, fun submission hmem =>
      runnable_of_checkJob (forM_eq_ok_iff.mp hjobs submission hmem)⟩
    exact List.isEmpty_iff.mpr (List.map_eq_nil_iff.mp hnil)

-- The jobs come in the order of their names.
theorem increasing_names (config : Config) :
    (config.submissions.map Submission.name).Pairwise fun a b => compare a b = .lt := by
  have hnames : config.submissions.map Submission.name = config.jobs.keys := by
    rw [submissions, List.map_map]
    rfl
  rw [hnames]
  exact config.jobs.keys_increasing

end Config

end JobScheduler
