import JobScheduler.Executor.Foreman
import JobScheduler.Proofs.SortedMap

namespace JobScheduler

-- What a runner has still to report.
def Runner.unreported (runner : Runner) : List Assignment :=
  if runner.stage = .running then [runner.work] else []

namespace Foreman

-- Every task that is taken to be running has a runner of its own, at work on something.
def Holds (foreman : Foreman) (motive : Assignment → Prop) : Prop :=
  ∀ task number, foreman.active.find? task = some number →
    ∃ runner, foreman.runners[number]? = some runner ∧ runner.work.task = task ∧ motive runner.work

def unreported (foreman : Foreman) : List Assignment := foreman.runners.flatMap Runner.unreported

-- The runner because of which a task would not be started again, although it has reported.
def lingering? (foreman : Foreman) (task : TaskId) : Option Runner :=
  ((foreman.active.find? task).bind (foreman.runners[·]?)).filter (·.stage = .reported)

variable {foreman : Foreman} {motive : Assignment → Prop}

theorem Holds.imp {motive' : Assignment → Prop} (h : foreman.Holds motive)
    (himp : ∀ work, motive work → motive' work) : foreman.Holds motive' := by
  intro task number hactive
  obtain ⟨runner, hrunner, htask, hwork⟩ := h task number hactive
  exact ⟨runner, hrunner, htask, himp _ hwork⟩

theorem holds_new : Foreman.new.Holds motive := fun task number h => by cases h

theorem find?_active_sweep {task : TaskId} {number : Nat} :
    foreman.sweep.active.find? task = some number ↔
      foreman.active.find? task = some number ∧ foreman.hasEnded number = false := by
  rw [sweep, SortedMap.find?_filterValues, Option.filter_eq_some_iff, Bool.not_eq_true']

theorem lingering?_eq_some_iff {task : TaskId} {runner : Runner} :
    foreman.lingering? task = some runner ↔ ∃ number, foreman.active.find? task = some number ∧
      foreman.runners[number]? = some runner ∧ runner.stage = .reported := by
  rw [lingering?, Option.filter_eq_some_iff, Option.bind_eq_some_iff, decide_eq_true_iff, ← exists_and_right]
  simp only [and_assoc]

-- A task whose runner lingers is passed over, and one with no runner that is at work is not.
theorem receive_run_of_lingering {work : Assignment} {runner : Runner}
    (h : foreman.lingering? work.task = some runner) :
    (foreman.receive (.run work)).runners = foreman.runners := by
  obtain ⟨number, hactive, hrunner, hstage⟩ := lingering?_eq_some_iff.mp h
  have hkept : foreman.sweep.active.find? work.task = some number :=
    find?_active_sweep.mpr ⟨hactive, by simp [hasEnded, hrunner, hstage]⟩
  rw [receive, start, if_pos (by rw [SortedMap.contains, hkept]; rfl)]
  rfl

theorem receive_run_of_free {work : Assignment} (hnone : foreman.lingering? work.task = none)
    (hidle : ∀ number runner, foreman.active.find? work.task = some number →
      foreman.runners[number]? = some runner → runner.stage ≠ .running) :
    (foreman.receive (.run work)).runners = foreman.runners ++ [⟨work, .running, false⟩] ∧
      (foreman.receive (.run work)).active.find? work.task = some foreman.runners.length := by
  have hfree : foreman.sweep.active.find? work.task = none := by
    refine Option.eq_none_iff_forall_ne_some.mpr fun number hkept => ?_
    obtain ⟨hactive, hgoing⟩ := find?_active_sweep.mp hkept
    cases hrunner : foreman.runners[number]? with
    | none => simp [hasEnded, hrunner] at hgoing
    | some runner =>
        have hstage : runner.stage = .reported := by
          have hrunning := hidle number runner hactive hrunner
          cases hstage : runner.stage with
          | reported => rfl
          | running => exact absurd hstage hrunning
          | ended => simp [hasEnded, hrunner, hstage] at hgoing
        have hlingering := lingering?_eq_some_iff.mpr ⟨number, hactive, hrunner, hstage⟩
        rw [hnone] at hlingering
        cases hlingering
  rw [receive, start, if_neg (by simp [SortedMap.contains, hfree])]
  exact ⟨rfl, (SortedMap.find?_insert _ _ _ _).trans (if_pos rfl)⟩

theorem mem_unreported {number : Nat} {runner : Runner} (h : foreman.runners[number]? = some runner)
    (hrunning : runner.stage = .running) : runner.work ∈ foreman.unreported :=
  List.mem_flatMap.mpr ⟨runner, List.mem_of_getElem? h, by simp [Runner.unreported, hrunning]⟩

theorem Holds.sweep (h : foreman.Holds motive) : foreman.sweep.Holds motive :=
  fun task number hactive => h task number (find?_active_sweep.mp hactive).1

theorem Holds.alter (h : foreman.Holds motive) (number : Nat) {change : Runner → Runner}
    (hkeeps : ∀ runner, (change runner).work = runner.work) : (foreman.alter number change).Holds motive := by
  intro task other hactive
  obtain ⟨runner, hrunner, htask, hwork⟩ := h task other hactive
  rw [Foreman.alter, List.getElem?_modify, hrunner]
  refine ⟨_, rfl, ?_⟩
  split
  · rw [hkeeps]
    exact ⟨htask, hwork⟩
  · exact ⟨htask, hwork⟩

theorem Holds.start (h : foreman.Holds motive) {work : Assignment} (hwork : motive work) :
    (foreman.start work).Holds motive := by
  unfold Foreman.start
  split
  · exact h
  · intro task number hactive
    rw [SortedMap.find?_insert] at hactive
    split at hactive
    · rename_i htask
      rw [← Option.some.inj hactive]
      exact ⟨_, List.getElem?_concat_length, htask.symm, hwork⟩
    · obtain ⟨runner, hrunner, htask⟩ := h task number hactive
      exact ⟨runner, List.getElem?_append_left (List.getElem?_eq_some_iff.mp hrunner).1 ▸ hrunner, htask⟩

-- A task that is stopped is not taken to be running any more.
theorem Holds.stop (h : foreman.Holds motive) (task : TaskId) :
    (foreman.stop task).Holds fun work => motive work ∧ work.task ≠ task := by
  unfold Foreman.stop
  split
  · rename_i hnone
    intro other number hactive
    obtain ⟨runner, hrunner, htask, hwork⟩ := h other number hactive
    refine ⟨runner, hrunner, htask, hwork, fun heq => ?_⟩
    rw [← htask, heq, hnone] at hactive
    cases hactive
  · refine Holds.alter (fun other number hactive => ?_) _ fun _ => rfl
    rw [SortedMap.find?_erase] at hactive
    split at hactive
    · cases hactive
    · rename_i hne
      obtain ⟨runner, hrunner, htask, hwork⟩ := h other number hactive
      exact ⟨runner, hrunner, htask, hwork, fun heq => hne (htask ▸ heq)⟩

theorem Holds.stopAll (h : foreman.Holds motive) (tasks : List TaskId) :
    (tasks.foldl Foreman.stop foreman).Holds fun work => motive work ∧ work.task ∉ tasks := by
  induction tasks generalizing foreman motive with
  | nil => exact h.imp fun work hwork => ⟨hwork, List.not_mem_nil⟩
  | cons first rest ih =>
      refine (ih (h.stop first)).imp fun work hwork => ⟨hwork.1.1, ?_⟩
      rw [List.mem_cons, not_or]
      exact ⟨hwork.1.2, hwork.2⟩

@[simp] theorem unreported_sweep : foreman.sweep.unreported = foreman.unreported := rfl

theorem unreported_start (work : Assignment) :
    (foreman.start work).unreported =
      if foreman.active.contains work.task then foreman.unreported else foreman.unreported ++ [work] := by
  unfold Foreman.start
  split
  · rfl
  · rw [unreported, List.flatMap_append]
    rfl

-- What a change makes of one runner it makes of the work that is not reported.
theorem unreported_alter {number : Nat} {runner : Runner} (h : foreman.runners[number]? = some runner)
    (change : Runner → Runner) : ∃ before after,
      foreman.unreported = before ++ runner.unreported ++ after ∧
      (foreman.alter number change).unreported = before ++ (change runner).unreported ++ after := by
  obtain ⟨hlt, -⟩ := List.getElem?_eq_some_iff.mp h
  obtain ⟨before, found, after, hsplit, hlength, hmodified⟩ := List.exists_of_modify change hlt
  have hfound : found = runner := by
    rw [hsplit, ← hlength, List.getElem?_append_right (Nat.le_refl _), Nat.sub_self] at h
    exact Option.some.inj h
  refine ⟨before.flatMap Runner.unreported, after.flatMap Runner.unreported, ?_, ?_⟩
  · rw [unreported, hsplit, hfound, List.flatMap_append, List.flatMap_cons, List.append_assoc]
  · rw [unreported, Foreman.alter, hmodified, hfound, List.flatMap_append, List.flatMap_cons,
      List.append_assoc]

theorem unreported_stop (task : TaskId) : (foreman.stop task).unreported = foreman.unreported := by
  unfold Foreman.stop
  split
  · rfl
  · rename_i number hactive
    change (foreman.alter number _).unreported = _
    cases hrunner : foreman.runners[number]? with
    | none =>
        rw [unreported, Foreman.alter, List.modify_eq_self (List.getElem?_eq_none_iff.mp hrunner)]
        rfl
    | some runner =>
        obtain ⟨before, after, hbefore, hafter⟩ := unreported_alter hrunner ({ · with stopped := true })
        rw [hbefore, hafter]
        rfl

theorem unreported_stopAll (tasks : List TaskId) :
    (tasks.foldl Foreman.stop foreman).unreported = foreman.unreported := by
  induction tasks generalizing foreman with
  | nil => rfl
  | cons first rest ih => rw [List.foldl_cons, ih, unreported_stop]

end Foreman

end JobScheduler
