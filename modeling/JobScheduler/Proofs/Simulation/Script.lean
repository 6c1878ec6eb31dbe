import Mathlib.Data.List.Forall2
import JobScheduler.Executor.Script
import JobScheduler.Proofs.SortedMap

namespace JobScheduler

namespace ScriptLine

-- Whether an execution fails that comes after so many of the same task.
def fails : Option ScriptLine → Nat → Bool
  | some (.fail _), _ => true
  | some (.failTimes count), before => before < count
  | some (.succeed _), _ | some .hang, _ | none, _ => false

-- How often a task is executed that may be executed `limit` times.
def demand (limit : Nat) : Option ScriptLine → Nat
  | some (.fail _) => limit
  | some (.failTimes count) => min (count + 1) limit
  | some (.succeed _) | some .hang | none => 1

theorem demand_pos {limit : Nat} (h : 0 < limit) (line : Option ScriptLine) :
    0 < demand limit line := by
  unfold demand
  split <;> omega

-- An execution that the task needs is followed by another one if it fails and another one
-- is left.
theorem fails_and_lt_iff {line : Option ScriptLine} {limit before : Nat}
    (h : before < demand limit line) :
    fails line before ∧ before + 1 < limit ↔ before + 1 < demand limit line := by
  cases line with
  | none => simp [fails, demand]
  | some line =>
      cases line with
      | failTimes count =>
          simp only [fails, demand, decide_eq_true_eq] at h ⊢
          omega
      | succeed | fail | hang => simp [fails, demand]

end ScriptLine

-- What a scripted executor notes of work that it is handed.
def Assignment.note (work : Assignment) : String := s!"{work.job}/{work.name}"

namespace ScriptedExecutor

-- The executor goes by these lines and has executed tasks of the names so often.
structure Recalls (executor : ScriptedExecutor) (lines : SortedMap String ScriptLine)
    (before : String → Nat) : Prop where
  script : executor.lines = lines
  left : ∀ name count, lines.find? name = some (.failTimes count) →
    executor.failuresLeft.find? name = some (count - before name)

theorem recalls_addLine {executor : ScriptedExecutor}
    (h : executor.Recalls executor.lines fun _ => 0) (line : String × ScriptLine) :
    (executor.addLine line).Recalls (executor.addLine line).lines fun _ => 0 := by
  refine ⟨rfl, fun name count hcount => ?_⟩
  obtain ⟨given, line⟩ := line
  simp only [addLine, SortedMap.find?_insert] at hcount ⊢
  split at hcount
  · rename_i hname
    obtain rfl := Option.some.inj hcount
    simp [hname]
  · rename_i hname
    have hleft := h.left name count hcount
    split
    · rw [SortedMap.find?_insert, if_neg hname, hleft]
    · exact hleft

theorem executed_ofLines (lines : List (String × ScriptLine)) : (ofLines lines).executed = [] := by
  suffices hall : ∀ executor : ScriptedExecutor, (lines.foldl addLine executor).executed = executor.executed from
    hall _
  induction lines with
  | nil => exact fun _ => rfl
  | cons first rest ih => exact fun executor => ih (executor.addLine first)

-- At first nothing has been executed.
theorem recalls_ofLines (lines : List (String × ScriptLine)) :
    (ofLines lines).Recalls (ofLines lines).lines fun _ => 0 := by
  suffices hall : ∀ executor : ScriptedExecutor, (executor.Recalls executor.lines fun _ => 0) →
      (lines.foldl addLine executor).Recalls (lines.foldl addLine executor).lines fun _ => 0 from
    hall _ ⟨rfl, fun _ _ h => by cases h⟩
  induction lines with
  | nil => exact fun _ h => h
  | cons first rest ih => exact fun executor h => ih _ (recalls_addLine h first)

variable {executor : ScriptedExecutor} {lines : SortedMap String ScriptLine} {before : String → Nat}

-- One more execution is remembered if its line counts failures.
theorem Recalls.more (h : executor.Recalls lines before) {name : String} {executor' : ScriptedExecutor}
    (hlines : executor'.lines = executor.lines)
    (hothers : ∀ other, other ≠ name →
      executor'.failuresLeft.find? other = executor.failuresLeft.find? other)
    (hmine : ∀ count, lines.find? name = some (.failTimes count) →
      executor'.failuresLeft.find? name = some (count - before name - 1)) :
    executor'.Recalls lines fun other => before other + if other = name then 1 else 0 := by
  refine ⟨hlines.trans h.script, fun other count hcount => ?_⟩
  split
  · rename_i hsame
    subst hsame
    exact hmine count hcount
  · rename_i hother
    exact (hothers other hother).trans (h.left other count hcount)

-- The next execution of a task fails if the script says so.
theorem execute_eq (h : executor.Recalls lines before) {work : Assignment}
    (hheard : lines.find? work.name ≠ some .hang) :
    ∃ result executor', executor.execute work = (some result, executor') ∧
      result.hadException = ScriptLine.fails (lines.find? work.name) (before work.name) ∧
      executor'.Recalls lines (fun name => before name + if name = work.name then 1 else 0) ∧
      executor'.executed = executor.executed ++ [work.note] := by
  have hsame (hmine : ∀ count, lines.find? work.name = some (.failTimes count) → count - before work.name = 0) :
      ({ executor with executed := executor.executed ++ [work.note] } : ScriptedExecutor).Recalls
        lines fun name => before name + if name = work.name then 1 else 0 :=
    h.more rfl (fun _ _ => rfl) fun count hcount => by rw [h.left _ count hcount, hmine count hcount]
  cases hline : lines.find? work.name with
  | none =>
      refine ⟨.success work.task work.name, _, ?_, rfl, hsame (by simp [hline]), rfl⟩
      simp only [execute, outcome, h.script, hline]
      rfl
  | some line =>
      cases line with
      | succeed value =>
          refine ⟨.success work.task value, _, ?_, rfl, hsame (by simp [hline]), rfl⟩
          simp only [execute, outcome, h.script, hline]
          rfl
      | fail message =>
          refine ⟨.failure work.task message, _, ?_, rfl, hsame (by simp [hline]), rfl⟩
          simp only [execute, outcome, h.script, hline]
          rfl
      | hang => exact absurd hline hheard
      | failTimes count =>
          have hleft := h.left work.name count hline
          cases hremains : count - before work.name with
          | zero =>
              have hover : ¬before work.name < count := by omega
              refine ⟨.success work.task work.name, _, ?_, ?_, hsame (by simp [hline, hremains]), rfl⟩
              · simp only [execute, outcome, h.script, hline, hleft, hremains]
                rfl
              · simp [TaskResult.hadException, TaskResult.success, ScriptLine.fails, hover]
          | succ left =>
              have hmore : before work.name < count := by omega
              refine ⟨.failure work.task "scripted failure",
                { executor with
                  executed := executor.executed ++ [work.note]
                  failuresLeft := executor.failuresLeft.insert work.name left }, ?_, ?_,
                h.more rfl (fun other hother => ?_) (fun count' hcount' => ?_), rfl⟩
              · simp only [execute, outcome, h.script, hline, hleft, hremains]
                rfl
              · simp [TaskResult.hadException, TaskResult.failure, ScriptLine.fails, hmore]
              · rw [SortedMap.find?_insert, if_neg hother]
              · rw [hline, Option.some.injEq, ScriptLine.failTimes.injEq] at hcount'
                rw [SortedMap.find?_insert, if_pos rfl, ← hcount', hremains]
                rfl

-- All tasks of a batch report, in their order.
theorem executeAll_eq (h : executor.Recalls lines before) {works : List Assignment}
    (hnodup : (works.map Assignment.name).Nodup)
    (hheard : ∀ work ∈ works, lines.find? work.name ≠ some .hang) :
    ∃ reports executor', executor.executeAll works = (reports, executor') ∧
      List.Forall₂ (fun (work : Assignment) (report : TaskId × TaskResult) => report.1 = work.task ∧
        report.2.hadException = ScriptLine.fails (lines.find? work.name) (before work.name)) works reports ∧
      executor'.Recalls lines (fun name => before name + (works.map Assignment.name).count name) ∧
      executor'.executed = executor.executed ++ works.map Assignment.note := by
  induction works generalizing executor before with
  | nil => exact ⟨[], executor, rfl, .nil, h, (List.append_nil _).symm⟩
  | cons first rest ih =>
      obtain ⟨hfresh, hnodup⟩ := List.nodup_cons.mp hnodup
      obtain ⟨hfirst, hrest⟩ := List.forall_mem_cons.mp hheard
      obtain ⟨result, middle, hexecute, hfails, hmiddle, hnoted⟩ := execute_eq h hfirst
      obtain ⟨reports, final, hall, hreports, hfinal, hnotes⟩ := ih hmiddle hnodup hrest
      refine ⟨(first.task, result) :: reports, final, ?_, .cons ⟨rfl, hfails⟩ ?_, ?_, ?_⟩
      · simp only [executeAll, hexecute, hall]
      · have hothers (work : Assignment) (hwork : work ∈ rest) : work.name ≠ first.name := fun heq =>
          hfresh (heq ▸ List.mem_map_of_mem hwork)
        refine ((List.forall₂_and_left _ _).mpr ⟨hothers, hreports⟩).imp ?_
        rintro work report ⟨hne, htask, hexception⟩
        rw [if_neg hne] at hexception
        exact ⟨htask, hexception⟩
      · refine ⟨hfinal.script, fun name count hcount => ?_⟩
        rw [hfinal.left name count hcount, List.map_cons, List.count_cons]
        simp only [beq_iff_eq, eq_comm (a := first.name), Nat.add_assoc, Nat.add_comm (List.count _ _)]
      · rw [hnotes, hnoted, List.map_cons, List.append_assoc, List.singleton_append]

end ScriptedExecutor

end JobScheduler
