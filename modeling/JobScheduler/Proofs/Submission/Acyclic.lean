import Mathlib.Data.List.Basic
import JobScheduler.Proofs.Submission.Resolve

namespace JobScheduler

namespace CycleSearch

variable {α : Type} [DecidableEq α]

theorem mem_finishing {next : α → List α} {unseen stack finished : List α} {node : α}
    (h : node ∈ stack ∨ node ∈ finished) : node ∈ finishing next unseen stack finished := by
  induction unseen, stack, finished using finishing.induct next with
  | case1 unseen finished =>
      rw [finishing]
      exact h.resolve_left List.not_mem_nil
  | case2 unseen finished top rest htop unseen' ih =>
      rw [finishing, if_pos htop]
      refine ih (h.imp_left fun hmem => ?_)
      exact List.mem_append_right _ hmem
  | case3 unseen finished top rest htop ih =>
      rw [finishing, if_neg htop]
      refine ih ?_
      rcases h with hmem | hmem
      · rcases List.mem_cons.mp hmem with rfl | hmem
        · right
          split
          · assumption
          · exact List.mem_cons_self
        · exact .inl hmem
      · right
        split
        · exact hmem
        · exact List.mem_cons_of_mem _ hmem

theorem reached_of_seen {previous : α → List α} {unseen : List α} {start : α} (h : start ∉ unseen) :
    reached previous unseen [start] = ([], unseen) := by
  rw [reached, if_neg h, reached]

-- A walk that finds nothing new has nowhere to go.
theorem not_mem_of_reached_nil {previous : α → List α} {unseen stack : List α}
    (h : (reached previous unseen stack).1 = []) : ∀ node ∈ stack, node ∉ unseen := by
  induction stack with
  | nil => simp
  | cons top rest ih =>
      rw [reached] at h
      split at h
      · cases h
      · rename_i htop
        exact List.forall_mem_cons.mpr ⟨htop, ih h⟩

-- From an unseen start the walk finds at least the start. Where it finds no more, all that
-- the start waits for has been seen before.
theorem reached_single {previous : α → List α} {unseen : List α} {start : α} (h : start ∈ unseen)
    (hsingle : ∀ first second rest, (reached previous unseen [start]).1 ≠ first :: second :: rest) :
    (reached previous unseen [start]).2 = unseen.erase start ∧
      ∀ node ∈ previous start, node ∉ unseen.erase start := by
  rw [reached, if_pos h] at hsingle ⊢
  simp only [List.append_nil] at hsingle ⊢
  have hnone : (reached previous (unseen.erase start)
      ((previous start).filter (· ∈ unseen.erase start)).reverse).1 = [] := by
    cases hfound : (reached previous (unseen.erase start)
        ((previous start).filter (· ∈ unseen.erase start)).reverse).1 with
    | nil => rfl
    | cons second rest => exact absurd (congrArg (start :: ·) hfound) (hsingle start second rest)
  have hseen (node : α) (hnode : node ∈ previous start) : node ∉ unseen.erase start := by
    intro hunseen
    refine not_mem_of_reached_nil hnone node ?_ hunseen
    rw [List.mem_reverse, List.mem_filter]
    exact ⟨hnode, decide_eq_true hunseen⟩
  refine ⟨?_, hseen⟩
  have hempty : (previous start).filter (· ∈ unseen.erase start) = [] := by
    rw [List.filter_eq_nil_iff]
    intro node hnode
    simpa using hseen node hnode
  rw [hempty, List.reverse_nil, reached]

theorem companion?_cons_eq_none {previous : α → List α} {unseen rest : List α} {start : α}
    (h : companion? previous unseen (start :: rest) = none) :
    (∀ first second more, (reached previous unseen [start]).1 ≠ first :: second :: more) ∧
      companion? previous (reached previous unseen [start]).2 rest = none := by
  rw [companion?] at h
  split at h
  · cases h
  · rename_i found left hshort heq
    rw [heq]
    exact ⟨hshort, h⟩

-- If no walk finds two nodes, the starts come in an order in which no node waits for a
-- later one.
theorem idxOf_lt_of_companion?_eq_none {previous : α → List α} {unseen starts : List α}
    (h : companion? previous unseen starts = none) {node other : α} (hstart : node ∈ starts)
    (hnode : node ∈ unseen) (hother : other ∈ unseen) (hwaits : other ∈ previous node)
    (hne : other ≠ node) : starts.idxOf other < starts.idxOf node := by
  induction starts generalizing unseen with
  | nil => cases hstart
  | cons start rest ih =>
      obtain ⟨hsingle, hrest⟩ := companion?_cons_eq_none h
      by_cases hunseen : start ∈ unseen
      · obtain ⟨hleft, hseen⟩ := reached_single hunseen hsingle
        rw [hleft] at hrest
        by_cases hself : node = start
        · subst hself
          exact absurd ((List.mem_erase_of_ne hne).mpr hother) (hseen other hwaits)
        · have hlater : node ∈ rest := (List.mem_cons.mp hstart).resolve_left hself
          rw [List.idxOf_cons_ne _ (Ne.symm hself)]
          by_cases hfirst : other = start
          · rw [hfirst, List.idxOf_cons_self]
            exact Nat.succ_pos _
          · rw [List.idxOf_cons_ne _ (Ne.symm hfirst)]
            exact Nat.succ_lt_succ (ih hrest hlater ((List.mem_erase_of_ne hself).mpr hnode)
              ((List.mem_erase_of_ne hfirst).mpr hother))
      · rw [reached_of_seen hunseen] at hrest
        have hself : node ≠ start := fun heq => hunseen (heq ▸ hnode)
        have hfirst : other ≠ start := fun heq => hunseen (heq ▸ hother)
        have hlater : node ∈ rest := (List.mem_cons.mp hstart).resolve_left hself
        rw [List.idxOf_cons_ne _ (Ne.symm hself), List.idxOf_cons_ne _ (Ne.symm hfirst)]
        exact Nat.succ_lt_succ (ih hrest hlater hnode hother)

-- Where no cycle is found, the nodes can be numbered so that each waits for smaller
-- ones only.
theorem exists_rank_of_onCycle?_eq_none {next previous : α → List α} {nodes : List α}
    (h : onCycle? next previous nodes = none) :
    ∃ rank : α → Nat, ∀ node ∈ nodes, ∀ other ∈ nodes, other ∈ previous node → other ≠ node →
      rank other < rank node :=
  ⟨(finishing next nodes nodes []).idxOf, fun _ hnode _ hother hwaits hne =>
    idxOf_lt_of_companion?_eq_none h (mem_finishing (.inl hnode)) hnode hother hwaits hne⟩

end CycleSearch

-- Every reference is to a declared task other than the one that makes it.
def Submission.Referenced (submission : Submission) : Prop :=
  ∀ task ∈ submission.tasks, ∀ name ∈ task.after,
    name ≠ task.name ∧ name ∈ submission.tasks.map (·.name)

-- Where no cycle is found, the tasks can be numbered so that each comes after smaller ones
-- only.
theorem NameGraph.exists_rank_of_cycleTask?_eq_none {submission : Submission}
    (hnames : (submission.tasks.map (·.name)).Nodup) (hreferenced : submission.Referenced)
    (h : (ofSubmission submission).cycleTask? = none) :
    ∃ rank : String → Nat, ∀ task ∈ submission.tasks, ∀ name ∈ task.after,
      rank name < rank task.name := by
  obtain ⟨rank, hrank⟩ := CycleSearch.exists_rank_of_onCycle?_eq_none h
  have hnode {name : String} (hname : name ∈ (ofSubmission submission).order) :
      name ∈ (ofSubmission submission).nodes := List.mem_eraseDups.mpr hname
  refine ⟨rank, fun task htask name hname => ?_⟩
  obtain ⟨hne, hdeclared⟩ := hreferenced task htask name hname
  refine hrank task.name (hnode (List.mem_map_of_mem htask)) name (hnode hdeclared) ?_ hne
  rw [awaited, List.mem_eraseDups, afterOf_ofSubmission hnames htask]
  exact hname

namespace Submission

variable {submission : Submission} {job : JobId} {tasks : List PlannedTask}
  (h : submission.resolve job = .ok tasks)
include h

theorem referenced_of_resolve : submission.Referenced := by
  intro task htask name hname
  have hafter := NameGraph.afterOf_ofSubmission (nodup_names_of_resolve h) htask
  obtain ⟨hne, hcontains⟩ := NameGraph.references_of_check (checkTasks_of_resolve h).2.1
    (List.mem_map_of_mem htask) (hafter ▸ hname)
  exact ⟨hne, NameGraph.declared_of_contains hcontains⟩

theorem exists_rank_of_resolve :
    ∃ rank : String → Nat, ∀ task ∈ submission.tasks, ∀ name ∈ task.after,
      rank name < rank task.name := by
  refine NameGraph.exists_rank_of_cycleTask?_eq_none (nodup_names_of_resolve h)
    (referenced_of_resolve h) ?_
  obtain ⟨-, hcheck, -⟩ := checkTasks_of_resolve h
  unfold NameGraph.check at hcheck
  obtain ⟨-, -, hnone⟩ := bind_eq_ok_iff.mp hcheck
  split at hnone
  · cases hnone
  · assumption

end Submission

end JobScheduler
