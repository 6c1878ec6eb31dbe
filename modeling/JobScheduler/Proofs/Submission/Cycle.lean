import Mathlib.Logic.Relation
import JobScheduler.Proofs.Submission.Acyclic

namespace JobScheduler

namespace CycleSearch

open Relation

variable {α : Type} [DecidableEq α] {next previous : α → List α}
  {nodes unseen stack rest finished : List α} {node : α}

def Leads (next : α → List α) (node other : α) : Prop := other ∈ next node

-- What a node of the list leads to is further back in the list or has a way to the head
-- of the list, and the same holds for all lists that are left when heads are taken off.
def Settled (next : α → List α) (finished : List α) : Prop :=
  ∀ last before, last :: before <:+ finished → ∀ node ∈ last :: before, ∀ other ∈ next node,
    other ∉ before → ReflTransGen (Leads next) other last

-- Where the first pass stands. A node that was seen and is not finished leads to all that
-- is stacked above it, and what it still has to visit is stacked above it.
structure Walking (next : α → List α) (nodes unseen stack finished : List α) : Prop where
  nodup : unseen.Nodup
  stacked : ∀ node ∈ stack, node ∈ nodes
  finished_seen : ∀ node ∈ finished, node ∉ unseen
  entered : ∀ node ∈ nodes, node ∉ unseen → node ∉ finished → node ∈ stack ∧
    (∀ other ∈ stack.takeWhile (· ≠ node), ReflTransGen (Leads next) node other) ∧
    ∀ other ∈ next node, other ∈ unseen → other ∈ stack.takeWhile (· ≠ node)
  finished_next : ∀ node ∈ finished, ∀ other ∈ next node, other ∉ unseen
  settled : Settled next finished

theorem Walking.start (hnodup : nodes.Nodup) : Walking next nodes nodes nodes [] where
  nodup := hnodup
  stacked := fun _ => id
  finished_seen := by simp
  entered := fun _ hnode hseen => absurd hnode hseen
  finished_next := by simp
  settled := by
    intro last before hsuffix
    simp at hsuffix

-- The top of the stack is seen for the first time.
theorem Walking.enter (hnext : ∀ node, ∀ other ∈ next node, other ∈ nodes)
    (h : Walking next nodes unseen (node :: rest) finished) (hunseen : node ∈ unseen) :
    Walking next nodes (unseen.erase node)
      (((next node).filter (· ∈ unseen.erase node)).reverse ++ node :: rest) finished := by
  have hkept {other : α} (hother : other ∈ unseen.erase node) : other ∈ unseen :=
    List.mem_of_mem_erase hother
  have hpushed {other : α} :
      other ∈ ((next node).filter (· ∈ unseen.erase node)).reverse ↔
        other ∈ next node ∧ other ∈ unseen.erase node := by
    simp
  have habove {other : α} (hother : other ∉ unseen.erase node) :
      (((next node).filter (· ∈ unseen.erase node)).reverse ++ node :: rest).takeWhile (· ≠ other) =
        ((next node).filter (· ∈ unseen.erase node)).reverse ++
          (node :: rest).takeWhile (· ≠ other) := by
    refine List.takeWhile_append_of_pos fun pushed hmem => ?_
    have hne : pushed ≠ other := fun heq => hother (heq ▸ (hpushed.mp hmem).2)
    simpa using hne
  refine ⟨h.nodup.erase node, ?_, fun other hother => mt hkept (h.finished_seen other hother), ?_,
    fun other hother far hfar => mt hkept (h.finished_next other hother far hfar), h.settled⟩
  · intro other hother
    rcases List.mem_append.mp hother with hpush | hold
    · exact hnext node other (hpushed.mp hpush).1
    · exact h.stacked other hold
  · intro other hother hseen hopen
    rw [habove hseen]
    by_cases hself : other = node
    · subst hself
      rw [List.takeWhile_cons_of_neg (by simp), List.append_nil]
      refine ⟨List.mem_append_right _ List.mem_cons_self, fun far hfar => ?_, fun far hfar hnew => ?_⟩
      · exact .single (hpushed.mp hfar).1
      · exact hpushed.mpr ⟨hfar, hnew⟩
    · have hbefore : other ∉ unseen := fun hmem => hseen ((List.mem_erase_of_ne hself).mpr hmem)
      obtain ⟨hstack, hleads, htodo⟩ := h.entered other hother hbefore hopen
      refine ⟨List.mem_append_right _ hstack, fun far hfar => ?_, fun far hfar hnew => ?_⟩
      · rcases List.mem_append.mp hfar with hpush | hold
        · have htop : node ∈ (node :: rest).takeWhile (· ≠ other) := by
            rw [List.takeWhile_cons_of_pos (by simpa using Ne.symm hself)]
            exact List.mem_cons_self
          exact (hleads node htop).tail (hpushed.mp hpush).1
        · exact hleads far hold
      · exact List.mem_append_right _ (htodo far hfar (hkept hnew))

theorem mem_takeWhile_of_cons {other far : α} (h : far ∈ (node :: rest).takeWhile (· ≠ other))
    (hne : far ≠ node) : far ∈ rest.takeWhile (· ≠ other) := by
  rw [List.takeWhile_cons] at h
  split at h
  · exact (List.mem_cons.mp h).resolve_left hne
  · cases h

theorem mem_takeWhile_cons_of_mem {other far : α} (hnode : node ≠ other)
    (h : far ∈ rest.takeWhile (· ≠ other)) : far ∈ (node :: rest).takeWhile (· ≠ other) := by
  rw [List.takeWhile_cons_of_pos (by simpa using hnode)]
  exact List.mem_cons_of_mem _ h

-- All that the top of the stack leads to has been seen when it comes to the top again, and
-- whoever was entered before and is not finished has a way to it.
theorem Walking.settled_cons (hnext : ∀ node, ∀ other ∈ next node, other ∈ nodes)
    (h : Walking next nodes unseen (node :: rest) finished) (hseen : node ∉ unseen)
    (hopen : node ∉ finished) :
    (∀ other ∈ next node, other ∉ unseen) ∧ Settled next (node :: finished) := by
  obtain ⟨-, -, htodo⟩ := h.entered node (h.stacked node List.mem_cons_self) hseen hopen
  rw [List.takeWhile_cons_of_neg (by simp)] at htodo
  have hdone (other : α) (hother : other ∈ next node) : other ∉ unseen := fun hnew =>
    List.not_mem_nil (htodo other hother hnew)
  refine ⟨hdone, fun last before hsuffix => ?_⟩
  rcases List.suffix_cons_iff.mp hsuffix with heq | hold
  · obtain ⟨rfl, rfl⟩ := List.cons.inj heq
    intro origin horigin other hother hlater
    by_cases hself : other = last
    · rw [hself]
    · have hother_seen : other ∉ unseen := by
        rcases List.mem_cons.mp horigin with rfl | horigin
        · exact hdone other hother
        · exact h.finished_next origin horigin other hother
      obtain ⟨-, hleads, -⟩ := h.entered other (hnext origin other hother) hother_seen hlater
      refine hleads last ?_
      rw [List.takeWhile_cons_of_pos (by simpa using Ne.symm hself)]
      exact List.mem_cons_self
  · exact h.settled last before hold

-- The top of the stack has been seen before.
theorem Walking.leave (hnext : ∀ node, ∀ other ∈ next node, other ∈ nodes)
    (h : Walking next nodes unseen (node :: rest) finished) (hseen : node ∉ unseen) :
    Walking next nodes unseen rest (if node ∈ finished then finished else node :: finished) := by
  have hentered (other : α) (hother : other ∈ nodes) (hother_seen : other ∉ unseen)
      (hopen : other ∉ finished) (hne : other ≠ node) : other ∈ rest ∧
      (∀ far ∈ rest.takeWhile (· ≠ other), ReflTransGen (Leads next) other far) ∧
      ∀ far ∈ next other, far ∈ unseen → far ∈ rest.takeWhile (· ≠ other) := by
    obtain ⟨hstack, hleads, htodo⟩ := h.entered other hother hother_seen hopen
    refine ⟨(List.mem_cons.mp hstack).resolve_left hne, fun far hfar => ?_, fun far hfar hnew => ?_⟩
    · exact hleads far (mem_takeWhile_cons_of_mem (Ne.symm hne) hfar)
    · exact mem_takeWhile_of_cons (htodo far hfar hnew) (fun heq => hseen (heq ▸ hnew))
  have hstacked (other : α) (hother : other ∈ rest) : other ∈ nodes :=
    h.stacked other (List.mem_cons_of_mem _ hother)
  split
  · rename_i hfinished
    refine ⟨h.nodup, hstacked, h.finished_seen, fun other hother hother_seen hopen => ?_,
      h.finished_next, h.settled⟩
    exact hentered other hother hother_seen hopen fun heq => hopen (heq ▸ hfinished)
  · rename_i hopen
    obtain ⟨hdone, hsettled⟩ := h.settled_cons hnext hseen hopen
    refine ⟨h.nodup, hstacked, List.forall_mem_cons.mpr ⟨hseen, h.finished_seen⟩, ?_,
      List.forall_mem_cons.mpr ⟨hdone, h.finished_next⟩, hsettled⟩
    intro other hother hother_seen hstill
    obtain ⟨hne, hstill⟩ := not_or.mp (mt List.mem_cons.mpr hstill)
    exact hentered other hother hother_seen hstill hne

theorem settled_finishing (hnext : ∀ node, ∀ other ∈ next node, other ∈ nodes)
    (h : Walking next nodes unseen stack finished) :
    Settled next (finishing next unseen stack finished) := by
  induction unseen, stack, finished using finishing.induct next with
  | case1 unseen finished =>
      rw [finishing]
      exact h.settled
  | case2 unseen finished top rest htop unseen' ih =>
      rw [finishing, if_pos htop]
      exact ih (h.enter hnext htop)
  | case3 unseen finished top rest htop ih =>
      rw [finishing, if_neg htop]
      exact ih (h.leave hnext htop)

theorem nodup_finishing (h : finished.Nodup) : (finishing next unseen stack finished).Nodup := by
  induction unseen, stack, finished using finishing.induct next with
  | case1 unseen finished =>
      rw [finishing]
      exact h
  | case2 unseen finished top rest htop unseen' ih =>
      rw [finishing, if_pos htop]
      exact ih h
  | case3 unseen finished top rest htop ih =>
      rw [finishing, if_neg htop]
      refine ih ?_
      split
      · exact h
      · rename_i hopen
        exact List.nodup_cons.mpr ⟨hopen, h⟩

-- A walk takes what it finds out of the unseen nodes.
theorem perm_reached (previous : α → List α) (unseen stack : List α) :
    ((reached previous unseen stack).1 ++ (reached previous unseen stack).2).Perm unseen := by
  induction unseen, stack using reached.induct previous with
  | case1 unseen =>
      rw [reached]
      exact .refl _
  | case2 unseen top rest htop unseen' found left heq ih =>
      rw [reached, if_pos htop]
      exact (ih.cons top).trans (List.perm_cons_erase htop).symm
  | case3 unseen top rest htop ih =>
      rw [reached, if_neg htop]
      exact ih

-- What holds of the unseen nodes on the stack and passes on to the unseen nodes before a
-- node holds of all that a walk finds.
theorem forall_mem_reached {P : α → Prop} (hstack : ∀ node ∈ stack, node ∈ unseen → P node)
    (hstep : ∀ node ∈ unseen, P node → ∀ other ∈ previous node, other ∈ unseen → P other) :
    ∀ node ∈ (reached previous unseen stack).1, P node := by
  induction unseen, stack using reached.induct previous with
  | case1 unseen =>
      rw [reached]
      simp
  | case2 unseen top rest htop unseen' found left heq ih =>
      rw [reached, if_pos htop]
      have hkept {other : α} (hother : other ∈ unseen.erase top) : other ∈ unseen :=
        List.mem_of_mem_erase hother
      have hfirst := hstack top List.mem_cons_self htop
      refine List.forall_mem_cons.mpr ⟨hfirst, ih (fun node hnode hnew => ?_) fun node hnode hP other
        hother hnew => hstep node (hkept hnode) hP other hother (hkept hnew)⟩
      rcases List.mem_append.mp hnode with hpushed | hold
      · rw [List.mem_reverse, List.mem_filter] at hpushed
        exact hstep top htop hfirst node hpushed.1 (hkept hnew)
      · exact hstack node (List.mem_cons_of_mem _ hold) (hkept hnew)
  | case3 unseen top rest htop ih =>
      rw [reached, if_neg htop]
      exact ih (fun node hnode => hstack node (List.mem_cons_of_mem _ hnode)) hstep

theorem reached_eq_cons (previous : α → List α) {start : α} (h : start ∈ unseen) :
    ∃ more, (reached previous unseen [start]).1 = start :: more := by
  rw [reached, if_pos h]
  exact ⟨_, rfl⟩

section Backwards

variable {start : α} (hprevious : ∀ node ∈ unseen, ∀ other ∈ previous node, node ∈ next other)
include hprevious

-- A walk backwards from the node that was finished last stays among those that the start
-- has a way to. What carries over an edge is that the start has a way to all the nodes
-- that were finished after the one at hand, and the edge covers those between its ends.
theorem reflTransGen_of_mem_reached (hsettled : Settled next (start :: rest))
    (hnodup : (start :: rest).Nodup) (hunseen : ∀ node ∈ unseen, node ∈ start :: rest) :
    ∀ node ∈ (reached previous unseen [start]).1,
      ReflTransGen (Leads next) node start ∧ ReflTransGen (Leads next) start node := by
  have hwalk : ∀ node ∈ (reached previous unseen [start]).1,
      ReflTransGen (Leads next) node start ∧
        ∀ last before, last :: before <:+ start :: rest → node ∈ last :: before →
          ReflTransGen (Leads next) start last := by
    refine forall_mem_reached (fun node hnode _ => ?_) fun node hnode hfound other hother hnew => ?_
    · obtain rfl := List.mem_singleton.mp hnode
      refine ⟨.refl, fun last before hsuffix hmem => ?_⟩
      rcases List.suffix_cons_iff.mp hsuffix with heq | hlater
      · rw [(List.cons.inj heq).1]
      · exact absurd (hlater.subset hmem) (List.nodup_cons.mp hnodup).1
    · obtain ⟨hback, hbetween⟩ := hfound
      have hedge : Leads next other node := hprevious node hnode other hother
      refine ⟨.head hedge hback, fun last before hsuffix hmem => ?_⟩
      by_cases hcovered : node ∈ before
      · exact hbetween last before hsuffix (List.mem_cons_of_mem _ hcovered)
      · obtain ⟨front, back, hsplit⟩ := List.append_of_mem (hunseen node hnode)
        have hthere := hbetween node back ⟨front, hsplit.symm⟩ List.mem_cons_self
        exact hthere.trans (hsettled last before hsuffix other hmem node hedge hcovered)
  intro node hnode
  have hmem := (perm_reached previous unseen [start]).subset (List.mem_append_left _ hnode)
  obtain ⟨front, back, hsplit⟩ := List.append_of_mem (hunseen node hmem)
  obtain ⟨hback, hbetween⟩ := hwalk node hnode
  exact ⟨hback, hbetween node back ⟨front, hsplit.symm⟩ List.mem_cons_self⟩

-- A walk that finds two nodes has found a cycle through both.
theorem transGen_of_reached (hsettled : Settled next (start :: rest)) (hnodup : (start :: rest).Nodup)
    (hfresh : unseen.Nodup) (hunseen : ∀ node ∈ unseen, node ∈ start :: rest) {first second : α}
    {more : List α} (h : (reached previous unseen [start]).1 = first :: second :: more) :
    TransGen (Leads next) second second := by
  have hways := reflTransGen_of_mem_reached hprevious hsettled hnodup hunseen
  have hfound := (List.nodup_append.mp
    ((perm_reached previous unseen [start]).nodup_iff.mpr hfresh)).1
  have hstart : start ∈ unseen := by
    by_contra hseen
    rw [reached_of_seen hseen] at h
    cases h
  obtain ⟨others, hcons⟩ := reached_eq_cons previous hstart
  rw [h] at hways hfound hcons
  obtain ⟨rfl, rfl⟩ := List.cons.inj hcons
  obtain ⟨hback, hforth⟩ := hways second (by simp)
  rcases reflTransGen_iff_eq_or_transGen.mp hback with heq | hback
  · simp [heq] at hfound
  · exact hback.trans_left hforth

end Backwards

theorem transGen_of_companion?_eq_some {starts : List α}
    (hprevious : ∀ node ∈ unseen, ∀ other ∈ previous node, node ∈ next other)
    (hsettled : Settled next starts) (hnodup : starts.Nodup) (hfresh : unseen.Nodup)
    (hunseen : ∀ node ∈ unseen, node ∈ starts) (h : companion? previous unseen starts = some node) :
    TransGen (Leads next) node node := by
  induction starts generalizing unseen with
  | nil => cases h
  | cons start rest ih =>
      rw [companion?] at h
      split at h
      · rename_i first second more left heq
        obtain rfl := Option.some.inj h
        exact transGen_of_reached hprevious hsettled hnodup hfresh hunseen (congrArg Prod.fst heq)
      · rename_i found left hshort heq
        have hperm := perm_reached previous unseen [start]
        have hleft : ∀ other ∈ left, other ∈ unseen := by
          intro other hother
          rw [heq] at hperm
          exact hperm.subset (List.mem_append_right _ hother)
        have hstart : start ∉ left := by
          intro hmem
          obtain ⟨more, hcons⟩ := reached_eq_cons previous (hleft start hmem)
          have hall := hperm.nodup_iff.mpr hfresh
          rw [hcons, heq] at hall
          exact (List.nodup_cons.mp hall).1 (List.mem_append_right _ hmem)
        refine ih (fun other hother => hprevious other (hleft other hother)) ?_
          (List.nodup_cons.mp hnodup).2 ?_ (fun other hother => ?_) h
        · exact fun last before hsuffix => hsettled last before (hsuffix.trans (List.suffix_cons _ _))
        · rw [heq] at hperm
          exact (List.nodup_append.mp (hperm.nodup_iff.mpr hfresh)).2.1
        · refine (List.mem_cons.mp (hunseen other (hleft other hother))).resolve_left ?_
          rintro rfl
          exact hstart hother

-- The node that the search names has a way back to itself.
theorem transGen_of_onCycle?_eq_some (hnext : ∀ node, ∀ other ∈ next node, other ∈ nodes)
    (hprevious : ∀ node ∈ nodes, ∀ other ∈ previous node, node ∈ next other) (hnodup : nodes.Nodup)
    (h : onCycle? next previous nodes = some node) : TransGen (Leads next) node node :=
  transGen_of_companion?_eq_some hprevious (settled_finishing hnext (.start hnodup))
    (nodup_finishing List.nodup_nil) hnodup (fun _ hmem => mem_finishing (.inl hmem)) h

end CycleSearch

namespace Submission

open Relation

-- The task of the first name lists the second.
def ComesAfter (submission : Submission) (name other : String) : Prop :=
  ∃ task ∈ submission.tasks, task.name = name ∧ other ∈ task.after

def Acyclic (submission : Submission) : Prop :=
  ∀ name, ¬ TransGen submission.ComesAfter name name

theorem acyclic_of_rank {submission : Submission} {rank : String → Nat}
    (h : ∀ task ∈ submission.tasks, ∀ name ∈ task.after, rank name < rank task.name) :
    submission.Acyclic := by
  have hsmaller {name other : String} (hway : TransGen submission.ComesAfter name other) :
      rank other < rank name := by
    induction hway with
    | single hedge =>
        obtain ⟨task, htask, rfl, hafter⟩ := hedge
        exact h task htask _ hafter
    | tail _ hedge ih =>
        obtain ⟨task, htask, rfl, hafter⟩ := hedge
        exact Nat.lt_trans (h task htask _ hafter) ih
  exact fun name hcycle => Nat.lt_irrefl _ (hsmaller hcycle)

end Submission

namespace NameGraph

open Relation

theorem eraseDups_of_nodup {names : List String} (h : names.Nodup) : names.eraseDups = names := by
  induction names with
  | nil => rfl
  | cons name rest ih =>
      obtain ⟨hname, hrest⟩ := List.nodup_cons.mp h
      have hfilter : rest.filter (fun other => !other == name) = rest := by
        refine List.filter_eq_self.mpr fun other hother => ?_
        have hne : other ≠ name := fun heq => hname (heq ▸ hother)
        simpa using hne
      rw [List.eraseDups_cons, hfilter, ih hrest]

theorem checkReference_eq_ok_iff {graph : NameGraph} {job name dependency : String} :
    graph.checkReference job name dependency = .ok () ↔
      dependency ≠ name ∧ graph.links.contains dependency := by
  unfold checkReference
  by_cases hself : dependency = name <;> simp [hself]

theorem kind_of_checkReference {graph : NameGraph} {job name dependency : String} {fault : Fault}
    (h : graph.checkReference job name dependency = .error fault) : fault.kind = .configuration := by
  unfold checkReference at h
  split at h
  · cases h
    rfl
  · split at h
    · cases h
      rfl
    · cases h

section Check

variable {submission : Submission} (hnames : (submission.tasks.map (·.name)).Nodup)
include hnames

theorem contains_of_declared {task : Submission.Task} (h : task ∈ submission.tasks) :
    (ofSubmission submission).links.contains task.name := by
  have hafter : Links.afterOf (ofSubmission submission).links task.name = some task.after := by
    rw [ofSubmission, afterOf_foldl_link]
    exact afterOf_foldl_declare_of_mem hnames h _
  unfold Links.afterOf at hafter
  cases hfind : (ofSubmission submission).links.find? task.name with
  | none => simp [hfind] at hafter
  | some entry => simp [SortedMap.contains, hfind]

theorem comesAfter_of_mem {name other : String} (hname : name ∈ (ofSubmission submission).order)
    (h : other ∈ (ofSubmission submission).dependenciesOf name) :
    submission.ComesAfter name other := by
  obtain ⟨task, htask, rfl⟩ := List.mem_map.mp hname
  exact ⟨task, htask, rfl, afterOf_ofSubmission hnames htask ▸ h⟩

-- The task that is named when a cycle is found comes after itself.
theorem transGen_of_cycleTask?_eq_some {name : String}
    (h : (ofSubmission submission).cycleTask? = some name) :
    TransGen submission.ComesAfter name name := by
  have hcycle : TransGen (CycleSearch.Leads (ofSubmission submission).waiting) name name := by
    refine CycleSearch.transGen_of_onCycle?_eq_some (fun node other hother => ?_)
      (fun node hnode other hother => ?_) ?_ h
    · exact List.mem_of_mem_filter hother
    · rw [awaited, List.mem_eraseDups] at hother
      exact List.mem_filter.mpr ⟨hnode, decide_eq_true hother⟩
    · have horder : (ofSubmission submission).order.Nodup := hnames
      rw [nodes, eraseDups_of_nodup horder]
      exact horder
  refine transGen_swap.mp (TransGen.mono (fun node other hleads => ?_) _ _ hcycle)
  obtain ⟨hother, hwaits⟩ := List.mem_filter.mp hleads
  exact comesAfter_of_mem hnames (List.mem_eraseDups.mp hother) (of_decide_eq_true hwaits)

theorem cycleTask?_eq_none_iff (hreferenced : submission.Referenced) :
    (ofSubmission submission).cycleTask? = none ↔ submission.Acyclic := by
  constructor
  · intro hnone
    obtain ⟨rank, hrank⟩ := exists_rank_of_cycleTask?_eq_none hnames hreferenced hnone
    exact Submission.acyclic_of_rank hrank
  · intro hacyclic
    rw [Option.eq_none_iff_forall_ne_some]
    exact fun name hsome => hacyclic name (transGen_of_cycleTask?_eq_some hnames hsome)

theorem checkReferences_eq_ok_iff {job : String} :
    ((ofSubmission submission).order.forM fun name =>
      ((ofSubmission submission).dependenciesOf name).forM
        ((ofSubmission submission).checkReference job name)) = .ok () ↔ submission.Referenced := by
  simp only [forM_eq_ok_iff, checkReference_eq_ok_iff]
  constructor
  · intro h task htask name hname
    obtain ⟨hne, hcontains⟩ := h task.name (List.mem_map_of_mem htask) name
      (afterOf_ofSubmission hnames htask ▸ hname)
    exact ⟨hne, declared_of_contains hcontains⟩
  · intro h name hname other hother
    obtain ⟨task, htask, rfl, hafter⟩ := comesAfter_of_mem hnames hname hother
    obtain ⟨hne, hdeclared⟩ := h task htask other hafter
    obtain ⟨declared, hmem, rfl⟩ := List.mem_map.mp hdeclared
    exact ⟨hne, contains_of_declared hnames hmem⟩

-- A cycle is looked for where all references are right.
theorem check_of_referenced (h : submission.Referenced) (job : String) :
    (ofSubmission submission).check job =
      match (ofSubmission submission).cycleTask? with
      | some task => .error (.cycle job task)
      | none => .ok () := by
  rw [check, (checkReferences_eq_ok_iff hnames).mpr h]
  cases (ofSubmission submission).cycleTask? <;> rfl

theorem exists_error_of_not_referenced (h : ¬ submission.Referenced) (job : String) :
    ∃ fault, (ofSubmission submission).check job = .error fault ∧ fault.kind = .configuration := by
  cases hreferences : (ofSubmission submission).order.forM fun name =>
      ((ofSubmission submission).dependenciesOf name).forM
        ((ofSubmission submission).checkReference job name) with
  | ok value => exact absurd ((checkReferences_eq_ok_iff hnames).mp hreferences) h
  | error fault =>
      refine ⟨fault, by rw [check, hreferences]; rfl, ?_⟩
      obtain ⟨name, -, hname⟩ := exists_of_forM_eq_error hreferences
      obtain ⟨dependency, -, hdependency⟩ := exists_of_forM_eq_error hname
      exact kind_of_checkReference hdependency

theorem check_eq_ok_iff {job : String} :
    (ofSubmission submission).check job = .ok () ↔ submission.Referenced ∧ submission.Acyclic := by
  by_cases hreferenced : submission.Referenced
  · rw [check_of_referenced hnames hreferenced, ← cycleTask?_eq_none_iff hnames hreferenced]
    cases (ofSubmission submission).cycleTask? <;> simp [hreferenced]
  · obtain ⟨fault, hfault, -⟩ := exists_error_of_not_referenced hnames hreferenced job
    simp [hfault, hreferenced]

-- What the check of a name graph makes of a job whose tasks have distinct names: it passes
-- exactly where all references are right and no task comes after itself, on any way. Where
-- the references are right and a task does, it reports a cycle, through a task that is on one.
theorem check_exact (job : String) :
    ((ofSubmission submission).check job = .ok () ↔ submission.Referenced ∧ submission.Acyclic) ∧
    ((∃ fault, (ofSubmission submission).check job = .error fault ∧ fault.kind = .cycle) ↔
      submission.Referenced ∧ ¬ submission.Acyclic) ∧
    ∀ fault, (ofSubmission submission).check job = .error fault → fault.kind = .cycle →
      ∃ task, fault = .cycle job task ∧ TransGen submission.ComesAfter task task := by
  refine ⟨check_eq_ok_iff hnames, ?_⟩
  by_cases hreferenced : submission.Referenced
  · have hexact := cycleTask?_eq_none_iff hnames hreferenced
    rw [check_of_referenced hnames hreferenced]
    cases hcycle : (ofSubmission submission).cycleTask? with
    | none => simp [hexact.mp hcycle]
    | some task =>
        have hway := transGen_of_cycleTask?_eq_some hnames hcycle
        have hcyclic : ¬ submission.Acyclic := fun hacyclic => hacyclic task hway
        refine ⟨⟨fun _ => ⟨hreferenced, hcyclic⟩, fun _ => ⟨_, rfl, rfl⟩⟩, fun fault hfault _ => ?_⟩
        exact ⟨task, (Except.error.inj hfault).symm, hway⟩
  · obtain ⟨fault, hfault, hkind⟩ := exists_error_of_not_referenced hnames hreferenced job
    have hother {found : Fault} (hfound : (ofSubmission submission).check job = .error found) :
        found.kind ≠ .cycle := by
      rw [hfault] at hfound
      rw [← Except.error.inj hfound, hkind]
      decide
    refine ⟨⟨fun ⟨found, hfound, hcycle⟩ => ?_, fun h => absurd h.1 hreferenced⟩, ?_⟩
    · exact absurd hcycle (hother hfound)
    · exact fun found hfound hcycle => absurd hcycle (hother hfound)

end Check

-- Three tasks in a ring, between one before and one after it.
def ring : Submission :=
  ⟨"ring", .normal, .taskFlow, false, false,
    [⟨"first", "true", [], 1, false, 1⟩, ⟨"a", "true", ["first", "c"], 1, false, 1⟩,
      ⟨"b", "true", ["a", "a"], 1, false, 1⟩, ⟨"c", "true", ["b"], 1, false, 1⟩,
      ⟨"last", "true", ["c"], 1, false, 1⟩]⟩

theorem check_exact_ring :
    (ring.tasks.map (·.name)).Nodup ∧ ring.Referenced ∧ ¬ ring.Acyclic ∧
      ∃ task, (ofSubmission ring).check "ring" = .error (.cycle "ring" task) ∧
        TransGen ring.ComesAfter task task := by
  have hnames : (ring.tasks.map (·.name)).Nodup := by decide
  obtain ⟨-, hcycle, hnamed⟩ := check_exact hnames "ring"
  have hreferenced : ring.Referenced := by
    simp [Submission.Referenced, ring]
  have hcyclic : ¬ ring.Acyclic := by
    intro hacyclic
    have hedges : ring.ComesAfter "a" "c" ∧ ring.ComesAfter "c" "b" ∧ ring.ComesAfter "b" "a" := by
      simp [Submission.ComesAfter, ring]
    exact hacyclic "a" (.head hedges.1 (.head hedges.2.1 (.single hedges.2.2)))
  obtain ⟨fault, hfault, hkind⟩ := hcycle.mpr ⟨hreferenced, hcyclic⟩
  obtain ⟨task, rfl, hway⟩ := hnamed fault hfault hkind
  exact ⟨hnames, hreferenced, hcyclic, task, hfault, hway⟩

end NameGraph

end JobScheduler
