import Mathlib.Data.List.Induction
import Mathlib.Data.List.Nodup
import JobScheduler.Proofs.SortedMap
import JobScheduler.ReadyQueue

namespace JobScheduler

-- In the order of service higher priorities come first, and lower ids among equals.
theorem ServiceKey.compare_eq_lt_iff (a b : ServiceKey) :
    compare a b = .lt ↔
      b.priority.rank < a.priority.rank ∨ a.priority = b.priority ∧ a.job.number < b.job.number := by
  have hjob : compare a.job.number b.job.number = .lt ↔ a.job.number < b.job.number := Std.compare_eq_lt
  change (compare a.rank b.rank).then (compare a.job.number b.job.number) = .lt ↔ _
  rw [Ordering.then_eq_lt, hjob]
  simp only [rank]
  cases a.priority <;> cases b.priority <;> simp [Priority.rank, Nat.compare_eq_lt]

namespace ReadyQueue

-- The entries are those under the keys kept beside, one for each job.
structure Keyed (queue : ReadyQueue) : Prop where
  entry : ∀ id key, queue.keys.find? id = some key → key.job = id ∧ queue.ordered.member key
  key : ∀ key, queue.ordered.member key → queue.keys.find? key.job = some key

theorem keyed_empty : empty.Keyed where
  entry id key h := by cases h
  key key h := by cases h

theorem keys_remove (queue : ReadyQueue) (job id : JobId) :
    (queue.remove job).keys.find? id = if id = job then none else queue.keys.find? id := by
  unfold remove
  split
  · exact SortedMap.find?_erase queue.keys job id
  · rename_i hnone
    split
    · rename_i heq
      rw [heq, hnone]
    · rfl

-- The key of a job says what its board said last.
theorem keys_refresh (queue : ReadyQueue) (board : Board) (id : JobId) :
    (queue.refresh board).keys.find? id =
      if id = board.job then (if board.hasEligible then some board.serviceKey else none)
      else queue.keys.find? id := by
  unfold refresh
  dsimp only
  split
  · rw [SortedMap.find?_insert, keys_remove]
    split <;> rfl
  · rw [keys_remove]

variable {queue : ReadyQueue} (hq : queue.Keyed)
include hq

theorem Keyed.mem_ordered_iff {key : ServiceKey} :
    key ∈ queue.ordered.toList ↔ queue.keys.find? key.job = some key := by
  rw [SortedSet.mem_toList_iff]
  exact ⟨hq.key key, fun hkey => (hq.entry key.job key hkey).2⟩

theorem mem_toList_iff {id : JobId} : id ∈ queue.toList ↔ (queue.keys.find? id).isSome := by
  constructor
  · intro h
    obtain ⟨key, hkey, rfl⟩ := List.mem_map.mp h
    rw [hq.key key (SortedSet.mem_toList_iff.mp hkey)]
    rfl
  · intro h
    obtain ⟨key, hkey⟩ := Option.isSome_iff_exists.mp h
    obtain ⟨rfl, hmember⟩ := hq.entry id key hkey
    exact List.mem_map_of_mem (SortedSet.mem_toList_iff.mpr hmember)

theorem nodup_toList : queue.toList.Nodup := by
  refine List.Nodup.map_on ?_ (SortedSet.nodup_toList queue.ordered)
  intro a ha b hb heq
  have hkey := hq.key a (SortedSet.mem_toList_iff.mp ha)
  rw [heq, hq.key b (SortedSet.mem_toList_iff.mp hb)] at hkey
  exact (Option.some.inj hkey).symm

theorem Keyed.remove (job : JobId) : (queue.remove job).Keyed := by
  unfold ReadyQueue.remove
  split
  · rename_i key hkey
    obtain ⟨rfl, -⟩ := hq.entry job key hkey
    refine ⟨fun id other hother => ?_, fun other hother => ?_⟩
    · rw [SortedMap.find?_erase] at hother
      split at hother
      · cases hother
      · rename_i hne
        obtain ⟨hjob, hmember⟩ := hq.entry id other hother
        refine ⟨hjob, SortedSet.member_erase.mpr ⟨?_, hmember⟩⟩
        rintro rfl
        exact hne hjob.symm
    · obtain ⟨hne, hmember⟩ := SortedSet.member_erase.mp hother
      have hfind := hq.key other hmember
      rw [SortedMap.find?_erase, if_neg, hfind]
      intro hjob
      rw [hjob, hkey] at hfind
      exact hne (Option.some.inj hfind).symm
  · exact hq

theorem Keyed.refresh (board : Board) : (queue.refresh board).Keyed := by
  have hremoved := hq.remove board.job
  unfold ReadyQueue.refresh
  dsimp only
  split
  · refine ⟨fun id key hkey => ?_, fun key hmember => ?_⟩
    · rw [SortedMap.find?_insert] at hkey
      split at hkey
      · rename_i heq
        cases hkey
        exact ⟨heq.symm, SortedSet.member_add.mpr (.inl rfl)⟩
      · obtain ⟨hjob, hmember⟩ := hremoved.entry id key hkey
        exact ⟨hjob, SortedSet.member_add.mpr (.inr hmember)⟩
    · rw [SortedMap.find?_insert]
      rcases SortedSet.member_add.mp hmember with rfl | hmember
      · exact if_pos rfl
      · have hfind := hremoved.key key hmember
        rw [keys_remove] at hfind
        split at hfind
        · cases hfind
        · rename_i hne
          rw [if_neg hne, keys_remove, if_neg hne, hfind]
  · exact hremoved

-- The keys kept beside tell the whole queue.
theorem Keyed.ext {other : ReadyQueue} (ho : other.Keyed)
    (h : ∀ id, queue.keys.find? id = other.keys.find? id) : queue = other := by
  have hkeys : queue.keys = other.keys := SortedMap.ext_find? h
  have hordered : queue.ordered = other.ordered := by
    refine SortedSet.ext_toList (SortedMap.eq_of_increasing_of_mem_iff
      queue.ordered.toList_increasing other.ordered.toList_increasing fun key => ?_)
    rw [hq.mem_ordered_iff, ho.mem_ordered_iff, h]
  obtain ⟨ordered, keys⟩ := queue
  obtain ⟨ordered', keys'⟩ := other
  obtain rfl : ordered = ordered' := hordered
  obtain rfl : keys = keys' := hkeys
  rfl

-- The ordered entries are those kept beside.
theorem Keyed.perm : queue.ordered.toList.Perm queue.keys.values := by
  have hjobs : queue.keys.values.map ServiceKey.job = queue.keys.keys := by
    rw [SortedMap.values, SortedMap.keys, List.map_map]
    refine List.map_congr_left fun entry hentry => ?_
    exact (hq.entry entry.1 entry.2 (SortedMap.mem_entries_iff.mp hentry)).1
  have hnodup : queue.keys.values.Nodup := by
    refine List.Nodup.of_map ServiceKey.job ?_
    rw [hjobs]
    exact SortedMap.nodup_keys queue.keys
  refine (List.perm_ext_iff_of_nodup (SortedSet.nodup_toList queue.ordered) hnodup).mpr fun key => ?_
  rw [hq.mem_ordered_iff, SortedMap.values, List.mem_map]
  constructor
  · exact fun hkey => ⟨(key.job, key), SortedMap.mem_entries_iff.mpr hkey, rfl⟩
  · rintro ⟨⟨id, key⟩, hentry, rfl⟩
    have hkey : queue.keys.find? id = some key := SortedMap.mem_entries_iff.mp hentry
    rwa [(hq.entry id key hkey).1]

omit hq

-- What is done to a queue.
inductive Call
  | refresh (board : Board)
  | remove (job : JobId)

def Call.job : Call → JobId
  | .refresh board => board.job
  | .remove job => job

-- The board that a call shows, if there is something to start on it.
def Call.offer? : Call → Option Board
  | .refresh board => if board.hasEligible then some board else none
  | .remove _ => none

def perform (queue : ReadyQueue) : Call → ReadyQueue
  | .refresh board => queue.refresh board
  | .remove job => queue.remove job

def after (calls : List Call) : ReadyQueue := calls.foldl perform empty

-- The board that the last call about a job has shown.
def standing? (calls : List Call) (id : JobId) : Option Board :=
  (calls.filter (·.job == id)).getLast?.bind Call.offer?

theorem after_concat (calls : List Call) (call : Call) :
    after (calls ++ [call]) = (after calls).perform call := by
  rw [after, List.foldl_append]
  rfl

theorem standing?_concat (calls : List Call) (call : Call) (id : JobId) :
    standing? (calls ++ [call]) id = if id = call.job then call.offer? else standing? calls id := by
  rw [standing?, List.filter_append]
  by_cases h : id = call.job
  · simp [h]
  · simp [h, Ne.symm h, standing?]

theorem keyed_after (calls : List Call) : (after calls).Keyed := by
  induction calls using List.reverseRecOn with
  | nil => exact keyed_empty
  | append_singleton calls call ih =>
      rw [after_concat]
      cases call with
      | refresh board => exact ih.refresh board
      | remove job => exact ih.remove job

-- The key of a job is that of the board shown last.
theorem keys_after (calls : List Call) (id : JobId) :
    (after calls).keys.find? id = (standing? calls id).map Board.serviceKey := by
  induction calls using List.reverseRecOn with
  | nil => rfl
  | append_singleton calls call ih =>
      rw [after_concat, standing?_concat]
      cases call with
      | refresh board =>
          rw [perform, keys_refresh, ih, Call.job, Call.offer?]
          by_cases h : id = board.job <;> cases board.hasEligible <;> simp [h]
      | remove job =>
          rw [perform, keys_remove, ih, Call.job, Call.offer?]
          by_cases h : id = job <;> simp [h]

-- A queue lists the jobs that were shown with something to start, in the order of service
-- by the priorities with which they were shown last.
structure Lists (queue : ReadyQueue) (shown? : JobId → Option Board) : Prop where
  entries : queue.ordered.toList.Perm queue.keys.values
  keyed : ∀ id key, queue.keys.find? id = some key → key.job = id
  mem_iff : ∀ id, id ∈ queue.toList ↔ (shown? id).isSome
  nodup : queue.toList.Nodup
  sorted : queue.toList.Pairwise fun a b => ∀ first second, shown? a = some first → shown? b = some second →
    second.priority.rank < first.priority.rank ∨
      first.priority = second.priority ∧ a.number < b.number
  first : queue.first? = queue.toList.head?
  size : queue.size = queue.toList.length
  isEmpty : queue.isEmpty = queue.toList.isEmpty
  contains : ∀ id, queue.contains id ↔ id ∈ queue.toList

-- Whatever is done to an empty queue, its two parts hold the same entries, one for each job
-- that had something to start when it was last seen and was not removed since.
theorem lists_after (calls : List Call) : (after calls).Lists (standing? calls) := by
  have hkeyed := keyed_after calls
  have hmem (id : JobId) : id ∈ (after calls).toList ↔ ((after calls).keys.find? id).isSome :=
    mem_toList_iff hkeyed
  constructor
  case entries => exact hkeyed.perm
  case keyed => exact fun id key hkey => (hkeyed.entry id key hkey).1
  case mem_iff =>
    intro id
    rw [hmem, keys_after, Option.isSome_map]
  case nodup => exact nodup_toList hkeyed
  case sorted =>
    rw [toList, List.pairwise_map]
    refine (SortedSet.toList_increasing (after calls).ordered).imp_of_mem
      fun {a b} ha hb hbefore first second hfirst hsecond => ?_
    have hshown {key : ServiceKey} (hkey : key ∈ (after calls).ordered.toList) {board : Board}
        (hboard : standing? calls key.job = some board) : board.serviceKey = key := by
      rw [hkeyed.mem_ordered_iff, keys_after, hboard, Option.map_some, Option.some.injEq] at hkey
      exact hkey
    have hkeys := (ServiceKey.compare_eq_lt_iff a b).mp hbefore
    rw [← hshown ha hfirst, ← hshown hb hsecond] at hkeys ⊢
    exact hkeys
  case first =>
    rw [first?, toList, SortedMap.first?, SortedSet.toList, SortedMap.keys, List.map_map, List.head?_map]
    cases (after calls).ordered.entries.head? <;> rfl
  case size => rw [size, SortedSet.size_eq_length_toList, toList, List.length_map]
  case isEmpty =>
    rw [isEmpty, toList, SortedMap.isEmpty, SortedSet.toList, SortedMap.keys, List.map_map, List.isEmpty_map]
  case contains => exact fun id => (hmem id).symm

end ReadyQueue

end JobScheduler
