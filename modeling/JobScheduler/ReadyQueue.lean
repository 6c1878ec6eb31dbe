import JobScheduler.Board.Basic

namespace JobScheduler

-- The place of a job in the order of service: higher priorities first, then lower ids.
structure ServiceKey where
  priority : Priority
  job : JobId
deriving DecidableEq, Repr

namespace ServiceKey

def rank (key : ServiceKey) : Nat := Priority.highest.rank - key.priority.rank

instance : Ord ServiceKey := ⟨compareLex (compareOn rank) (compareOn job)⟩

instance : Std.TransOrd ServiceKey :=
  inferInstanceAs (Std.TransCmp (compareLex (compareOn rank) (compareOn job)))

theorem priority_eq_of_rank_eq {a b : ServiceKey} (h : a.rank = b.rank) :
    a.priority = b.priority := by
  obtain ⟨pa, ja⟩ := a
  obtain ⟨pb, jb⟩ := b
  cases pa <;> cases pb <;> simp_all [rank, Priority.rank]

instance : Std.LawfulEqOrd ServiceKey where
  eq_of_compare {a b} h := by
    obtain ⟨hrank, hjob⟩ := compareLex_eq_eq.mp h
    have hr : a.rank = b.rank := Std.LawfulEqOrd.eq_of_compare hrank
    have hj : a.job = b.job := Std.LawfulEqOrd.eq_of_compare hjob
    have hp := priority_eq_of_rank_eq hr
    cases a; cases b; simp_all

end ServiceKey

def Board.serviceKey (board : Board) : ServiceKey := ⟨board.priority, board.job⟩

-- The jobs that have eligible tasks, in the order of service. The key under which each
-- of them stands is kept beside, to find it again after its priority has changed.
structure ReadyQueue where
  ordered : SortedSet ServiceKey
  keys : SortedMap JobId ServiceKey

namespace ReadyQueue

def empty : ReadyQueue := ⟨SortedMap.empty, SortedMap.empty⟩

def isEmpty (queue : ReadyQueue) : Bool := queue.ordered.isEmpty

def size (queue : ReadyQueue) : Nat := queue.ordered.size

def contains (queue : ReadyQueue) (job : JobId) : Bool := queue.keys.contains job

def toList (queue : ReadyQueue) : List JobId := queue.ordered.toList.map (·.job)

def first? (queue : ReadyQueue) : Option JobId := queue.ordered.first?.map (·.1.job)

def remove (queue : ReadyQueue) (job : JobId) : ReadyQueue :=
  match queue.keys.find? job with
  | some key => ⟨queue.ordered.erase key, queue.keys.erase job⟩
  | none => queue

-- Brings the entry of a job in line with its board.
def refresh (queue : ReadyQueue) (board : Board) : ReadyQueue :=
  let queue := queue.remove board.job
  if board.hasEligible then
    ⟨queue.ordered.add board.serviceKey, queue.keys.insert board.job board.serviceKey⟩
  else
    queue

end ReadyQueue

end JobScheduler
