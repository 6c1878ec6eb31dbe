import JobScheduler.Proofs.Scheduler.Sound

namespace JobScheduler

-- The same slots under a higher limit for what may be given back.
def Slots.raise (slots : Slots) (count : Nat) : Slots := { slots with total := slots.total + count }

def Scheduler.raise (scheduler : Scheduler) (count : Nat) : Scheduler :=
  { scheduler with slots := scheduler.slots.raise count }

theorem Scheduler.raise_zero (scheduler : Scheduler) : scheduler.raise 0 = scheduler := rfl

namespace Board

theorem release_running {board board' : Board} (hsame : board.SameTasks board') {ids : List TaskId}
    (hknown : ∀ id ∈ ids, ∃ card, board.card id = .ok card) {slots : Slots}
    (weight : TaskId → Nat)
    (hweight : ∀ id ∈ ids, ∀ card, board.card id = .ok card → weight id = card.resources)
    (h : slots.free + (ids.map weight).sum ≤ slots.total) :
    (ids.foldl (fun slots task =>
      match board'.card task with
      | .ok card => slots.release card.resources
      | .error _ => slots) slots) = slots.regain (ids.map weight).sum := by
  induction ids generalizing slots with
  | nil => rfl
  | cons id rest ih =>
      obtain ⟨⟨card, hcard⟩, hrest⟩ := List.forall_mem_cons.mp hknown
      obtain ⟨hfirst, hlater⟩ := List.forall_mem_cons.mp hweight
      obtain ⟨card', hcard', hfixed⟩ := hsame.card hcard
      have hresources : card'.resources = weight id := by
        have htask : card'.task = card.task := congrArg Prod.fst hfixed
        rw [hfirst card hcard, Card.resources, Card.resources, htask]
      simp only [List.map_cons, List.sum_cons] at h ⊢
      have hbound : slots.free + weight id ≤ slots.total := by omega
      rw [List.foldl_cons, hcard']
      dsimp only
      rw [hresources, Slots.release_eq_regain hbound, ih hrest hlater (by simp [Slots.regain]; omega)]
      simp [Slots.regain, Nat.add_assoc]

def resourcesOf (board : Board) (task : TaskId) : Nat :=
  match board.card task with
  | .ok card => card.resources
  | .error _ => 0

theorem sum_resourcesOf_running {board : Board} (hb : board.Sound) :
    (board.running.toList.map board.resourcesOf).sum = board.load := by
  have hrunning : board.running.toList = board.idsAt .running :=
    hb.partitioned.toList_partition hb.wired (show Place.running.isPartition from rfl)
  rw [hrunning, idsAt, load, List.map_map]
  congr 1
  apply List.map_congr_left
  intro card hcard
  have hmem := (List.mem_filter.mp hcard).1
  simp [resourcesOf, hb.wired.card_id_of_mem hmem]

-- A job that is torn down gives back what its running tasks had taken.
theorem release_teardown {board : Board} (hb : board.Sound) {slots : Slots}
    (h : slots.free + board.load ≤ slots.total) :
    (board.running.toList.foldl (fun slots task =>
      match board.teardown.1.card task with
      | .ok card => slots.release card.resources
      | .error _ => slots) slots) = slots.regain board.load := by
  have hknown (id : TaskId) (hid : id ∈ board.running.toList) : ∃ card, board.card id = .ok card := by
    have hplace := hb.partitioned.mem_running_iff.mp hid
    obtain ⟨card, hcard, -⟩ := placeOf_eq_ok_iff.mp hplace
    exact ⟨card, hcard⟩
  rw [← sum_resourcesOf_running hb] at h ⊢
  exact release_running (sameTasks_teardown board) hknown board.resourcesOf
    (fun id _ card hcard => by simp [resourcesOf, hcard]) h

end Board

-- The record that a job leaves behind.
def LiveJob.closing (job : LiveJob) (status : JobStatus) : Summary :=
  ({ job with board := job.board.teardown.1 }.abortUnfinished).summary status

theorem LiveJob.closing_id (job : LiveJob) (status : JobStatus) : (job.closing status).id = job.id :=
  (Board.sameTasks_teardown job.board).job

theorem Scheduler.ended?_retired (scheduler : Scheduler) (job : LiveJob) (status : JobStatus) (id : JobId) :
    (scheduler.retired job (job.closing status)).registry.ended? id =
      if id = job.id then some (job.closing status) else scheduler.registry.ended? id :=
  (Registry.ended?_drop_record _ _ _ _).trans (by rw [job.closing_id])

theorem Command.assignments_cancelling (tasks : List TaskId) :
    ∀ command ∈ Command.cancelling tasks, command.assignments = [] := by
  intro command hcommand
  unfold Command.cancelling at hcommand
  split at hcommand
  · cases hcommand
  · rw [List.mem_singleton.mp hcommand]
    rfl

theorem Command.assignments_ending (cancelled running : List TaskId) (summary : Summary) :
    ∀ command ∈ Command.cancelling cancelled ++ (Command.cancelling running ++ [.ended summary]),
      command.assignments = [] := by
  intro command hcommand
  rcases List.mem_append.mp hcommand with hcommand | hcommand
  · exact Command.assignments_cancelling cancelled command hcommand
  · rcases List.mem_append.mp hcommand with hcommand | hcommand
    · exact Command.assignments_cancelling running command hcommand
    · rw [List.mem_singleton.mp hcommand]
      rfl

def Command.summary? : Command → Option Summary
  | .ended summary => some summary
  | .dispatch _ | .cancel _ | .exit => none

@[simp] theorem Command.exit_not_mem_cancelling (tasks : List TaskId) : .exit ∉ cancelling tasks := by
  cases tasks <;> simp [cancelling]

@[simp] theorem Command.filterMap_summary?_cancelling (tasks : List TaskId) :
    (cancelling tasks).filterMap summary? = [] := by
  cases tasks <;> rfl

namespace Scheduler

section EndJob

variable {scheduler : Scheduler} {job : LiveJob}
  (hjob : scheduler.registry.find? job.id = some job) (status : JobStatus)
include hjob

theorem endJob_eq (hs : scheduler.Sound) (count : Nat) :
    (scheduler.raise count).endJob job.id status =
      ({ scheduler.retired job (job.closing status) with
          queue := scheduler.queue.remove job.id }.raise count,
        Command.cancelling job.board.running.toList ++ [.ended (job.closing status)]) := by
  have hslots : (scheduler.slots.raise count).free + job.board.load ≤
      (scheduler.slots.raise count).total :=
    Nat.le_trans (hs.load_le hjob) (Nat.le_add_right _ count)
  have hrelease := Board.release_teardown (hs.live hjob).board hslots
  have hfind : (scheduler.raise count).registry.find? job.id = some job := hjob
  simp only [endJob, hfind]
  exact congrArg (fun slots => (({ scheduler with
    registry := (scheduler.registry.drop job.id).record (job.closing status)
    queue := scheduler.queue.remove job.id
    slots } : Scheduler), Command.cancelling job.board.running.toList ++ [.ended (job.closing status)]))
    hrelease

theorem leads_endJob (terms : Terms) :
    Leads terms scheduler
      { scheduler.retired job (job.closing status) with queue := scheduler.queue.remove job.id } :=
  (Leads.of_advance (.retire hjob (job.closing_id status))).trans (.of_advance (.queue _))

end EndJob

-- What refreshing the queue does depends on the registry and the queue alone.
theorem refreshQueue_eq (scheduler : Scheduler) (id : JobId) :
    ∃ queue, ∀ count, (scheduler.raise count).refreshQueue id =
      { scheduler with queue }.raise count := by
  cases hfind : scheduler.registry.find? id with
  | none =>
      refine ⟨scheduler.queue, fun count => ?_⟩
      have hraised : (scheduler.raise count).registry.find? id = none := hfind
      simp only [refreshQueue, hraised]
  | some job =>
      refine ⟨scheduler.queue.refresh job.board, fun count => ?_⟩
      have hraised : (scheduler.raise count).registry.find? id = some job := hfind
      simp only [refreshQueue, hraised]
      rfl

-- Work that leads on from a scheduler, starts no task by itself and does not notice how
-- many slots could be given back.
def Proceeds (terms : Terms) (work : SchedulerM (List Command)) (scheduler : Scheduler) :
    Prop :=
  ∃ answer scheduler', Leads terms scheduler scheduler' ∧
    (∀ commands, answer = .ok commands → ∀ command ∈ commands, command.assignments = []) ∧
    ∀ count, (scheduler.raise count).run work = (answer, scheduler'.raise count)

theorem run_of_ok {scheduler scheduler' : Scheduler} {work : SchedulerM α} {answer : α}
    (h : work scheduler = .ok answer scheduler') : scheduler.run work = (.ok answer, scheduler') := by
  simp [run, h]

theorem run_of_error {scheduler scheduler' : Scheduler} {work : SchedulerM α} {fault : Fault}
    (h : work scheduler = .error fault scheduler') :
    scheduler.run work = (.error fault, scheduler') := by
  simp [run, h]

end Scheduler

namespace SchedulerM

open Scheduler

theorem run_bind (work : SchedulerM α) (next : α → SchedulerM β) (scheduler : Scheduler) :
    (work >>= next) scheduler =
      match work scheduler with
      | .ok answer scheduler => next answer scheduler
      | .error fault scheduler => .error fault scheduler := by
  cases h : work scheduler <;> simp [bind, EStateM.bind, h]

theorem run_pure (answer : α) (scheduler : Scheduler) :
    (pure answer : SchedulerM α) scheduler = .ok answer scheduler := rfl

theorem run_get (scheduler : Scheduler) :
    (get : SchedulerM Scheduler) scheduler = .ok scheduler scheduler := rfl

theorem run_set (scheduler scheduler' : Scheduler) :
    (set scheduler' : SchedulerM PUnit) scheduler = .ok () scheduler' := rfl

theorem run_modify (change : Scheduler → Scheduler) (scheduler : Scheduler) :
    (modify change : SchedulerM PUnit) scheduler = .ok () (change scheduler) := rfl

theorem run_throw (fault : Fault) (scheduler : Scheduler) :
    (throw fault : SchedulerM α) scheduler = .error fault scheduler := rfl

theorem run_endJob (id : JobId) (status : JobStatus) (scheduler : Scheduler) :
    endJob id status scheduler =
      .ok (scheduler.endJob id status).2 (scheduler.endJob id status).1 := rfl

theorem proceeds_bind {terms : Terms} {first : SchedulerM α} {next : α → SchedulerM (List Command)}
    {scheduler mid : Scheduler} {answer : α} (hnext : Proceeds terms (next answer) mid)
    (hleads : Leads terms scheduler mid)
    (hfirst : ∀ count, first (scheduler.raise count) = .ok answer (mid.raise count)) :
    Proceeds terms (first >>= next) scheduler := by
  obtain ⟨commands, final, hrest, hstarts, hrun⟩ := hnext
  refine ⟨commands, final, hleads.trans hrest, hstarts, fun count => ?_⟩
  rw [← hrun count, Scheduler.run, Scheduler.run, run_bind, hfirst count]

section Attend

variable {scheduler : Scheduler} (hs : scheduler.Sound) {job : LiveJob}
  (hjob : scheduler.registry.find? job.id = some job) (terms : Terms)
include hjob

theorem withDesk_self (count : Nat) :
    withDesk (scheduler.raise count) ⟨job, scheduler.slots.raise count⟩ = scheduler.raise count := by
  rw [withDesk, show (scheduler.raise count).registry.put job = scheduler.registry from
    Registry.put_eq_self hjob]
  rfl

include hs

-- Once the desk is left, the scheduler draws its conclusions about the job.
theorem proceeds_conclude (fate : Fate) : Proceeds terms (conclude job.id fate) scheduler := by
  cases fate with
  | untouched => exact ⟨.ok [], scheduler, .refl scheduler, by simp, fun count => rfl⟩
  | goesOn cancelled =>
      obtain ⟨queue, hqueue⟩ := refreshQueue_eq scheduler job.id
      refine ⟨.ok (Command.cancelling cancelled), { scheduler with queue }, .of_advance (.queue queue),
        ?_, fun count => ?_⟩
      · rintro commands ⟨rfl⟩
        exact Command.assignments_cancelling cancelled
      · apply run_of_ok
        simp only [conclude, run_bind, run_modify, run_pure, hqueue]
  | ends status cancelled =>
      refine ⟨.ok (Command.cancelling cancelled ++ (Command.cancelling job.board.running.toList ++
        [.ended (job.closing status)])), _, leads_endJob hjob status terms, ?_, fun count => ?_⟩
      · rintro commands ⟨rfl⟩
        exact Command.assignments_ending _ _ _
      · apply run_of_ok
        simp only [conclude, run_bind, run_endJob, run_pure, endJob_eq hjob status hs count]

-- Work at the desk of a live job, and what it makes of the job.
theorem conclude_proceeds {work : DeskM Fate} (hturns : DeskM.Turns (terms.resumed job.id) work job) :
    Proceeds terms (do conclude job.id (← atDesk job work)) scheduler := by
  have hslots (count : Nat) : (scheduler.raise count).slots = scheduler.slots.raise count := rfl
  rcases hturns with ⟨task, hwork⟩ | ⟨fate, job', given, hturn, huntouched, hwork⟩
  · refine ⟨.error (.taskNotFound task), scheduler, .refl scheduler, by simp, fun count => ?_⟩
    apply run_of_error
    rw [run_bind, atDesk, hslots, hwork]
    dsimp only
    rw [withDesk_self hjob]
  · have hload := hturn.load
    have hbound := hs.load_le hjob
    have hdesk (count : Nat) : atDesk job work (scheduler.raise count) =
        .ok fate ((scheduler.turned job' given).raise count) := by
      have hfree : (scheduler.slots.raise count).free + given ≤ (scheduler.slots.raise count).total := by
        simp only [Slots.raise]
        omega
      rw [atDesk, hslots, hwork _ hfree]
      rfl
    have hstep : Leads terms scheduler (scheduler.turned job' given) :=
      .of_advance (.turn hjob hturn)
    have hturned : (scheduler.turned job' given).Sound := (hstep.sound hs).1
    have hfind : (scheduler.turned job' given).registry.find? job'.id = some job' := by
      simp [turned, Registry.find?_put]
    have hconclude := proceeds_conclude hturned hfind terms fate
    rw [hturn.advances.id] at hconclude
    exact proceeds_bind hconclude hstep hdesk

end Attend

end SchedulerM

end JobScheduler
