import Mathlib.Logic.Relation
import JobScheduler.Proofs.Desk.Serve
import JobScheduler.Scheduler.Step

namespace JobScheduler

-- The job that is given the last number is the last one to have an id of its own: the ids
-- start again from zero after it.
def JobId.last : JobId := ⟨.ofNat (2 ^ 64 - 1)⟩

theorem JobId.number_lt_add_one {id : JobId} (h : id ≠ last) : id.number < id.number + 1 :=
  UInt64.lt_add_one fun heq => h (congrArg JobId.mk heq)

theorem JobId.toNat_max (a b : UInt64) : (max a b).toNat = max a.toNat b.toNat := by
  change (if a ≤ b then b else a).toNat = _
  split
  · rename_i hle
    exact (Nat.max_eq_right (UInt64.le_iff_toNat_le.mp hle)).symm
  · rename_i hlt
    exact (Nat.max_eq_left (Nat.le_of_lt (UInt64.lt_iff_toNat_lt.mp (UInt64.not_le.mp hlt)))).symm

theorem JobId.le_max (a b : UInt64) : a ≤ max a b ∧ b ≤ max a b := by
  rw [UInt64.le_iff_toNat_le, UInt64.le_iff_toNat_le, toNat_max]
  exact ⟨Nat.le_max_left _ _, Nat.le_max_right _ _⟩

namespace Registry

-- The slots that the running tasks of all live jobs need.
def load (registry : Registry) : Nat := registry.live.total (·.board.load)

theorem find?_put (registry : Registry) (job : LiveJob) (id : JobId) :
    (registry.put job).find? id = if id = job.id then some job else registry.find? id :=
  SortedMap.find?_insert registry.live job.id id job

theorem find?_drop_record (registry : Registry) (job id : JobId) (summary : Summary) :
    ((registry.drop job).record summary).find? id =
      if id = job then none else registry.find? id :=
  SortedMap.find?_erase registry.live job id

theorem ended?_drop_record (registry : Registry) (job id : JobId) (summary : Summary) :
    ((registry.drop job).record summary).ended? id =
      if id = summary.id then some summary else registry.ended? id :=
  SortedMap.find?_insert registry.ended summary.id id summary

theorem put_eq_self {registry : Registry} {job : LiveJob}
    (h : registry.find? job.id = some job) : registry.put job = registry := by
  have hlive : registry.live.insert job.id job = registry.live := SortedMap.insert_eq_self h
  rw [put, hlive]

-- A job that is put back takes the place of what stood under its id.
theorem put_put (registry : Registry) {job job' : LiveJob} (hid : job'.id = job.id) :
    (registry.put job).put job' = registry.put job' := by
  have hlive : (registry.live.insert job.id job).insert job'.id job' = registry.live.insert job'.id job' := by
    apply SortedMap.ext_find?
    intro id
    simp only [SortedMap.find?_insert, hid]
    split <;> rfl
  rw [put, put, hlive]
  rfl

theorem load_put (registry : Registry) (job : LiveJob) :
    (registry.put job).load + ((registry.find? job.id).map (·.board.load)).getD 0 =
      registry.load + job.board.load :=
  SortedMap.total_insert (fun job : LiveJob => job.board.load) registry.live job.id job

theorem load_drop_record (registry : Registry) (job : JobId) (summary : Summary) :
    ((registry.drop job).record summary).load +
        ((registry.find? job).map (·.board.load)).getD 0 = registry.load :=
  SortedMap.total_erase (fun job : LiveJob => job.board.load) registry.live job

end Registry

-- The tasks that a command starts.
def Command.assignments : Command → List Assignment
  | .dispatch assignments => assignments
  | .cancel _ | .ended _ | .exit => []

namespace Scheduler

-- Jobs are sound and stand under their own ids, and no slot is both free and used by a
-- running task.
structure Sound (scheduler : Scheduler) : Prop where
  jobs : ∀ id job, scheduler.registry.find? id = some job → job.id = id ∧ job.Sound
  slots : scheduler.slots.free + scheduler.registry.load ≤ scheduler.slots.total
  pending : ∀ command ∈ scheduler.pending, command.assignments = []

theorem Sound.queued {scheduler : Scheduler} (hs : scheduler.Sound) (queue : ReadyQueue) :
    Sound { scheduler with queue } := ⟨hs.1, hs.2, hs.3⟩

theorem Sound.cleared {scheduler : Scheduler} (hs : scheduler.Sound) :
    Sound { scheduler with pending := [] } := ⟨hs.1, hs.2, by simp⟩

-- No job has been lost: ids of jobs that live or have ended are used up, no id is of two
-- jobs, and every slot is free or used by a running task.
structure Counted (scheduler : Scheduler) : Prop extends scheduler.Sound where
  used : ∀ id, (scheduler.registry.find? id).isSome ∨ (scheduler.registry.ended? id).isSome →
    id.number < scheduler.registry.nextId
  apart : ∀ id, (scheduler.registry.find? id).isSome → scheduler.registry.ended? id = none
  taken : scheduler.slots.total ≤ scheduler.slots.free + scheduler.registry.load

section Counted

variable {scheduler : Scheduler} (hs : scheduler.Counted)
include hs

theorem Counted.slots_eq : scheduler.slots.free + scheduler.registry.load = scheduler.slots.total :=
  Nat.le_antisymm hs.slots hs.taken

theorem Counted.queued (queue : ReadyQueue) : Counted { scheduler with queue } :=
  ⟨hs.toSound.queued queue, hs.used, hs.apart, hs.taken⟩

theorem Counted.cleared : Counted { scheduler with pending := [] } :=
  ⟨hs.toSound.cleared, hs.used, hs.apart, hs.taken⟩

-- An id that is not used up is of no job.
theorem Counted.unused {id : JobId} (h : scheduler.registry.nextId ≤ id.number) :
    scheduler.registry.find? id = none ∧ scheduler.registry.ended? id = none := by
  have hnot : ¬((scheduler.registry.find? id).isSome ∨ (scheduler.registry.ended? id).isSome) :=
    fun hused => UInt64.not_lt.mpr h (hs.used id hused)
  simpa using hnot

theorem Counted.free : scheduler.registry.find? ⟨scheduler.registry.nextId⟩ = none ∧
    scheduler.registry.ended? ⟨scheduler.registry.nextId⟩ = none :=
  hs.unused (UInt64.le_refl _)

end Counted

def Coherent (scheduler : Scheduler) : Prop :=
  ∀ id job, scheduler.registry.find? id = some job → job.Coherent

-- Jobs have ended or gone on, and no id has become free again.
structure Later (scheduler scheduler' : Scheduler) : Prop where
  nextId : scheduler.registry.nextId ≤ scheduler'.registry.nextId
  ended : ∀ id, (scheduler.registry.ended? id).isSome → (scheduler'.registry.ended? id).isSome
  live : ∀ id job, scheduler.registry.find? id = some job →
    (∃ job', scheduler'.registry.find? id = some job' ∧ job.Advances job') ∨
      (scheduler'.registry.ended? id).isSome

theorem Later.trans {a b c : Scheduler} (h : a.Later b) (h' : b.Later c) : a.Later c where
  nextId := UInt64.le_trans h.nextId h'.nextId
  ended id hended := h'.ended id (h.ended id hended)
  live id job hjob := by
    rcases h.live id job hjob with ⟨job', hjob', hadvances⟩ | hended
    · rcases h'.live id job' hjob' with ⟨job'', hjob'', hadvances'⟩ | hended
      · exact .inl ⟨job'', hjob'', hadvances.trans hadvances'⟩
      · exact .inr hended
    · exact .inr (h'.ended id hended)

theorem Later.refl {scheduler : Scheduler} (hs : scheduler.Sound) : scheduler.Later scheduler where
  nextId := UInt64.le_refl _
  ended _ h := h
  live id job hjob :=
    .inl ⟨job, hjob, LiveJob.advances_books (hs.jobs id job hjob).2 job.results job.executions⟩

-- Every live job has gone on.
def Keeps (scheduler scheduler' : Scheduler) : Prop :=
  ∀ id job, scheduler.registry.find? id = some job →
    ∃ job', scheduler'.registry.find? id = some job' ∧ job.Advances job'

theorem Keeps.trans {a b c : Scheduler} (h : a.Keeps b) (h' : b.Keeps c) : a.Keeps c := by
  intro id job hjob
  obtain ⟨job', hjob', hadvances⟩ := h id job hjob
  obtain ⟨job'', hjob'', hadvances'⟩ := h' id job' hjob'
  exact ⟨job'', hjob'', hadvances.trans hadvances'⟩

theorem Keeps.refl {scheduler : Scheduler} (hs : scheduler.Sound) : scheduler.Keeps scheduler :=
  fun id job hjob =>
    ⟨job, hjob, LiveJob.advances_books (hs.jobs id job hjob).2 job.results job.executions⟩

-- The job goes on as `job` and gives slots back.
def turned (scheduler : Scheduler) (job : LiveJob) (given : Nat) : Scheduler :=
  { scheduler with registry := scheduler.registry.put job, slots := scheduler.slots.regain given }

-- The job goes on as `job` and takes slots.
def served (scheduler : Scheduler) (job : LiveJob) (taken : Nat) : Scheduler :=
  { scheduler with registry := scheduler.registry.put job, slots := scheduler.slots.take taken }

-- The job leaves, and so do its running tasks.
def retired (scheduler : Scheduler) (job : LiveJob) (summary : Summary) : Scheduler :=
  { scheduler with
    registry := (scheduler.registry.drop job.id).record summary
    slots := scheduler.slots.regain job.board.load }

def admitted (scheduler : Scheduler) (job : LiveJob) (nextId : UInt64) : Scheduler :=
  { scheduler with registry := { scheduler.registry.put job with nextId } }

-- The scheduler once a job is back under the id that it had.
def readmitted (scheduler : Scheduler) (job : LiveJob) : Scheduler :=
  scheduler.admitted job (max scheduler.registry.nextId (job.id.number + 1))

-- What is asked of a scheduler: what the jobs are like that it takes in, which ids they may
-- have, and which ones it may resume.
structure Terms where
  expected : LiveJob → Prop
  given : JobId → Prop
  resumed : JobId → Bool

-- Any job may be taken in, under an id that may be given.
def Terms.giving (given : JobId → Prop) : Terms := ⟨fun _ => True, given, fun _ => true⟩

def Terms.any : Terms := .giving fun _ => True

-- The last id is not given.
def Terms.counting : Terms := .giving (· ≠ .last)

theorem Terms.counting_not_last : ¬Terms.counting.given .last := fun h => h rfl

-- The terms let the job be taken in.
structure Terms.Admit (terms : Terms) (job : LiveJob) : Prop where
  sound : job.Sound
  idle : job.board.load = 0
  expected : terms.expected job
  given : terms.given job.id

-- All that ever happens to a scheduler, one job at a time.
inductive Advance (terms : Terms) : Scheduler → Scheduler → Prop
  | turn {scheduler job job' given} : scheduler.registry.find? job.id = some job →
      LiveJob.Turn (terms.resumed job.id) job job' given →
      Advance terms scheduler (scheduler.turned job' given)
  | serve {scheduler job job' taken} : scheduler.registry.find? job.id = some job →
      job.Advances job' → (job.isHeld → job'.isHeld) →
      job'.board.load = job.board.load + taken → taken ≤ scheduler.slots.free →
      Advance terms scheduler (scheduler.served job' taken)
  | retire {scheduler job summary} : scheduler.registry.find? job.id = some job →
      summary.id = job.id → Advance terms scheduler (scheduler.retired job summary)
  | join {scheduler job} : job.id = ⟨scheduler.registry.nextId⟩ → terms.Admit job →
      Advance terms scheduler (scheduler.admitted job (scheduler.registry.nextId + 1))
  | rejoin {scheduler job} : scheduler.registry.find? job.id = none →
      scheduler.registry.ended? job.id = none → terms.Admit job →
      Advance terms scheduler (scheduler.readmitted job)
  | queue {scheduler : Scheduler} (queue : ReadyQueue) :
      Advance terms scheduler { scheduler with queue }
  | pending {scheduler : Scheduler} {pending : List Command} :
      (∀ command ∈ pending, command.assignments = []) →
      Advance terms scheduler { scheduler with pending }

section Put

variable {scheduler : Scheduler} (hs : scheduler.Sound) {job job' : LiveJob}
  (hjob : scheduler.registry.find? job.id = some job)
include hs hjob

theorem Sound.live : job.Sound := (hs.jobs job.id job hjob).2

theorem Sound.load_le : scheduler.slots.free + job.board.load ≤ scheduler.slots.total := by
  have htotal := SortedMap.total_erase (fun job : LiveJob => job.board.load)
    scheduler.registry.live job.id
  have hfind : scheduler.registry.live.find? job.id = some job := hjob
  rw [hfind] at htotal
  have hslots := hs.slots
  simp only [Registry.load, Option.map_some, Option.getD_some] at htotal hslots
  omega

omit hs in
-- What the job takes or gives back is what its running tasks need more or less.
theorem load_of_put {job' : LiveJob} (hid : job'.id = job.id) :
    (scheduler.registry.put job').load + job.board.load =
      scheduler.registry.load + job'.board.load := by
  have hload := scheduler.registry.load_put job'
  rwa [hid, hjob, Option.map_some, Option.getD_some] at hload

variable (hadvances : job.Advances job')
include hadvances

-- A job has gone on, and the slots are in balance with it.
theorem Sound.put {slots : Slots} (hslots : slots.free + job'.board.load =
      scheduler.slots.free + job.board.load) (htotal : slots.total = scheduler.slots.total) :
    Sound { scheduler with registry := scheduler.registry.put job', slots } := by
  have hload := load_of_put hjob hadvances.id
  refine ⟨fun id other hother => ?_, ?_, hs.pending⟩
  · rw [Registry.find?_put] at hother
    split at hother
    · rename_i heq
      cases hother
      exact ⟨heq.symm, hadvances.sound⟩
    · exact hs.jobs id other hother
  · have hold := hs.slots
    change slots.free + (scheduler.registry.put job').load ≤ slots.total
    omega

omit hs in
theorem Counted.put (hs : scheduler.Counted) {slots : Slots} (hslots : slots.free + job'.board.load =
      scheduler.slots.free + job.board.load) (htotal : slots.total = scheduler.slots.total) :
    Counted { scheduler with registry := scheduler.registry.put job', slots } := by
  have hload := load_of_put hjob hadvances.id
  -- The job was there under its id before.
  have hlive {id : JobId} (hid : ((scheduler.registry.put job').find? id).isSome) :
      (scheduler.registry.find? id).isSome := by
    rw [Registry.find?_put, hadvances.id] at hid
    split at hid
    · rename_i heq
      rw [heq, hjob]
      rfl
    · exact hid
  refine ⟨hs.toSound.put hjob hadvances hslots htotal,
    fun id hid => hs.used id (hid.imp hlive fun hended => hended), fun id hid => hs.apart id (hlive hid), ?_⟩
  have hold := hs.taken
  change slots.total ≤ slots.free + (scheduler.registry.put job').load
  omega

theorem keeps_put (slots : Slots) :
    scheduler.Keeps { scheduler with registry := scheduler.registry.put job', slots } := by
  intro id other hother
  by_cases hid : id = job.id
  · rw [hid, hjob] at hother
    cases hother
    exact ⟨job', by rw [Registry.find?_put, hadvances.id, if_pos hid], hadvances⟩
  · refine ⟨other, by rw [Registry.find?_put, hadvances.id, if_neg hid, hother], ?_⟩
    exact LiveJob.advances_books (hs.jobs id other hother).2 other.results other.executions

omit hs in
theorem Coherent.put (hc : scheduler.Coherent) (slots : Slots) :
    Coherent { scheduler with registry := scheduler.registry.put job', slots } := by
  intro id other hother
  rw [Registry.find?_put] at hother
  split at hother
  · cases hother
    exact hadvances.coherent (hc job.id job hjob)
  · exact hc id other hother

end Put

theorem later_of_keeps {a b : Scheduler} (h : a.Keeps b)
    (hended : b.registry.ended = a.registry.ended) (hnext : b.registry.nextId = a.registry.nextId) :
    a.Later b where
  nextId := UInt64.le_of_eq hnext.symm
  ended id hid := by
    rw [Registry.ended?, hended]
    exact hid
  live id job hjob := .inl (h id job hjob)

section Retire

variable {scheduler : Scheduler} (hs : scheduler.Sound) {job : LiveJob} {summary : Summary}
  (hjob : scheduler.registry.find? job.id = some job) (hsummary : summary.id = job.id)
include hs hjob hsummary

omit hs hsummary in
theorem load_of_retired (summary : Summary) :
    ((scheduler.registry.drop job.id).record summary).load + job.board.load =
      scheduler.registry.load := by
  have hload := scheduler.registry.load_drop_record job.id summary
  rwa [hjob, Option.map_some, Option.getD_some] at hload

omit hsummary in
theorem Sound.retired : (scheduler.retired job summary).Sound := by
  have hload := load_of_retired hjob summary
  refine ⟨fun id other hother => ?_, ?_, hs.pending⟩
  · simp only [Scheduler.retired, Registry.find?_drop_record] at hother
    split at hother
    · cases hother
    · exact hs.jobs id other hother
  · have hold := hs.slots
    change scheduler.slots.free + job.board.load +
      ((scheduler.registry.drop job.id).record summary).load ≤ scheduler.slots.total
    omega

omit hs in
theorem Counted.retired (hs : scheduler.Counted) : (scheduler.retired job summary).Counted := by
  have hload := load_of_retired hjob summary
  refine ⟨hs.toSound.retired hjob, fun id hid => ?_, fun id hid => ?_, ?_⟩
  · refine hs.used id ?_
    simp only [Scheduler.retired, Registry.find?_drop_record, Registry.ended?_drop_record,
      hsummary] at hid
    by_cases heq : id = job.id
    · rw [heq, hjob]
      exact .inl rfl
    · rwa [if_neg heq, if_neg heq] at hid
  · simp only [Scheduler.retired, Registry.find?_drop_record, Registry.ended?_drop_record,
      hsummary] at hid ⊢
    split at hid
    · cases hid
    · rename_i hne
      rw [if_neg hne]
      exact hs.apart id hid
  · have hold := hs.taken
    change scheduler.slots.total ≤ scheduler.slots.free + job.board.load +
      ((scheduler.registry.drop job.id).record summary).load
    omega

omit hjob in
theorem later_retired : scheduler.Later (scheduler.retired job summary) where
  nextId := UInt64.le_refl _
  ended id hid := by
    simp only [Scheduler.retired, Registry.ended?_drop_record]
    split
    · rfl
    · exact hid
  live id other hother := by
    by_cases heq : id = job.id
    · right
      simp [Scheduler.retired, Registry.ended?_drop_record, hsummary, heq]
    · left
      refine ⟨other, ?_, LiveJob.advances_books (hs.jobs id other hother).2 other.results
        other.executions⟩
      simp [Scheduler.retired, Registry.find?_drop_record, heq, hother]

omit hs hjob hsummary in
theorem Coherent.retired (hc : scheduler.Coherent) : (scheduler.retired job summary).Coherent := by
  intro id other hother
  simp only [Scheduler.retired, Registry.find?_drop_record] at hother
  split at hother
  · cases hother
  · exact hc id other hother

end Retire

section Admit

variable {scheduler : Scheduler} {job : LiveJob} {nextId : UInt64}

theorem find?_admitted (id : JobId) : (scheduler.admitted job nextId).registry.find? id =
    if id = job.id then some job else scheduler.registry.find? id :=
  Registry.find?_put scheduler.registry job id

-- A job that is taken in under the id of another one takes its place, and nothing that runs
-- is added.
theorem Sound.admitted (hs : scheduler.Sound) (hjob : job.Sound) (hidle : job.board.load = 0) :
    (scheduler.admitted job nextId).Sound := by
  have hload := scheduler.registry.load_put job
  refine ⟨fun id other hother => ?_, ?_, hs.pending⟩
  · rw [find?_admitted] at hother
    split at hother
    · rename_i heq
      cases hother
      exact ⟨heq.symm, hjob⟩
    · exact hs.jobs id other hother
  · have hold := hs.slots
    change scheduler.slots.free + (scheduler.registry.put job).load ≤ scheduler.slots.total
    omega

theorem Coherent.admitted (hc : scheduler.Coherent) (hjob : job.Coherent) :
    (scheduler.admitted job nextId).Coherent := by
  intro id other hother
  rw [find?_admitted] at hother
  split at hother
  · cases hother
    exact hjob
  · exact hc id other hother

variable (hlive : scheduler.registry.find? job.id = none)
include hlive

theorem later_admitted (hs : scheduler.Sound) (hnext : scheduler.registry.nextId ≤ nextId) :
    scheduler.Later (scheduler.admitted job nextId) where
  nextId := hnext
  ended _ hid := hid
  live id other hother := by
    have hne : id ≠ job.id := by
      rintro rfl
      rw [hlive] at hother
      cases hother
    refine .inl ⟨other, ?_, LiveJob.advances_books (hs.jobs id other hother).2 other.results
      other.executions⟩
    rw [find?_admitted, if_neg hne, hother]

theorem Counted.admitted (hs : scheduler.Counted) (hended : scheduler.registry.ended? job.id = none)
    (hjob : job.Sound) (hidle : job.board.load = 0) (hid : job.id.number < nextId)
    (hnext : scheduler.registry.nextId ≤ nextId) : (scheduler.admitted job nextId).Counted := by
  have hload := scheduler.registry.load_put job
  rw [hlive, hidle, Option.map_none, Option.getD_none] at hload
  have hother {id : JobId} (hne : id ≠ job.id) :
      (scheduler.admitted job nextId).registry.find? id = scheduler.registry.find? id := by
    rw [find?_admitted, if_neg hne]
  refine ⟨hs.toSound.admitted hjob hidle, fun id hused => ?_, fun id hsome => ?_, ?_⟩
  · by_cases heq : id = job.id
    · rw [heq]
      exact hid
    · rw [hother heq] at hused
      exact UInt64.lt_of_lt_of_le (hs.used id hused) hnext
  · by_cases heq : id = job.id
    · rw [heq]
      exact hended
    · rw [hother heq] at hsome
      exact hs.apart id hsome
  · have hold := hs.taken
    change scheduler.slots.total ≤ scheduler.slots.free + (scheduler.registry.put job).load
    omega

end Admit

-- One step keeps the invariant.
theorem Advance.sound {terms : Terms} {a b : Scheduler} (h : Advance terms a b)
    (hs : a.Sound) : b.Sound ∧ b.slots.total = a.slots.total := by
  cases h with
  | turn hjob hturn =>
      have hload := hturn.load
      refine ⟨hs.put hjob hturn.advances ?_ rfl, rfl⟩
      simp only [Slots.regain]
      omega
  | serve hjob hadvances _ hload htaken =>
      refine ⟨hs.put hjob hadvances ?_ rfl, rfl⟩
      simp only [Slots.take]
      omega
  | retire hjob _ => exact ⟨hs.retired hjob, rfl⟩
  | join _ hentry | rejoin _ _ hentry => exact ⟨hs.admitted hentry.sound hentry.idle, rfl⟩
  | queue queue => exact ⟨hs.queued queue, rfl⟩
  | pending hpending => exact ⟨⟨hs.1, hs.2, hpending⟩, rfl⟩

-- As long as no job is given the last id, no job is lost on the way.
theorem Advance.counted {terms : Terms} (hlast : ¬terms.given .last) {a b : Scheduler}
    (h : Advance terms a b) (hs : a.Counted) : b.Counted ∧ a.Later b := by
  -- The job is not the last one, so the next id is above its own.
  have habove {job : LiveJob} (hentry : terms.Admit job) : job.id.number < job.id.number + 1 :=
    JobId.number_lt_add_one fun heq => hlast (heq ▸ hentry.given)
  cases h with
  | turn hjob hturn =>
      have hload := hturn.load
      refine ⟨hs.put hjob hturn.advances ?_ rfl,
        later_of_keeps (keeps_put hs.toSound hjob hturn.advances _) rfl rfl⟩
      simp only [Slots.regain]
      omega
  | serve hjob hadvances _ hload htaken =>
      refine ⟨hs.put hjob hadvances ?_ rfl, later_of_keeps (keeps_put hs.toSound hjob hadvances _) rfl rfl⟩
      simp only [Slots.take]
      omega
  | retire hjob hsummary => exact ⟨hs.retired hjob hsummary, later_retired hs.toSound hsummary⟩
  | @join job hid hentry =>
      obtain ⟨hlive, hended⟩ := hs.free
      rw [← hid] at hlive hended
      have hnext := habove hentry
      have hnumber : job.id.number = a.registry.nextId := congrArg JobId.number hid
      rw [hnumber] at hnext
      exact ⟨hs.admitted hlive hended hentry.sound hentry.idle (hnumber ▸ hnext) (UInt64.le_of_lt hnext),
        later_admitted hlive hs.toSound (UInt64.le_of_lt hnext)⟩
  | rejoin hlive hended hentry =>
      obtain ⟨hnext, hid⟩ := JobId.le_max a.registry.nextId _
      have hbelow := UInt64.lt_of_lt_of_le (habove hentry) hid
      exact ⟨hs.admitted hlive hended hentry.sound hentry.idle hbelow hnext,
        later_admitted hlive hs.toSound hnext⟩
  | queue queue => exact ⟨hs.queued queue, later_of_keeps (Keeps.refl hs.toSound) rfl rfl⟩
  | pending hpending =>
      exact ⟨⟨⟨hs.jobs, hs.slots, hpending⟩, hs.used, hs.apart, hs.taken⟩,
        later_of_keeps (Keeps.refl hs.toSound) rfl rfl⟩

theorem Advance.coherent {terms : Terms} (hexpected : ∀ job, terms.expected job → job.Coherent)
    {a b : Scheduler} (h : Advance terms a b) (hc : a.Coherent) : b.Coherent := by
  cases h with
  | turn hjob hturn => exact hc.put hjob hturn.advances _
  | serve hjob hadvances => exact hc.put hjob hadvances _
  | retire hjob hsummary => exact hc.retired
  | join _ hentry | rejoin _ _ hentry => exact hc.admitted (hexpected _ hentry.expected)
  | queue queue => exact hc
  | pending hpending => exact hc

-- A client holds the job with this id, if it is live.
def Holds (scheduler : Scheduler) (id : JobId) : Prop :=
  ∀ job, scheduler.registry.find? id = some job → job.isHeld

theorem holds_put {scheduler : Scheduler} {id : JobId} (h : scheduler.Holds id) {job job' : LiveJob}
    (hjob : scheduler.registry.find? job.id = some job) (hid : job'.id = job.id)
    (hkeeps : job.id = id → job.isHeld → job'.isHeld) (slots : Slots) :
    Holds { scheduler with registry := scheduler.registry.put job', slots } id := by
  intro other hother
  rw [Registry.find?_put, hid] at hother
  split at hother
  · rename_i heq
    subst heq
    cases hother
    exact hkeeps rfl (h job hjob)
  · exact h other hother

theorem holds_admitted {scheduler : Scheduler} {id : JobId} (h : scheduler.Holds id) {job : LiveJob}
    (hne : id ≠ job.id) (nextId : UInt64) : (scheduler.admitted job nextId).Holds id := by
  intro other hother
  rw [find?_admitted, if_neg hne] at hother
  exact h other hother

-- A job that may not be resumed stays held as long as it lives, unless its id is given again.
theorem Advance.holds {terms : Terms} {id : JobId} (hid : terms.resumed id = false)
    (hgiven : ¬terms.given id) {a b : Scheduler} (h : Advance terms a b) (ha : a.Holds id) :
    b.Holds id := by
  cases h with
  | turn hjob hturn =>
      exact holds_put ha hjob hturn.advances.id (fun heq => hturn.held (heq ▸ hid)) _
  | serve hjob hadvances hkeeps => exact holds_put ha hjob hadvances.id (fun _ => hkeeps) _
  | retire =>
      intro other hother
      simp only [Scheduler.retired, Registry.find?_drop_record] at hother
      split at hother
      · cases hother
      · exact ha other hother
  | join _ hentry | rejoin _ _ hentry => exact holds_admitted ha (fun heq => hgiven (heq ▸ hentry.given)) _
  | queue | pending => exact ha

-- Any number of steps.
def Leads (terms : Terms) : Scheduler → Scheduler → Prop :=
  Relation.ReflTransGen (Advance terms)

theorem Leads.refl {terms : Terms} (scheduler : Scheduler) :
    Leads terms scheduler scheduler :=
  Relation.ReflTransGen.refl

theorem Leads.trans {terms : Terms} {a b c : Scheduler} (h : Leads terms a b)
    (h' : Leads terms b c) : Leads terms a c :=
  Relation.ReflTransGen.trans h h'

theorem Leads.of_advance {terms : Terms} {a b : Scheduler} (h : Advance terms a b) :
    Leads terms a b :=
  Relation.ReflTransGen.single h

theorem Leads.sound {terms : Terms} {a b : Scheduler} (h : Leads terms a b)
    (hs : a.Sound) : b.Sound ∧ b.slots.total = a.slots.total := by
  induction h with
  | refl => exact ⟨hs, rfl⟩
  | tail _ hstep ih =>
      obtain ⟨hmid, htotal⟩ := ih
      obtain ⟨hsound, htotal'⟩ := hstep.sound hmid
      exact ⟨hsound, htotal'.trans htotal⟩

-- The record of a job that has ended is never replaced.
theorem Advance.ended?_of_some {terms : Terms} {a b : Scheduler} (h : Advance terms a b) (hs : a.Counted)
    {id : JobId} {summary : Summary} (hended : a.registry.ended? id = some summary) :
    b.registry.ended? id = some summary := by
  cases h with
  | @retire job record hjob hid =>
      have hne : id ≠ job.id := by
        rintro rfl
        rw [hs.apart job.id (by rw [hjob]; rfl)] at hended
        cases hended
      rw [retired, Registry.ended?_drop_record, hid, if_neg hne]
      exact hended
  | turn | serve | join | rejoin | queue | pending => exact hended

-- Ids below a limit leave the next one at most there.
theorem Leads.nextId_le {terms : Terms} {limit : Nat} (hlimit : limit < 2 ^ 64)
    (hgiven : ∀ id, terms.given id → id.number.toNat < limit) {a b : Scheduler} (h : Leads terms a b)
    (ha : a.registry.nextId.toNat ≤ limit) : b.registry.nextId.toNat ≤ limit := by
  have hadd {id : JobId} (hid : terms.given id) : (id.number + 1).toNat ≤ limit := by
    have hbelow := hgiven id hid
    have hone : (id.number + 1).toNat = id.number.toNat + 1 := by
      rw [UInt64.toNat_add, UInt64.toNat_one, Nat.mod_eq_of_lt (by omega)]
    omega
  induction h with
  | refl => exact ha
  | tail _ hstep ih =>
      cases hstep with
      | turn | serve | retire | queue | pending => exact ih
      | @join job hid hentry =>
          have hnext := hadd hentry.given
          rwa [congrArg JobId.number hid] at hnext
      | rejoin _ _ hentry =>
          rw [readmitted, admitted, JobId.toNat_max]
          exact Nat.max_le.mpr ⟨ih, hadd hentry.given⟩

-- As long as no job is given the last id.
section Counted

variable {terms : Terms} (hlast : ¬terms.given .last) {a b : Scheduler} (h : Leads terms a b)
  (hs : a.Counted)
include hlast h hs

theorem Leads.counted : b.Counted ∧ a.Later b := by
  induction h with
  | refl => exact ⟨hs, .refl hs.toSound⟩
  | tail _ hstep ih =>
      obtain ⟨hmid, hlater⟩ := ih
      obtain ⟨hcounted, hlater'⟩ := hstep.counted hlast hmid
      exact ⟨hcounted, hlater.trans hlater'⟩

theorem Leads.ended?_of_some {id : JobId} {summary : Summary}
    (hended : a.registry.ended? id = some summary) : b.registry.ended? id = some summary := by
  induction h with
  | refl => exact hended
  | tail hleads hstep ih => exact hstep.ended?_of_some (Leads.counted hlast hleads hs).1 ih

end Counted

theorem Leads.holds {terms : Terms} {id : JobId} (hid : terms.resumed id = false)
    (hgiven : ¬terms.given id) {a b : Scheduler} (h : Leads terms a b) (ha : a.Holds id) :
    b.Holds id := by
  induction h with
  | refl => exact ha
  | tail _ hstep ih => exact hstep.holds hid hgiven ih

theorem Leads.coherent {terms : Terms} (hexpected : ∀ job, terms.expected job → job.Coherent)
    {a b : Scheduler} (h : Leads terms a b) (hc : a.Coherent) : b.Coherent := by
  induction h with
  | refl => exact hc
  | tail _ hstep ih => exact hstep.coherent hexpected ih

end Scheduler

end JobScheduler
