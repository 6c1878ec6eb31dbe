import JobScheduler.Proofs.Scheduler.Handle

namespace JobScheduler

-- The slots that tasks handed out have taken.
def Assignment.needed (assignments : List Assignment) : Nat := (assignments.map (·.resources)).sum

namespace Scheduler

-- The live jobs were live before, and nothing has terminated since.
def Spares (scheduler scheduler' : Scheduler) : Prop :=
  ∀ id job', scheduler'.registry.find? id = some job' →
    ∃ job, scheduler.registry.find? id = some job ∧ job.Advances job' ∧ job.Spares job'

theorem Spares.refl {scheduler : Scheduler} (hs : scheduler.Sound) : scheduler.Spares scheduler :=
  fun id job hjob =>
    ⟨job, hjob, LiveJob.advances_books (hs.jobs id job hjob).2 job.results job.executions,
      fun _ _ hstatus _ => hstatus⟩

theorem Spares.trans {a b c : Scheduler} (h : a.Spares b) (h' : b.Spares c) : a.Spares c := by
  intro id job'' hjob''
  obtain ⟨job', hjob', hadvances', hspares'⟩ := h' id job'' hjob''
  obtain ⟨job, hjob, hadvances, hspares⟩ := h id job' hjob'
  exact ⟨job, hjob, hadvances.trans hadvances', fun task status hstatus hterminated =>
    hspares task status (hspares' task status hstatus hterminated) hterminated⟩

theorem spares_put {scheduler : Scheduler} (hs : scheduler.Sound) {job job' : LiveJob}
    (hjob : scheduler.registry.find? job.id = some job) (hadvances : job.Advances job')
    (hspares : job.Spares job') (slots : Slots) :
    scheduler.Spares { scheduler with registry := scheduler.registry.put job', slots } := by
  intro id other hother
  rw [Registry.find?_put, hadvances.id] at hother
  split at hother
  · rename_i heq
    cases hother
    exact ⟨job, heq ▸ hjob, hadvances, hspares⟩
  · exact Spares.refl hs id other hother

-- What a dispatch pass does. Each task was eligible when it was handed out, and at that
-- moment every live job had come from one before the pass and was to be there after it.
structure Passes (terms : Terms) (scheduler scheduler' : Scheduler)
    (assignments : List Assignment) : Prop where
  leads : Leads terms scheduler scheduler'
  keeps : scheduler.Keeps scheduler'
  spares : scheduler.Spares scheduler'
  slots : scheduler.slots.free = Assignment.needed assignments + scheduler'.slots.free
  eligible : ∀ assignment ∈ assignments, ∃ now job, Leads terms scheduler now ∧
    now.Keeps scheduler' ∧ now.registry.find? assignment.task.job = some job ∧
    job.board.placeOf assignment.task = .ok .eligible

theorem Passes.refl {terms : Terms} {scheduler : Scheduler} (hs : scheduler.Sound) :
    Passes terms scheduler scheduler [] :=
  ⟨.refl scheduler, .refl hs, .refl hs, by simp [Assignment.needed], by simp⟩

theorem Passes.trans {terms : Terms} {a b c : Scheduler} {first rest : List Assignment}
    (h : Passes terms a b first) (h' : Passes terms b c rest) :
    Passes terms a c (first ++ rest) where
  leads := h.leads.trans h'.leads
  keeps := h.keeps.trans h'.keeps
  spares := h.spares.trans h'.spares
  slots := by
    have hfirst := h.slots
    have hrest := h'.slots
    simp only [Assignment.needed, List.map_append, List.sum_append] at *
    omega
  eligible assignment hmem := by
    rcases List.mem_append.mp hmem with hmem | hmem
    · obtain ⟨now, job, hleads, hkeeps, hjob, hplace⟩ := h.eligible assignment hmem
      exact ⟨now, job, hleads, hkeeps.trans h'.keeps, hjob, hplace⟩
    · obtain ⟨now, job, hleads, hkeeps, hjob, hplace⟩ := h'.eligible assignment hmem
      exact ⟨now, job, h.leads.trans hleads, hkeeps, hjob, hplace⟩

-- What is done beside jobs and slots starts nothing.
theorem Passes.of_advance (terms : Terms) {a b : Scheduler} (hs : a.Sound)
    (h : Advance terms a b) (hregistry : b.registry = a.registry) (hslots : b.slots = a.slots) :
    Passes terms a b [] where
  leads := .of_advance h
  keeps := by
    unfold Keeps
    rw [hregistry]
    exact Keeps.refl hs
  spares := by
    unfold Spares
    rw [hregistry]
    exact Spares.refl hs
  slots := by simp [Assignment.needed, hslots]
  eligible := by simp

end Scheduler

namespace SchedulerM

open Scheduler

variable {scheduler : Scheduler} (hs : scheduler.Sound) (terms : Terms)
  (accepts : Card → Bool)
include hs

theorem passes_serve {job : LiveJob} (hjob : scheduler.registry.find? job.id = some job) :
    ∃ assignments scheduler', Passes terms scheduler scheduler' assignments ∧
      ∀ count, atDesk job (DeskM.serve accepts) (scheduler.raise count) =
        .ok assignments (scheduler'.raise count) := by
  obtain ⟨hrun, hadvances, hload, hneeded⟩ :=
    DeskM.run_serve scheduler.slots (hs.live hjob) accepts
  have hraised (count : Nat) :=
    (DeskM.run_serve (scheduler.slots.raise count) (hs.live hjob) accepts).1
  refine ⟨(Selection.among accepts scheduler.slots.free job.board.eligibleCards).chosen.map
    fun card => .ofCard job.submission.name (Board.tryOnce card), _,
    ⟨.of_advance (.serve hjob hadvances (LiveJob.isHeld_served job _ _).trans hload hneeded),
      keeps_put hs hjob hadvances _, spares_put hs hjob hadvances (LiveJob.spares_served job _ _) _, ?_, ?_⟩, fun count => ?_⟩
  · have hsum (cards : List Card) : Assignment.needed (cards.map fun card =>
        .ofCard job.submission.name (Board.tryOnce card)) = (cards.map Card.resources).sum := by
      simp only [Assignment.needed, List.map_map]
      rfl
    rw [hsum]
    simp only [served, Slots.take]
    omega
  · intro assignment hmem
    obtain ⟨card, hcard, rfl⟩ := List.mem_map.mp hmem
    have heligible := ((Selection.chosen_sublist accepts _ _).trans
      (Selection.considered_sublist accepts _ _)).subset hcard
    obtain ⟨hok, hplace⟩ := Board.card_of_eligibleCards (hs.live hjob).board heligible
    have htask : card.id.job = job.id := (Board.card_eq_ok_iff.mp hok).1
    refine ⟨scheduler, job, .refl scheduler, keeps_put hs hjob hadvances _, ?_, ?_⟩
    · exact htask ▸ hjob
    · exact (Board.placeOf_of_card hok).trans (congrArg _ hplace)
  · rw [atDesk, show (scheduler.raise count).slots = scheduler.slots.raise count from rfl, hraised]
    rfl

theorem passes_serveJobs (ids : List JobId) :
    ∃ assignments scheduler', Passes terms scheduler scheduler' assignments ∧
      ∀ count, serveJobs accepts ids (scheduler.raise count) =
        .ok assignments (scheduler'.raise count) := by
  induction ids generalizing scheduler with
  | nil => exact ⟨[], scheduler, .refl hs, fun _ => rfl⟩
  | cons id rest ih =>
      by_cases hfree : scheduler.slots.free = 0
      · refine ⟨[], scheduler, .refl hs, fun count => ?_⟩
        have hraised : (scheduler.raise count).slots.free = 0 := hfree
        simp only [serveJobs, run_bind, run_get]
        rw [if_pos hraised, run_pure]
      · have hraised (count : Nat) : ¬(scheduler.raise count).slots.free = 0 := hfree
        cases hfind : scheduler.registry.find? id with
        | none =>
            have hqueue := Passes.of_advance terms hs (.queue (scheduler.queue.remove id)) rfl rfl
            obtain ⟨assignments, final, hpasses, hrun⟩ := ih (hqueue.leads.sound hs).1
            refine ⟨assignments, final, hqueue.trans hpasses, fun count => ?_⟩
            have hnone : (scheduler.raise count).registry.find? id = none := hfind
            simp only [serveJobs, run_bind, run_get]
            rw [if_neg (hraised count), hnone]
            simp only [run_bind, run_set]
            exact hrun count
        | some job =>
            obtain ⟨rfl, -⟩ := hs.jobs id job hfind
            obtain ⟨started, mid, hserve, hdesk⟩ := passes_serve hs terms accepts hfind
            have hmid := (hserve.leads.sound hs).1
            obtain ⟨queue, hrefresh⟩ := refreshQueue_eq mid job.id
            have hqueue := Passes.of_advance terms hmid (.queue queue) rfl rfl
            obtain ⟨assignments, final, hpasses, hrun⟩ := ih (hqueue.leads.sound hmid).1
            refine ⟨started ++ assignments, final, hserve.trans (hqueue.trans hpasses),
              fun count => ?_⟩
            have hsome : (scheduler.raise count).registry.find? job.id = some job := hfind
            simp only [serveJobs, run_bind, run_get]
            rw [if_neg (hraised count), hsome]
            simp only [run_bind, hdesk, run_modify, hrefresh, hrun, run_pure]

-- A dispatch pass never fails.
theorem passes_dispatch :
    ∃ assignments scheduler', Passes terms scheduler scheduler' assignments ∧
      ∀ count, dispatch accepts (scheduler.raise count) = .ok assignments (scheduler'.raise count) := by
  obtain ⟨assignments, scheduler', hpasses, hrun⟩ :=
    passes_serveJobs hs terms accepts scheduler.queue.toList
  exact ⟨assignments, scheduler', hpasses, fun count => hrun count⟩

end SchedulerM

end JobScheduler
