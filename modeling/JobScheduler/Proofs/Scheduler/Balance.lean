import JobScheduler.Proofs.Job.Record
import JobScheduler.Proofs.Scheduler.Orderly

namespace JobScheduler

def Command.records (commands : List Command) : List Summary := commands.filterMap summary?

@[simp] theorem Command.records_append (first rest : List Command) :
    records (first ++ rest) = records first ++ records rest := List.filterMap_append

@[simp] theorem Command.records_ending (cancelled running : List TaskId) (summary : Summary) :
    records (cancelling cancelled ++ (cancelling running ++ [.ended summary])) = [summary] := by
  simp [records, summary?]

-- Every accepted job is live and goes on, or there is one record of it that leaves nothing
-- open.
structure Registry.Balanced (registry : Registry) (accepted : List (JobId × Submission))
    (records : List Summary) : Prop where
  nodup : (accepted.map Prod.fst).Nodup
  known : ∀ id, id ∈ accepted.map Prod.fst ↔
    (registry.find? id).isSome ∨ (registry.ended? id).isSome
  live : ∀ id job, registry.find? id = some job →
    ∃ submission, (id, submission) ∈ accepted ∧ job.CarriesOut submission
  filed : ∀ id summary, registry.ended? id = some summary → summary.id = id
  once : (records.map Summary.id).Nodup
  recorded : ∀ summary, summary ∈ records ↔ registry.ended? summary.id = some summary
  complete : ∀ summary ∈ records,
    ∃ submission, (summary.id, submission) ∈ accepted ∧ summary.Completes submission

namespace Registry

theorem balanced_empty : Registry.empty.Balanced [] [] where
  nodup := .nil
  known id := by simp [find?, ended?, Registry.empty]
  live id job hjob := by cases hjob
  filed id summary hended := by cases hended
  once := .nil
  recorded summary := by simp [ended?, Registry.empty]
  complete := by simp

section Steps

variable {registry registry' : Registry} {accepted : List (JobId × Submission)}
  {records : List Summary} (h : registry.Balanced accepted records)
include h

theorem Balanced.goesOn {job job' : LiveJob} (hjob : registry.find? job.id = some job)
    (hid : job'.id = job.id)
    (hkept : ∀ submission, job.CarriesOut submission → job'.CarriesOut submission)
    (hfind : ∀ id, registry'.find? id = if id = job'.id then some job' else registry.find? id)
    (hended : ∀ id, registry'.ended? id = registry.ended? id) : registry'.Balanced accepted records where
  nodup := h.nodup
  known id := by
    rw [h.known, hfind, hended, hid]
    by_cases heq : id = job.id <;> simp [heq, hjob]
  live id other hother := by
    rw [hfind, hid] at hother
    split at hother
    · rename_i heq
      cases hother
      obtain ⟨submission, hmem, hc⟩ := h.live job.id job hjob
      exact ⟨submission, heq ▸ hmem, hkept submission hc⟩
    · exact h.live id other hother
  filed id summary hsummary := h.filed id summary (hended id ▸ hsummary)
  once := h.once
  recorded summary := by rw [hended, h.recorded]
  complete := h.complete

-- A job ends, and one record more is there.
theorem Balanced.ends {job : LiveJob} {summary : Summary} (hjob : registry.find? job.id = some job)
    (hopen : registry.ended? job.id = none) (hid : summary.id = job.id)
    (hcomplete : ∀ submission, job.CarriesOut submission → summary.Completes submission)
    (hfind : ∀ id, registry'.find? id = if id = job.id then none else registry.find? id)
    (hended : ∀ id, registry'.ended? id = if id = job.id then some summary else registry.ended? id) :
    registry'.Balanced accepted (records ++ [summary]) := by
  have hnew (other : Summary) (hother : other ∈ records) : other.id ≠ job.id := fun heq => by
    have hsome := (h.recorded other).mp hother
    rw [heq, hopen] at hsome
    cases hsome
  refine ⟨h.nodup, fun id => ?_, fun id other hother => ?_, fun id other hother => ?_, ?_,
    fun other => ?_, fun other hother => ?_⟩
  · rw [h.known, hfind, hended]
    by_cases heq : id = job.id <;> simp [heq, hjob]
  · rw [hfind] at hother
    split at hother
    · cases hother
    · exact h.live id other hother
  · rw [hended] at hother
    split at hother
    · rename_i heq
      cases hother
      exact hid.trans heq.symm
    · exact h.filed id other hother
  · rw [List.map_append, List.map_singleton, hid]
    refine List.nodup_append.mpr ⟨h.once, by simp, fun id hold other hother heq => ?_⟩
    obtain ⟨record, hrecord, rfl⟩ := List.mem_map.mp hold
    exact hnew record hrecord (heq.trans (List.mem_singleton.mp hother))
  · rw [List.mem_append, List.mem_singleton, hended]
    split
    · rename_i heq
      rw [Option.some.injEq, eq_comm]
      exact or_iff_right fun hother => hnew other hother heq
    · rename_i hne
      rw [← h.recorded, or_iff_left]
      rintro rfl
      exact hne hid
  · rcases List.mem_append.mp hother with hold | hlast
    · exact h.complete other hold
    · rw [List.mem_singleton.mp hlast, hid]
      obtain ⟨submission, hmem, hc⟩ := h.live job.id job hjob
      exact ⟨submission, hmem, hcomplete submission hc⟩

theorem Balanced.joins {job : LiveJob} {submission : Submission}
    (hlive : registry.find? job.id = none) (hopen : registry.ended? job.id = none)
    (hc : job.CarriesOut submission)
    (hfind : ∀ id, registry'.find? id = if id = job.id then some job else registry.find? id)
    (hended : ∀ id, registry'.ended? id = registry.ended? id) :
    registry'.Balanced (accepted ++ [(job.id, submission)]) records := by
  have hnew : job.id ∉ accepted.map Prod.fst := by
    rw [h.known, hlive, hopen]
    simp
  have hkept {id : JobId} {submission' : Submission} (hmem : (id, submission') ∈ accepted) :
      (id, submission') ∈ accepted ++ [(job.id, submission)] := List.mem_append_left _ hmem
  refine ⟨?_, fun id => ?_, fun id other hother => ?_, fun id summary hsummary => ?_, h.once,
    fun summary => ?_, fun summary hsummary => ?_⟩
  · rw [List.map_append]
    refine List.nodup_append.mpr ⟨h.nodup, by simp, fun id hold other hother heq => hnew ?_⟩
    have hid : other = job.id := List.mem_singleton.mp hother
    rwa [← hid, ← heq]
  · rw [List.map_append, List.mem_append, h.known, hfind, hended]
    by_cases heq : id = job.id <;> simp [heq]
  · rw [hfind] at hother
    split at hother
    · rename_i heq
      cases hother
      exact ⟨submission, by simp [heq], hc⟩
    · obtain ⟨submission', hmem, hc'⟩ := h.live id other hother
      exact ⟨submission', hkept hmem, hc'⟩
  · exact h.filed id summary (hended id ▸ hsummary)
  · rw [hended, h.recorded]
  · obtain ⟨submission', hmem, hcomplete⟩ := h.complete summary hsummary
    exact ⟨submission', hkept hmem, hcomplete⟩

end Steps

-- A later registry of the same run, with the records that are new there.
section Later

variable {registry registry' : Registry} {accepted accepted' : List (JobId × Submission)}
  {records newly : List Summary} (h : registry.Balanced accepted records)
  (h' : registry'.Balanced accepted' (records ++ newly))
include h h'

end Later

end Registry

end JobScheduler
