import JobScheduler.Proofs.Scheduler.Ledger

namespace JobScheduler

-- What is asked of every live job, and of the record of every job that has ended, by what
-- was submitted.
structure Law where
  live : Submission → LiveJob → Prop
  ended : Submission → Summary → Prop

namespace Law

-- Whatever happens to a job obeys the law if the job did before.
structure Endures (law : Law) : Prop where
  goesOn : ∀ {submission job job'} {event : Event} {work : DeskM Fate} {slots slots' given cancelled},
    job.Sound → law.live submission job → event.work? = some (job.id, work) →
    LiveJob.Turn true job job' given → work ⟨job, slots⟩ = .ok (.goesOn cancelled) ⟨job', slots'⟩ →
    law.live submission job'
  ends : ∀ {submission job job'} {event : Event} {work : DeskM Fate} {slots slots' given status cancelled},
    job.Sound → law.live submission job → event.work? = some (job.id, work) →
    LiveJob.Turn true job job' given →
    work ⟨job, slots⟩ = .ok (.ends status cancelled) ⟨job', slots'⟩ →
    law.ended submission (job'.closing status)
  served : ∀ {submission job}, job.Sound → law.live submission job → ∀ accepts budget,
    law.live submission (job.served (Selection.among accepts budget job.board.eligibleCards))

-- New jobs obey the law as well.
structure Lasts (law : Law) : Prop extends Endures law where
  fresh : ∀ {id submission job}, LiveJob.new id submission = .ok job → law.live submission job

-- Whatever becomes of the persisted job obeys the law.
structure Admits (law : Law) (persisted : PersistedJob) : Prop where
  live : ∀ job, persisted.revive = .ok job → ¬job.board.isComplete → law.live persisted.submission job
  ended : ∀ job, persisted.revive = .ok job → job.board.isComplete →
    law.ended persisted.submission (job.closing (PersistedJob.endStatus job))

-- Jobs carry out what was submitted.
def carriesOut : Law where
  live submission job := job.CarriesOut submission
  ended _ _ := True

theorem lasts_carriesOut : carriesOut.Lasts where
  fresh hnew := LiveJob.carriesOut_of_new hnew
  goesOn hs hlaw hwork _ hrun := (LiveJob.outcome_of_work? hs hwork rfl hrun).carriesOut hs hlaw
  ends _ _ _ _ _ := trivial
  served {_ job} _ hlaw _ _ := hlaw.keep (.of_undisturbed (job.undisturbed_served _))

end Law

namespace Registry

-- Every live job and every record obeys the law for a submission that was accepted, and
-- records stand under their own ids.
structure Upholds (registry : Registry) (law : Law) (accepted : List (JobId × Submission)) : Prop where
  live : ∀ id job, registry.find? id = some job →
    ∃ submission, (id, submission) ∈ accepted ∧ law.live submission job
  ended : ∀ id summary, registry.ended? id = some summary →
    ∃ submission, (id, submission) ∈ accepted ∧ law.ended submission summary
  filed : ∀ id summary, registry.ended? id = some summary → summary.id = id

section Steps

variable {registry registry' : Registry} {law : Law} {accepted : List (JobId × Submission)}
  (h : registry.Upholds law accepted)
include h

theorem Upholds.goesOn {job job' : LiveJob} (hjob : registry.find? job.id = some job)
    (hkept : ∀ submission, law.live submission job → law.live submission job')
    (hfind : ∀ id, registry'.find? id = if id = job.id then some job' else registry.find? id)
    (hended : ∀ id, registry'.ended? id = registry.ended? id) : registry'.Upholds law accepted where
  live id other hother := by
    rw [hfind] at hother
    split at hother
    · rename_i heq
      cases hother
      obtain ⟨submission, hmem, hlaw⟩ := h.live job.id job hjob
      exact ⟨submission, heq ▸ hmem, hkept submission hlaw⟩
    · exact h.live id other hother
  ended id summary hsummary := h.ended id summary (hended id ▸ hsummary)
  filed id summary hsummary := h.filed id summary (hended id ▸ hsummary)

theorem Upholds.ends {job : LiveJob} {summary : Summary} (hjob : registry.find? job.id = some job)
    (hid : summary.id = job.id)
    (hclosed : ∀ submission, law.live submission job → law.ended submission summary)
    (hfind : ∀ id, registry'.find? id = if id = job.id then none else registry.find? id)
    (hended : ∀ id, registry'.ended? id = if id = job.id then some summary else registry.ended? id) :
    registry'.Upholds law accepted where
  live id other hother := by
    rw [hfind] at hother
    split at hother
    · cases hother
    · exact h.live id other hother
  ended id other hother := by
    rw [hended] at hother
    split at hother
    · rename_i heq
      cases hother
      obtain ⟨submission, hmem, hlaw⟩ := h.live job.id job hjob
      exact ⟨submission, heq ▸ hmem, hclosed submission hlaw⟩
    · exact h.ended id other hother
  filed id other hother := by
    rw [hended] at hother
    split at hother
    · rename_i heq
      cases hother
      exact hid.trans heq.symm
    · exact h.filed id other hother

theorem Upholds.mono {accepted' : List (JobId × Submission)} (hsub : accepted ⊆ accepted') :
    registry.Upholds law accepted' where
  live id job hjob := by
    obtain ⟨submission, hmem, hlaw⟩ := h.live id job hjob
    exact ⟨submission, hsub hmem, hlaw⟩
  ended id summary hsummary := by
    obtain ⟨submission, hmem, hlaw⟩ := h.ended id summary hsummary
    exact ⟨submission, hsub hmem, hlaw⟩
  filed := h.filed

theorem Upholds.joins {job : LiveJob} {submission : Submission} (hlaw : law.live submission job)
    (hfind : ∀ id, registry'.find? id = if id = job.id then some job else registry.find? id)
    (hended : ∀ id, registry'.ended? id = registry.ended? id) :
    registry'.Upholds law (accepted ++ [(job.id, submission)]) where
  live id other hother := by
    rw [hfind] at hother
    split at hother
    · rename_i heq
      cases hother
      exact ⟨submission, by simp [heq], hlaw⟩
    · exact (h.mono (List.subset_append_left _ _)).live id other hother
  ended id summary hsummary :=
    (h.mono (List.subset_append_left _ _)).ended id summary (hended id ▸ hsummary)
  filed id summary hsummary := h.filed id summary (hended id ▸ hsummary)

-- A job is taken in only to end.
theorem Upholds.files {id : JobId} {submission : Submission} {summary : Summary}
    (hid : summary.id = id) (hlaw : law.ended submission summary)
    (hfind : ∀ other job, registry'.find? other = some job → registry.find? other = some job)
    (hended : ∀ other, registry'.ended? other = if other = id then some summary else registry.ended? other) :
    registry'.Upholds law (accepted ++ [(id, submission)]) where
  live other job hjob :=
    (h.mono (List.subset_append_left _ _)).live other job (hfind other job hjob)
  ended other filed hfiled := by
    rw [hended] at hfiled
    split at hfiled
    · rename_i heq
      cases hfiled
      exact ⟨submission, by simp [heq], hlaw⟩
    · exact (h.mono (List.subset_append_left _ _)).ended other filed hfiled
  filed other filed hfiled := by
    rw [hended] at hfiled
    split at hfiled
    · rename_i heq
      cases hfiled
      exact hid.trans heq.symm
    · exact h.filed other filed hfiled

end Steps

theorem upholds_empty (law : Law) : Registry.empty.Upholds law [] where
  live id job hjob := by cases hjob
  ended id summary hsummary := by cases hsummary
  filed id summary hsummary := by cases hsummary

end Registry

namespace Scheduler

section Steps

variable {scheduler : Scheduler} (hs : scheduler.Sound) {law : Law} (hlasts : law.Lasts)
  {jobs : List (JobId × Submission)} (h : scheduler.registry.Upholds law jobs)

section Revival

variable {persisted : PersistedJob}
include h

theorem Revival.upholds {answer : Except Fault Unit} {final : Scheduler}
    (hadmits : answer.isOk → law.Admits persisted) (hrevival : scheduler.Revival persisted answer final) :
    final.registry.Upholds law (jobs ++
      (if answer.isOk then [persisted] else []).map fun persisted => (persisted.id, persisted.submission)) := by
  cases hrevival with
  | refused => exact h.mono (List.subset_append_left _ _)
  | @goesOn job hrevive hlive hopen hincomplete =>
      obtain ⟨-, -, hid⟩ := PersistedJob.sound_of_revive hrevive
      have hjoins := h.joins ((hadmits rfl).live job hrevive hincomplete) (scheduler.find?_readmitted job)
        fun _ => rfl
      rw [hid] at hjoins
      exact hjoins
  | @ends job hrevive hlive hopen hcomplete =>
      obtain ⟨-, -, hid⟩ := PersistedJob.sound_of_revive hrevive
      have hclosing := job.closing_id (PersistedJob.endStatus job)
      refine h.files (hclosing.trans hid) ((hadmits rfl).ended job hrevive hcomplete)
        (fun other job' hjob' => ?_) fun other => ?_
      · have hfind := hjob'.symm.trans (scheduler.find?_readmitted_retired job _ other)
        split at hfind
        · cases hfind
        · exact hfind.symm
      · rw [← hid]
        exact (scheduler.readmitted job).ended?_retired job _ other

include hs

theorem upholds_recoverOne
    (hadmits : ∀ taken ∈ List.replicate (recoverOne (0, scheduler) persisted).1 persisted, law.Admits taken) :
    let one := recoverOne (0, scheduler) persisted
    one.2.registry.Upholds law (jobs ++
      (List.replicate one.1 persisted).map fun persisted => (persisted.id, persisted.submission)) := by
  intro one
  rcases SchedulerM.revival_recoverOne hs persisted with ⟨-, hpassed⟩ | ⟨-, answer, final, hrevival, hone⟩
  · simp only [one, hpassed]
    exact h.mono (List.subset_append_left _ _)
  · rw [hone] at hadmits
    have hupholds := hrevival.upholds h fun hok => hadmits persisted (by simp [hok])
    simp only [one, hone]
    cases answer <;> exact hupholds

end Revival

theorem upholds_recover {scheduler : Scheduler} (horderly : scheduler.Orderly)
    {jobs : List (JobId × Submission)} (h : scheduler.registry.Upholds law jobs)
    {records : List PersistedJob}
    (hadmits : ∀ persisted ∈ scheduler.recovered records, law.Admits persisted) :
    (scheduler.recover records).2.registry.Upholds law
      (jobs ++ scheduler.accepted (.recover records)) := by
  suffices hall : ∀ count, (records.foldl recoverOne (count, scheduler)).2.registry.Upholds law
      (jobs ++ scheduler.accepted (.recover records)) from hall 0
  induction records generalizing scheduler jobs with
  | nil => exact fun _ => h.mono (List.subset_append_left _ _)
  | cons first rest ih =>
      intro count
      obtain ⟨hfirst, hrest⟩ := List.forall_mem_append.mp hadmits
      obtain ⟨-, hsame⟩ := recovers_recoverOne horderly.sound first
      have hone := upholds_recoverOne horderly.sound h hfirst
      have hmid : (recoverOne (0, scheduler) first).2.Orderly := orderly_recover [first] horderly
      have hlater := ih hmid hone hrest (recoverOne (count, scheduler) first).1
      have hcount : recoverOne (count, scheduler) first =
          ((recoverOne (count, scheduler) first).1, (recoverOne (0, scheduler) first).2) :=
        Prod.ext rfl (hsame count)
      rw [List.foldl_cons, hcount]
      rw [List.append_assoc, accepted, ← List.map_append] at hlater
      exact hlater

include hs hlasts h

omit hs in
theorem upholds_submit (submission : Submission) :
    (scheduler.run (SchedulerM.submit submission)).2.registry.Upholds law
      (jobs ++ scheduler.accepted (.submit submission)) := by
  cases hjob : LiveJob.new ⟨scheduler.registry.nextId⟩ submission with
  | error fault =>
      rw [run_of_error (SchedulerM.submit_of_refused hjob)]
      exact h.mono (List.subset_append_left _ _)
  | ok job =>
      rw [accepted_of_new hjob, run_of_ok (SchedulerM.submit_of_new hjob)]
      exact h.joins (hlasts.fresh hjob) (scheduler.find?_joined job) fun _ => rfl

theorem Reaction.upholds {event : Event} {answer : Except Fault (List Command)} {final : Scheduler}
    (hevent : ∀ submission, event ≠ .submitted submission)
    (hreaction : scheduler.Reaction event answer final) : final.registry.Upholds law jobs := by
  cases hreaction with
  | refused | ignored => exact h
  | joined heq => exact absurd heq (hevent _)
  | @wentOn job work job' given cancelled hattends hturn hwork =>
      have hkept (submission : Submission) (hlaw : law.live submission job) : law.live submission job' :=
        hlasts.goesOn (hs.live hattends.2) hlaw hattends.1 hturn hwork
      refine h.goesOn hattends.2 hkept (fun id => ?_) fun _ => rfl
      rw [find?_wentOn, hturn.advances.id]
  | @ended job work job' given status cancelled hattends hturn hwork =>
      have hid := hturn.advances.id
      have hclosing : (job'.closing status).id = job.id := (job'.closing_id status).trans hid
      refine h.ends hattends.2 hclosing (fun submission hlaw => ?_) (fun id => ?_) fun id => ?_
      · exact hlasts.ends (hs.live hattends.2) hlaw hattends.1 hturn hwork
      · rw [← hid]
        exact scheduler.find?_closed job' given status id
      · rw [← hid]
        exact scheduler.ended?_closed job' given status id

theorem upholds_handle (policy : Policy) (event : Event) :
    (scheduler.run (SchedulerM.handle event)).2.registry.Upholds law
      (jobs ++ scheduler.accepted (.step policy event)) := by
  by_cases hsubmitted : ∃ submission, event = .submitted submission
  · obtain ⟨submission, rfl⟩ := hsubmitted
    have hsubmit := upholds_submit hlasts h submission
    rw [run_submit] at hsubmit
    exact hsubmit
  · have hother (submission : Submission) : event ≠ .submitted submission := fun heq =>
      hsubmitted ⟨submission, heq⟩
    exact ((SchedulerM.reacts_handle hs event).upholds hs hlasts h hother).mono
      (List.subset_append_left _ _)

theorem Serves.upholds {accepts : Card → Bool} {ids : List JobId} {assignments : List Assignment}
    {final : Scheduler} (hserves : Serves accepts ids scheduler assignments final) :
    final.registry.Upholds law jobs := by
  induction hserves with
  | spent => exact h
  | gone _ _ ih => exact ih (hs.queued _) h
  | @job job _ scheduler _ _ hjob _ ih =>
      refine ih (hs.attended accepts hjob) (h.goesOn hjob (fun submission hlaw => ?_)
        (find?_attended hs accepts hjob) fun _ => rfl)
      exact hlasts.served (hs.live hjob) hlaw accepts scheduler.slots.free

theorem upholds_finishStep (policy : Policy) (commands : List Command) :
    (scheduler.finishStep policy commands).2.registry.Upholds law jobs := by
  obtain ⟨assignments, final, hserves, hfinal, -⟩ := finishStep_eq hs policy commands
  rw [hfinal]
  exact hserves.upholds hs.cleared hlasts h

end Steps

section Perform

variable {scheduler : Scheduler} (horderly : scheduler.Orderly) {law : Law} (hlasts : law.Lasts)
  {jobs : List (JobId × Submission)} (h : scheduler.registry.Upholds law jobs) {operation : Operation}
  (hadmits : ∀ persisted ∈ scheduler.installed operation, law.Admits persisted)
include horderly hlasts h hadmits

theorem upholds_handled : (scheduler.handled operation).registry.Upholds law
    (jobs ++ scheduler.accepted operation) := by
  cases operation with
  | submit submission => exact upholds_submit hlasts h submission
  | recover records => exact upholds_recover horderly h hadmits
  | kickoff policy => exact h.mono (List.subset_append_left _ _)
  | step policy event => exact upholds_handle horderly.sound hlasts h policy event

theorem upholds_perform : (scheduler.perform operation).2.registry.Upholds law
    (jobs ++ scheduler.accepted operation) := by
  have hhandled := upholds_handled horderly hlasts h hadmits
  have hsound := (orderly_handled horderly operation).sound
  cases operation with
  | submit submission => exact hhandled
  | recover records => exact hhandled
  | kickoff policy => exact upholds_finishStep hsound hlasts hhandled policy []
  | step policy event =>
      by_cases hshutdown : event = .shutdown
      · subst hshutdown
        exact hhandled
      · rw [perform, step_of_ne_shutdown policy hshutdown]
        exact upholds_finishStep hsound hlasts hhandled policy _

end Perform

end Scheduler

namespace Ledger

theorem accepted_subset (ledger : Ledger) (operations : List Operation) :
    ledger.accepted ⊆ (operations.foldl perform ledger).accepted := by
  induction operations generalizing ledger with
  | nil => exact List.Subset.refl _
  | cons first rest ih => exact List.Subset.trans (List.subset_append_left _ _) (ih (ledger.perform first))

theorem accepted_of_submit (total : Nat) {submission : Submission} {job : LiveJob}
    (hnew : LiveJob.new ⟨0⟩ submission = .ok job) (rest : List Operation) :
    (job.id, submission) ∈ (of total (.submit submission :: rest)).accepted := by
  have hone : (Scheduler.new total).accepted (.submit submission) = [(job.id, submission)] :=
    Scheduler.accepted_of_new hnew
  have hfirst : (job.id, submission) ∈ (perform ⟨.new total, [], []⟩ (.submit submission)).accepted :=
    List.mem_append_right _ (hone ▸ List.mem_singleton.mpr rfl)
  exact accepted_subset _ rest hfirst

-- Along a run that takes in only records that the law admits, every job obeys the law, also
-- in the middle of an operation, and so does every record that is handed out.
section Run

variable (total : Nat) {law : Law} (hlasts : law.Lasts) {operations : List Operation}
include hlasts

theorem upholds_of_moment
    (hadmits : ∀ persisted ∈ (Scheduler.new total).gathered Scheduler.installed operations,
      law.Admits persisted)
    {moment : Scheduler} (hmoment : moment ∈ (Scheduler.new total).moments operations) :
    moment.registry.Upholds law (of total operations).accepted := by
  suffices hall : ∀ ledger : Ledger, ledger.scheduler.Orderly →
      ledger.scheduler.registry.Upholds law ledger.accepted →
      (∀ persisted ∈ ledger.scheduler.gathered Scheduler.installed operations, law.Admits persisted) →
      moment ∈ ledger.scheduler.moments operations →
      moment.registry.Upholds law (operations.foldl perform ledger).accepted from
    hall _ (Scheduler.orderly_new total) (Registry.upholds_empty law) hadmits hmoment
  clear hmoment hadmits
  induction operations with
  | nil =>
      intro ledger _ h _ hmoment
      rw [List.mem_singleton.mp hmoment]
      exact h
  | cons first rest ih =>
      intro ledger horderly h hadmits hmoment
      obtain ⟨hfirst, hrest⟩ := List.forall_mem_append.mp hadmits
      have hlater := accepted_subset (ledger.perform first) rest
      rcases List.mem_cons.mp hmoment with rfl | hmoment
      · exact h.mono (List.Subset.trans (List.subset_append_left _ _) hlater)
      · rcases List.mem_cons.mp hmoment with rfl | hmoment
        · exact (Scheduler.upholds_handled horderly hlasts h hfirst).mono hlater
        · exact ih _ (Scheduler.orderly_perform horderly first)
            (Scheduler.upholds_perform horderly hlasts h hfirst) hrest hmoment

theorem upholds_records
    (hadmits : ∀ persisted ∈ (Scheduler.new total).gathered Scheduler.installed operations,
      law.Admits persisted) :
    let ledger := of total operations
    ∀ summary ∈ Command.records (ledger.given ++ ledger.scheduler.pending),
      ∃ submission, (summary.id, submission) ∈ ledger.accepted ∧ law.ended submission summary := by
  suffices hall : ∀ ledger : Ledger, ledger.Tidy →
      ledger.scheduler.registry.Upholds law ledger.accepted →
      (∀ persisted ∈ ledger.scheduler.gathered Scheduler.installed operations, law.Admits persisted) →
      (∀ summary ∈ Command.records (ledger.given ++ ledger.scheduler.pending),
        ∃ submission, (summary.id, submission) ∈ ledger.accepted ∧ law.ended submission summary) →
      let final := operations.foldl perform ledger
      ∀ summary ∈ Command.records (final.given ++ final.scheduler.pending),
        ∃ submission, (summary.id, submission) ∈ final.accepted ∧ law.ended submission summary from
    hall _ (tidy_new total) (Registry.upholds_empty law) hadmits fun summary hsummary => by cases hsummary
  clear hadmits
  induction operations with
  | nil => exact fun _ _ _ _ h => h
  | cons first rest ih =>
      intro ledger htidy h hadmits hold
      obtain ⟨hfirst, hrest⟩ := List.forall_mem_append.mp hadmits
      obtain ⟨htidy', newly, hfiles, hrecords⟩ := htidy.perform first
      have hhandled := Scheduler.upholds_handled htidy.orderly hlasts h hfirst
      refine ih _ htidy' (Scheduler.upholds_perform htidy.orderly hlasts h hfirst) hrest ?_
      rw [hrecords, List.forall_mem_append]
      refine ⟨fun summary hsummary => ?_, fun summary hsummary => ?_⟩
      · obtain ⟨submission, hmem, hlaw⟩ := hold summary hsummary
        exact ⟨submission, List.mem_append_left _ hmem, hlaw⟩
      · exact hhandled.ended summary.id summary (hfiles.ended summary hsummary)

end Run

-- Every live job carries out what was accepted under its id.
theorem carriesOut_reached (total : Nat) (operations : List Operation) {id : JobId} {job : LiveJob}
    (hjob : ((Scheduler.new total).reached operations).registry.find? id = some job) :
    ∃ submission, job.CarriesOut submission := by
  have hadmits (persisted : PersistedJob) : Law.carriesOut.Admits persisted :=
    ⟨fun _ hrevive _ => PersistedJob.carriesOut_of_revive hrevive, fun _ _ _ => trivial⟩
  obtain ⟨submission, -, hcarries⟩ := (upholds_of_moment total Law.lasts_carriesOut
    (fun persisted _ => hadmits persisted) (Scheduler.reached_mem_moments _ operations)).live id job hjob
  exact ⟨submission, hcarries⟩

end Ledger

namespace Scheduler

-- The job with this id is live and obeys the law, or it has ended and its record does.
def Obeys (scheduler : Scheduler) (law : Law) (id : JobId) (submission : Submission) : Prop :=
  (∃ job, scheduler.registry.find? id = some job ∧ law.live submission job) ∨
    ∃ summary, scheduler.registry.ended? id = some summary ∧ law.ended submission summary

-- The same of a job that is the only one with its id.
def Stands (scheduler : Scheduler) (law : Law) (id : JobId) (submission : Submission) : Prop :=
  (∃ job, scheduler.registry.find? id = some job ∧ scheduler.registry.ended? id = none ∧
      law.live submission job) ∨
    ∃ summary, scheduler.registry.find? id = none ∧ scheduler.registry.ended? id = some summary ∧
      law.ended submission summary

section Steps

variable {scheduler : Scheduler} {law : Law} {id : JobId} {submission : Submission}
  (h : scheduler.Stands law id submission)
include h

theorem Stands.obeys : scheduler.Obeys law id submission := by
  rcases h with ⟨job, hjob, -, hlaw⟩ | ⟨summary, -, hsummary, hlaw⟩
  · exact .inl ⟨job, hjob, hlaw⟩
  · exact .inr ⟨summary, hsummary, hlaw⟩

-- What becomes of other jobs makes no difference.
theorem Stands.of_same {final : Scheduler} (hfind : final.registry.find? id = scheduler.registry.find? id)
    (hended : final.registry.ended? id = scheduler.registry.ended? id) : final.Stands law id submission := by
  unfold Stands
  rw [hfind, hended]
  exact h

theorem Stands.joins {job : LiveJob} {final : Scheduler} (hne : id ≠ job.id)
    (hfind : ∀ id, final.registry.find? id = if id = job.id then some job else scheduler.registry.find? id)
    (hkept : ∀ id, final.registry.ended? id = scheduler.registry.ended? id) : final.Stands law id submission :=
  h.of_same ((hfind id).trans (if_neg hne)) (hkept id)

-- A job is recovered under an id that is free.
theorem Stands.ne_of_free {other : JobId} (hlive : scheduler.registry.find? other = none)
    (hended : scheduler.registry.ended? other = none) : id ≠ other := by
  rintro rfl
  rcases h with ⟨job, hjob, -⟩ | ⟨summary, -, hsummary, -⟩
  · rw [hlive] at hjob
    cases hjob
  · rw [hended] at hsummary
    cases hsummary

theorem Revival.stands {persisted : PersistedJob} {answer : Except Fault Unit} {final : Scheduler}
    (hrevival : scheduler.Revival persisted answer final) : final.Stands law id submission := by
  cases hrevival with
  | refused => exact h
  | @goesOn job _ hlive hended _ =>
      exact h.joins (h.ne_of_free hlive hended) (scheduler.find?_readmitted job) fun _ => rfl
  | @ends job _ hlive hended _ =>
      have hne := h.ne_of_free hlive hended
      exact h.of_same ((scheduler.find?_readmitted_retired job _ id).trans (if_neg hne))
        (((scheduler.readmitted job).ended?_retired job _ id).trans (if_neg hne))

theorem Stands.goesOn {job job' : LiveJob} {final : Scheduler}
    (hjob : scheduler.registry.find? job.id = some job)
    (hkept : law.live submission job → law.live submission job')
    (hfind : ∀ id, final.registry.find? id = if id = job.id then some job' else scheduler.registry.find? id)
    (hended : ∀ id, final.registry.ended? id = scheduler.registry.ended? id) :
    final.Stands law id submission := by
  by_cases heq : id = job.id
  · subst heq
    rcases h with ⟨other, hother, hopen, hlaw⟩ | ⟨summary, hgone, -⟩
    · rw [hjob, Option.some.injEq] at hother
      subst hother
      exact .inl ⟨job', (hfind job.id).trans (if_pos rfl), (hended job.id).trans hopen, hkept hlaw⟩
    · rw [hjob] at hgone
      cases hgone
  · exact h.of_same ((hfind id).trans (if_neg heq)) (hended id)

theorem Stands.submit {other : Submission} (hgone : id ∉ scheduler.gives (.submit other)) :
    (scheduler.run (SchedulerM.submit other)).2.Stands law id submission := by
  cases hjob : LiveJob.new ⟨scheduler.registry.nextId⟩ other with
  | error fault =>
      rw [run_of_error (SchedulerM.submit_of_refused hjob)]
      exact h
  | ok job =>
      have hne := (ne_of_mem_of_not_mem (id_mem_gives hjob) hgone).symm
      rw [run_of_ok (SchedulerM.submit_of_new hjob)]
      exact h.joins hne (scheduler.find?_joined job) fun _ => rfl

variable (hs : scheduler.Sound)
include hs

theorem Stands.recover (jobs : List PersistedJob) : (scheduler.recover jobs).2.Stands law id submission := by
  have hstep (scheduler : Scheduler) (persisted : PersistedJob) (answer : Except Fault Unit) (final : Scheduler)
      (hboth : scheduler.Sound ∧ scheduler.Stands law id submission)
      (hrevival : scheduler.Revival persisted answer final) :
      final.Sound ∧ final.Stands law id submission := by
    have hleads : Leads .any scheduler final :=
      hrevival.leads hboth.1 (fun _ _ => trivial) fun _ => trivial
    exact ⟨(hleads.sound hboth.1).1, hrevival.stands hboth.2⟩
  exact (@recover_induction (fun scheduler => scheduler.Sound ∧ scheduler.Stands law id submission) jobs
    (fun _ hboth => hboth.1) (fun persisted _ scheduler => hstep scheduler persisted) (0, scheduler) ⟨hs, h⟩).2

variable (hendures : law.Endures)
include hendures

theorem Stands.handle {policy : Policy} {event : Event} (hgone : id ∉ scheduler.gives (.step policy event)) :
    (scheduler.run (SchedulerM.handle event)).2.Stands law id submission := by
  have hreaction := SchedulerM.reacts_handle hs event
  generalize (scheduler.run (SchedulerM.handle event)).1 = answer,
    (scheduler.run (SchedulerM.handle event)).2 = final at hreaction
  cases hreaction with
  | refused | ignored => exact h
  | @joined other job hevent hnew =>
      subst hevent
      have hne := (ne_of_mem_of_not_mem (id_mem_gives hnew) hgone).symm
      exact h.joins hne (scheduler.find?_joined job) fun _ => rfl
  | @wentOn job work job' given cancelled hattends hturn hwork =>
      have hkept (hlaw : law.live submission job) : law.live submission job' :=
        hendures.goesOn (hs.live hattends.2) hlaw hattends.1 hturn hwork
      refine h.goesOn hattends.2 hkept (fun id => ?_) fun _ => rfl
      rw [find?_wentOn, hturn.advances.id]
  | @ended job work job' given status cancelled hattends hturn hwork =>
      have hfind := scheduler.find?_closed job' given status id
      have hfiled := scheduler.ended?_closed job' given status id
      rw [hturn.advances.id] at hfind hfiled
      by_cases heq : id = job.id
      · subst heq
        rcases h with ⟨other, hother, -, hlaw⟩ | ⟨summary, hgone, -⟩
        · rw [hattends.2, Option.some.injEq] at hother
          subst hother
          refine .inr ⟨_, hfind.trans (if_pos rfl), hfiled.trans (if_pos rfl), ?_⟩
          exact hendures.ends (hs.live hattends.2) hlaw hattends.1 hturn hwork
        · rw [hattends.2] at hgone
          cases hgone
      · exact h.of_same (hfind.trans (if_neg heq)) (hfiled.trans (if_neg heq))

theorem Serves.stands {accepts : Card → Bool} {ids : List JobId} {assignments : List Assignment}
    {final : Scheduler} (hserves : Serves accepts ids scheduler assignments final) :
    final.Stands law id submission := by
  induction hserves with
  | spent => exact h
  | gone _ _ ih => exact ih (h.of_same rfl rfl) (hs.queued _)
  | @job job _ scheduler _ _ hjob _ ih =>
      refine ih (h.goesOn hjob (fun hlaw => ?_) (find?_attended hs accepts hjob) fun _ => rfl)
        (hs.attended accepts hjob)
      exact hendures.served (hs.live hjob) hlaw accepts scheduler.slots.free

theorem Stands.finishStep (policy : Policy) (commands : List Command) :
    (scheduler.finishStep policy commands).2.Stands law id submission := by
  obtain ⟨assignments, final, hserves, hfinal, -⟩ := finishStep_eq hs policy commands
  have hcleared : Stands { scheduler with pending := [] } law id submission := h.of_same rfl rfl
  rw [hfinal]
  exact hserves.stands hcleared hs.cleared hendures

section Perform

variable {operation : Operation} (hgone : id ∉ scheduler.gives operation)
include hgone

theorem Stands.handled : (scheduler.handled operation).Stands law id submission := by
  cases operation with
  | submit other => exact h.submit hgone
  | recover jobs => exact h.recover hs jobs
  | kickoff policy => exact h
  | step policy event => exact h.handle hs hendures hgone

theorem Stands.perform : (scheduler.perform operation).2.Stands law id submission := by
  have hhandled := h.handled hs hendures hgone
  have hsound := ((performs_any hs operation).handled.sound hs).1
  cases operation with
  | submit other => exact hhandled
  | recover jobs => exact hhandled
  | kickoff policy => exact hhandled.finishStep hsound hendures policy []
  | step policy event =>
      by_cases hshutdown : event = .shutdown
      · subst hshutdown
        exact hhandled.of_same rfl rfl
      · rw [Scheduler.perform, step_of_ne_shutdown policy hshutdown]
        exact hhandled.finishStep hsound hendures policy _

end Perform

-- A job that obeys the law at one moment obeys it from then on, whatever drives its
-- scheduler, as long as its id is not given again.
theorem Stands.moment {operations : List Operation} (hgone : id ∉ scheduler.ids operations)
    {moment : Scheduler} (hmoment : moment ∈ scheduler.moments operations) :
    moment.Obeys law id submission := by
  induction operations generalizing scheduler with
  | nil =>
      rw [List.mem_singleton.mp hmoment]
      exact h.obeys
  | cons first rest ih =>
      obtain ⟨hfirst, hrest⟩ := not_or.mp (mt List.mem_append.mpr hgone)
      rcases List.mem_cons.mp hmoment with rfl | hmoment
      · exact h.obeys
      · rcases List.mem_cons.mp hmoment with rfl | hmoment
        · exact (h.handled hs hendures hfirst).obeys
        · have hsound := ((performs_any hs first).leads.sound hs).1
          exact ih (h.perform hs hendures hfirst) hsound hrest hmoment

end Steps

end Scheduler

end JobScheduler
