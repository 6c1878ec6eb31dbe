import JobScheduler.Proofs.Scheduler.Run

namespace JobScheduler

namespace LiveJob

-- Every task that is named among those another one comes after is done, unless that one is
-- blocked.
theorem done_of_after {job : LiveJob} (hs : job.Sound) {id : TaskId} {card : Card}
    (hcard : job.board.card id = .ok card) (hplace : card.place ≠ .blocked) :
    ∃ declared, job.submission.tasks[id.index]? = some declared ∧ ∀ name ∈ declared.after,
      (∃ parent ∈ job.submission.tasks, parent.name = name) ∧
      ∀ (index : Nat) (parent : Submission.Task), job.submission.tasks[index]? = some parent →
        parent.name = name → job.board.placeOf ⟨job.id, index⟩ = .ok .done := by
  have hindex := (Board.card_eq_ok_iff.mp hcard).2
  have hplanned := Submission.getElem?_of_resolve hs.resolved id.index
  rw [List.getElem?_map, hindex] at hplanned
  cases hdeclared : job.submission.tasks[id.index]? with
  | none => simp [hdeclared] at hplanned
  | some declared =>
      rw [hdeclared, Option.map_some, Option.map_some, Option.some.injEq] at hplanned
      have hmem := List.mem_of_getElem? hdeclared
      refine ⟨declared, rfl, fun name hname => ⟨Submission.declared_of_after hs.resolved hmem hname,
        fun index parent hparent heq => hs.board.parents_done hs.goesOn hcard hplace ?_⟩⟩
      have hkind : job.board.kind = .taskFlow := by
        cases hkind : job.board.kind with
        | taskFlow => rfl
        | singleTask =>
            have hnone := Submission.after_of_singleTask hs.resolved (hs.kind ▸ hkind) hmem
            rw [hnone] at hname
            cases hname
      rw [hs.board.wired.parents card (Board.Wired.mem_of_card hcard), if_pos hkind, hplanned]
      exact Submission.mem_dependencyIds_of_after hs.resolved hname hparent heq

end LiveJob

namespace Scheduler

-- All tasks that a task is declared to come after exist and have terminated.
def ParentsTerminated (scheduler : Scheduler) (task : TaskId) : Prop :=
  ∃ job declared, scheduler.registry.find? task.job = some job ∧
    job.submission.tasks[task.index]? = some declared ∧ ∀ name ∈ declared.after,
      (∃ parent ∈ job.submission.tasks, parent.name = name) ∧
      ∀ (index : Nat) (parent : Submission.Task), job.submission.tasks[index]? = some parent →
        parent.name = name →
        ∃ status, scheduler.taskStatus? ⟨task.job, index⟩ = some status ∧ status.isTerminated

-- A task has terminated, be it that its job has not ended or that it has.
def HasTerminated (scheduler : Scheduler) (task : TaskId) : Prop :=
  (scheduler.registry.ended? task.job).isSome ∨
    ∃ status, scheduler.taskStatus? task = some status ∧ status.isTerminated

theorem taskStatus?_of_find? {scheduler : Scheduler} {job : LiveJob} {task : TaskId}
    (h : scheduler.registry.find? task.job = some job) :
    scheduler.taskStatus? task = job.statusOf? task := by
  rw [taskStatus?, h, Option.bind_some]

-- Tasks that have terminated stay so.
theorem ParentsTerminated.keeps {a b : Scheduler} (ha : a.Sound) {task : TaskId}
    (h : a.ParentsTerminated task) (hkeeps : a.Keeps b) : b.ParentsTerminated task := by
  obtain ⟨job, declared, hjob, hdeclared, hafter⟩ := h
  obtain ⟨job', hjob', hadvances⟩ := hkeeps task.job job hjob
  have hid := (ha.jobs task.job job hjob).1
  refine ⟨job', declared, hjob', by rw [hadvances.tasks, hdeclared], fun name hname => ?_⟩
  obtain ⟨hexists, hall⟩ := hafter name hname
  rw [hadvances.tasks]
  refine ⟨hexists, fun index parent hparent heq => ?_⟩
  obtain ⟨status, hstatus, hterminated⟩ := hall index parent hparent heq
  rw [taskStatus?, hjob, Option.bind_some] at hstatus
  refine ⟨status, ?_, hterminated⟩
  rw [taskStatus?, hjob', Option.bind_some]
  exact hadvances.terminated _ status hid.symm hstatus hterminated

-- Where nothing has terminated since, they had terminated before.
theorem ParentsTerminated.spares {a b : Scheduler} {task : TaskId} (h : b.ParentsTerminated task)
    (hspares : a.Spares b) : a.ParentsTerminated task := by
  obtain ⟨job', declared, hjob', hdeclared, hafter⟩ := h
  obtain ⟨job, hjob, hadvances, hspared⟩ := hspares task.job job' hjob'
  rw [hadvances.tasks] at hdeclared
  refine ⟨job, declared, hjob, hdeclared, fun name hname => ?_⟩
  obtain ⟨hexists, hall⟩ := hafter name hname
  rw [hadvances.tasks] at hexists hall
  refine ⟨hexists, fun index parent hparent heq => ?_⟩
  obtain ⟨status, hstatus, hterminated⟩ := hall index parent hparent heq
  rw [taskStatus?, hjob', Option.bind_some] at hstatus
  refine ⟨status, ?_, hterminated⟩
  rw [taskStatus?, hjob, Option.bind_some]
  exact hspared _ status hstatus hterminated

theorem HasTerminated.later {a b : Scheduler} (ha : a.Sound) {task : TaskId}
    (h : a.HasTerminated task) (hlater : a.Later b) : b.HasTerminated task := by
  rcases h with hended | ⟨status, hstatus, hterminated⟩
  · exact .inl (hlater.ended task.job hended)
  · rw [taskStatus?, Option.bind_eq_some_iff] at hstatus
    obtain ⟨job, hjob, hstatus⟩ := hstatus
    rcases hlater.live task.job job hjob with ⟨job', hjob', hadvances⟩ | hended
    · have hid := (ha.jobs task.job job hjob).1
      refine .inr ⟨status, ?_, hterminated⟩
      rw [taskStatus?_of_find? hjob']
      exact hadvances.terminated task status hid.symm hstatus hterminated
    · exact .inl hended

end Scheduler

end JobScheduler
