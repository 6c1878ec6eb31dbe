import JobScheduler.Proofs.Desk.Stops
import JobScheduler.Proofs.Scheduler.React
import JobScheduler.Proofs.Scheduler.Run

namespace JobScheduler

-- The tasks that a command stops.
def Command.cancelled : Command → List TaskId
  | .cancel tasks => tasks
  | .dispatch _ | .ended _ | .exit => []

@[simp] theorem Command.flatMap_cancelled_cancelling (tasks : List TaskId) :
    (cancelling tasks).flatMap cancelled = tasks := by
  cases tasks with
  | nil => rfl
  | cons first rest => exact List.append_nil _

theorem Event.work?_of_reported {event : Event} {task : TaskId} (h : task ∈ event.reported) :
    ∃ work, event.work? = some (task.job, work) := by
  cases event with
  | completed other result =>
      obtain rfl := List.mem_singleton.mp h
      exact ⟨_, rfl⟩
  | lost other =>
      obtain rfl := List.mem_singleton.mp h
      exact ⟨_, rfl⟩
  | submitted | pause | resume | kill | killTask | restart | finish | priority | shutdown => cases h

namespace LiveJob

-- A report about a task that runs is taken up.
theorem accepts_report {job : LiveJob} (hs : job.Sound) {event : Event} {id : JobId}
    {work : DeskM Fate} (hwork : event.work? = some (id, work)) {task : TaskId}
    (h : task ∈ event.reported) (hrunning : job.board.placeOf task = .ok .running) (slots : Slots) :
    ∃ fate desk, work ⟨job, slots⟩ = .ok fate desk := by
  obtain ⟨card, hcard, hplace⟩ := Board.placeOf_eq_ok_iff.mp hrunning
  cases event with
  | completed other result =>
      obtain rfl := List.mem_singleton.mp h
      cases hwork
      by_cases hretry : result.hadException ∧ job.mayRetry task card
      · exact ⟨_, _, DeskM.taskCompleted_of_retry slots result hcard hplace hretry.1 hretry.2⟩
      · by_cases hheld : result.hadException ∧ job.submission.pauseOnError
        · exact ⟨_, _, DeskM.taskCompleted_of_held slots result hcard hplace hheld.1
            (fun hmay => hretry ⟨hheld.1, hmay⟩) hheld.2⟩
        · obtain ⟨ended, hended⟩ := DeskM.finish_of_card hs task hcard
          rw [hplace] at hended
          exact ⟨_, _, DeskM.taskCompleted_of_end slots result hcard hplace hs hretry hheld hended⟩
  | lost other =>
      obtain rfl := List.mem_singleton.mp h
      cases hwork
      exact ⟨_, _, DeskM.taskLost_of_running slots hcard hplace⟩
  | submitted | pause | resume | kill | killTask | restart | finish | priority | shutdown => cases h

-- An event that leaves a job alone reports on nothing that runs.
theorem Outcome.not_running_of_untouched {job job' : LiveJob} {event : Event}
    (h : job.Outcome event .untouched job') {task : TaskId} (htask : task ∈ event.reported) :
    job.board.placeOf task ≠ .ok .running := by
  generalize hfate : Fate.untouched = fate at h
  cases h with
  | untouched hnot => exact hnot task htask
  | concluded | killed | finished =>
      unfold Fate.next at hfate
      split at hfate <;> cases hfate
  | retried | heldInError | canceled | lost | held | resumed | dropped | restarted
    | reprioritized => cases hfate

end LiveJob

namespace Scheduler

def card? (scheduler : Scheduler) (task : TaskId) : Option Card :=
  (scheduler.registry.find? task.job).bind fun job => (job.board.card task).toOption

-- The task is a running one of a live job.
def Runs (scheduler : Scheduler) (task : TaskId) : Prop :=
  ∃ job, scheduler.registry.find? task.job = some job ∧ task ∈ job.board.running.toList

section Lookup

variable {scheduler scheduler' : Scheduler} {task : TaskId} {job : LiveJob}

theorem card?_eq_some_iff {card : Card} :
    scheduler.card? task = some card ↔
      ∃ job, scheduler.registry.find? task.job = some job ∧ job.board.card task = .ok card := by
  rw [card?, Option.bind_eq_some_iff]
  refine exists_congr fun job => and_congr_right fun _ => ?_
  cases job.board.card task <;> simp [Except.toOption]

theorem card?_congr (h : scheduler'.registry.find? task.job = scheduler.registry.find? task.job) :
    scheduler'.card? task = scheduler.card? task := by
  rw [card?, card?, h]

theorem runs_congr (h : scheduler'.registry.find? task.job = scheduler.registry.find? task.job) :
    scheduler'.Runs task ↔ scheduler.Runs task := by
  rw [Runs, Runs, h]

theorem not_runs_of_none (h : scheduler.registry.find? task.job = none) : ¬scheduler.Runs task := by
  rintro ⟨job, hjob, -⟩
  rw [h] at hjob
  cases hjob

variable (hs : scheduler.Sound)
include hs

theorem runs_of_find? (hjob : scheduler.registry.find? task.job = some job) :
    scheduler.Runs task ↔ job.board.placeOf task = .ok .running := by
  rw [Runs, hjob, ← (hs.jobs _ _ hjob).2.board.partitioned.mem_running_iff]
  simp

theorem runs_iff : scheduler.Runs task ↔
    ∃ card, scheduler.card? task = some card ∧ card.place = .running := by
  simp only [card?_eq_some_iff]
  constructor
  · rintro ⟨job, hjob, htask⟩
    obtain ⟨card, hcard, hplace⟩ := Board.placeOf_eq_ok_iff.mp
      ((hs.jobs _ _ hjob).2.board.partitioned.mem_running_iff.mp htask)
    exact ⟨card, ⟨job, hjob, hcard⟩, hplace⟩
  · rintro ⟨card, ⟨job, hjob, hcard⟩, hplace⟩
    exact (runs_of_find? hs hjob).mpr (Board.placeOf_eq_ok_iff.mpr ⟨card, hcard, hplace⟩)

omit hs in
theorem number_lt_of_card? (hcounted : scheduler.Counted) {card : Card}
    (hcard : scheduler.card? task = some card) : task.job.number < scheduler.registry.nextId := by
  obtain ⟨job, hjob, -⟩ := card?_eq_some_iff.mp hcard
  refine hcounted.used _ (.inl ?_)
  rw [hjob]
  rfl

-- The report of a running task reaches the desk of its job.
theorem Runs.attends (hruns : scheduler.Runs task) {event : Event} (hreported : task ∈ event.reported) :
    ∃ job work, scheduler.Attends event job work ∧ task.job = job.id ∧
      job.board.placeOf task = .ok .running := by
  obtain ⟨job, hjob, -⟩ := id hruns
  obtain ⟨hid, -⟩ := hs.jobs _ job hjob
  obtain ⟨work, hwork⟩ := Event.work?_of_reported hreported
  exact ⟨job, work, ⟨hid ▸ hwork, hid ▸ hjob⟩, hid.symm, (runs_of_find? hs hjob).mp hruns⟩

end Lookup

-- What handling an event does to the tasks. Those that it reports or stops run no more,
-- those that it stops will not run again, and none is looked at to be started.
structure Halts (scheduler scheduler' : Scheduler) (reported stopped : List TaskId) : Prop where
  gone : ∀ id, id.number < scheduler.registry.nextId → scheduler.registry.find? id = none →
    scheduler'.registry.find? id = none
  card : ∀ task card, task.job.number < scheduler.registry.nextId → scheduler.card? task = some card →
    scheduler'.registry.find? task.job = none ∨
      ∃ card', scheduler'.card? task = some card' ∧ card'.attempts = card.attempts ∧
        (card.place = .done → card'.place = .done)
  runs : ∀ task, scheduler'.Runs task ↔
    (scheduler.Runs task ∧ task ∉ reported) ∧ task ∉ stopped
  nodup : stopped.Nodup
  stopped : ∀ task ∈ stopped, (scheduler.Runs task ∧ task ∉ reported) ∧
    ∀ card', scheduler'.card? task = some card' → card'.place = .done

theorem Halts.of_unchanged {scheduler : Scheduler} {reported : List TaskId}
    (h : ∀ task ∈ reported, ¬scheduler.Runs task) : scheduler.Halts scheduler reported [] where
  gone _ _ hnone := hnone
  card task card _ hcard := .inr ⟨card, hcard, rfl, fun hdone => hdone⟩
  runs task := by
    simp only [List.not_mem_nil, not_false_eq_true, and_true]
    exact ⟨fun hruns => ⟨hruns, fun hmem => h task hmem hruns⟩, And.left⟩
  nodup := List.nodup_nil
  stopped task htask := by cases htask

section Attended

variable {scheduler scheduler' : Scheduler} (hs : scheduler.Sound) {event : Event} {job job' : LiveJob}
  {work : DeskM Fate} {fate : Fate} {given : Nat} (hattends : scheduler.Attends event job work)
  (hwork : work ⟨job, scheduler.slots⟩ = .ok fate ⟨job', scheduler.slots.regain given⟩)
include hs hattends hwork

-- The tasks that an event reports or cancels are of the job that it is about.
theorem job_of_reported_or_cancelled {task : TaskId} (h : task ∈ event.reported ++ fate.cancelled) :
    task.job = job.id := by
  rcases List.mem_append.mp h with hreported | hcancelled
  · obtain ⟨work', hwork'⟩ := Event.work?_of_reported hreported
    rw [hattends.1, Option.some.injEq, Prod.mk.injEq] at hwork'
    exact hwork'.1.symm
  · have houtcome := LiveJob.outcome_of_work? (hs.live hattends.2) hattends.1 rfl hwork
    exact Board.job_eq_of_placeOf (houtcome.of_cancelled (hs.live hattends.2) hcancelled).2.2.1

variable (hsound' : job'.Sound)
include hsound'

theorem halts_of_goesOn (hfind : ∀ id, scheduler'.registry.find? id =
      if id = job.id then some job' else scheduler.registry.find? id) :
    scheduler.Halts scheduler' event.reported fate.cancelled := by
  have hsound := hs.live hattends.2
  have houtcome := LiveJob.outcome_of_work? hsound hattends.1 rfl hwork
  have hstops : job.board.Stops job'.board (event.reported ++ fate.cancelled) := houtcome.stops hsound
  have hown {task : TaskId} (htask : task.job = job.id) :
      scheduler.registry.find? task.job = some job ∧ scheduler'.registry.find? task.job = some job' := by
    rw [hfind, htask, if_pos rfl]
    exact ⟨hattends.2, rfl⟩
  have hother {task : TaskId} (htask : task.job ≠ job.id) :
      scheduler'.registry.find? task.job = scheduler.registry.find? task.job := by
    rw [hfind, if_neg htask]
  have hdone {task : TaskId} (htask : task.job = job.id) {card' : Card}
      (hcard' : scheduler'.card? task = some card') (h : job'.board.placeOf task = .ok .done) :
      card'.place = .done := by
    obtain ⟨other, hjob', hok⟩ := card?_eq_some_iff.mp hcard'
    rw [(hown htask).2, Option.some.injEq] at hjob'
    subst hjob'
    rw [Board.placeOf_of_card hok] at h
    exact Except.ok.inj h
  refine ⟨fun id _ hnone => ?_, fun task card _ hcard => ?_, fun task => ?_,
    houtcome.nodup_cancelled hsound, fun task htask => ?_⟩
  · have hne : id ≠ job.id := fun heq => by
      rw [heq, hattends.2] at hnone
      cases hnone
    rw [hfind, if_neg hne, hnone]
  · refine .inr ?_
    by_cases htask : task.job = job.id
    · obtain ⟨other, hjob, hok⟩ := card?_eq_some_iff.mp hcard
      rw [(hown htask).1, Option.some.injEq] at hjob
      subst hjob
      obtain ⟨card', hok', hattempts⟩ := Board.attempts_of_card hstops.same hstops.attempts hok
      have hcard' := card?_eq_some_iff.mpr ⟨job', (hown htask).2, hok'⟩
      exact ⟨card', hcard', hattempts, fun hplace =>
        hdone htask hcard' (hstops.done task (Board.placeOf_eq_ok_iff.mpr ⟨card, hok, hplace⟩))⟩
    · exact ⟨card, (card?_congr (hother htask)).trans hcard, rfl, fun hplace => hplace⟩
  · by_cases htask : task.job = job.id
    · have hrunning : scheduler'.Runs task ↔ job'.board.placeOf task = .ok .running := by
        rw [Runs, (hown htask).2, ← hsound'.board.partitioned.mem_running_iff]
        simp
      rw [hrunning, runs_of_find? hs (hown htask).1, hstops.running, List.mem_append, not_or, and_assoc]
    · have hnone : task ∉ event.reported ++ fate.cancelled := fun hmem =>
        htask (job_of_reported_or_cancelled hs hattends hwork hmem)
      rw [List.mem_append, not_or] at hnone
      rw [runs_congr (hother htask)]
      simp [hnone]
  · have hjob := job_of_reported_or_cancelled hs hattends hwork (List.mem_append_right _ htask)
    obtain ⟨-, hreported, hrunning, hover⟩ := houtcome.of_cancelled hsound htask
    exact ⟨⟨(runs_of_find? hs (hown hjob).1).mpr hrunning, by simp [hreported]⟩,
      fun card' hcard' => hdone hjob hcard' hover⟩

-- A job that ends takes all its running tasks with it.
theorem halts_of_ends (hfind : ∀ id, scheduler'.registry.find? id =
      if id = job.id then none else scheduler.registry.find? id) :
    scheduler.Halts scheduler' event.reported (fate.cancelled ++ job'.board.running.toList) := by
  have hsound := hs.live hattends.2
  have houtcome := LiveJob.outcome_of_work? hsound hattends.1 rfl hwork
  have hstops : job.board.Stops job'.board (event.reported ++ fate.cancelled) := houtcome.stops hsound
  have hrunning (task : TaskId) : task ∈ job'.board.running.toList ↔
      job.board.placeOf task = .ok .running ∧ task ∉ event.reported ∧ task ∉ fate.cancelled := by
    rw [hsound'.board.partitioned.mem_running_iff, hstops.running, List.mem_append, not_or]
  have hother {task : TaskId} (htask : task.job ≠ job.id) :
      scheduler'.registry.find? task.job = scheduler.registry.find? task.job := by
    rw [hfind, if_neg htask]
  have hgone {task : TaskId} (htask : task.job = job.id) :
      scheduler'.registry.find? task.job = none := by
    rw [hfind, if_pos htask]
  have hruns {task : TaskId} (htask : task.job = job.id) :
      scheduler.Runs task ↔ job.board.placeOf task = .ok .running := by
    refine runs_of_find? hs ?_
    rw [htask]
    exact hattends.2
  have hjob {task : TaskId} (htask : task ∈ fate.cancelled ++ job'.board.running.toList) :
      task.job = job.id ∧ job.board.placeOf task = .ok .running ∧ task ∉ event.reported := by
    rcases List.mem_append.mp htask with hcancelled | hleft
    · obtain ⟨-, hreported, hplace, -⟩ := houtcome.of_cancelled hsound hcancelled
      exact ⟨Board.job_eq_of_placeOf hplace, hplace, by simp [hreported]⟩
    · obtain ⟨hplace, hreported, -⟩ := (hrunning task).mp hleft
      exact ⟨Board.job_eq_of_placeOf hplace, hplace, hreported⟩
  refine ⟨fun id _ hnone => ?_, fun task card _ hcard => ?_, fun task => ?_, ?_, fun task htask => ?_⟩
  · rw [hfind]
    split
    · rfl
    · exact hnone
  · by_cases htask : task.job = job.id
    · exact .inl (hgone htask)
    · exact .inr ⟨card, (card?_congr (hother htask)).trans hcard, rfl, fun hplace => hplace⟩
  · by_cases htask : task.job = job.id
    · refine iff_of_false (not_runs_of_none (hgone htask)) fun ⟨⟨hlive, hreported⟩, hleft⟩ => ?_
      rw [List.mem_append, not_or] at hleft
      exact hleft.2 ((hrunning task).mpr ⟨(hruns htask).mp hlive, hreported, hleft.1⟩)
    · have hnone : task ∉ event.reported := fun hmem =>
        htask (job_of_reported_or_cancelled hs hattends hwork (List.mem_append_left _ hmem))
      have hleft : task ∉ fate.cancelled ++ job'.board.running.toList := fun hmem => htask (hjob hmem).1
      rw [runs_congr (hother htask)]
      simp [hnone, hleft]
  · refine List.nodup_append.mpr ⟨houtcome.nodup_cancelled hsound, SortedSet.nodup_toList _, ?_⟩
    rintro task hcancelled _ hleft rfl
    exact ((hrunning task).mp hleft).2.2 hcancelled
  · obtain ⟨htask, hplace, hreported⟩ := hjob htask
    refine ⟨⟨(hruns htask).mpr hplace, hreported⟩, fun card' hcard' => ?_⟩
    rw [card?, hgone htask] at hcard'
    cases hcard'

end Attended

-- A new job has nothing that runs.
theorem halts_of_joined {scheduler : Scheduler} (hs : scheduler.Counted) {submission : Submission}
    {job : LiveJob} (hjob : LiveJob.new ⟨scheduler.registry.nextId⟩ submission = .ok job) :
    scheduler.Halts (scheduler.joined job) [] [] := by
  obtain ⟨hlive, -⟩ := hs.free
  have hfresh := LiveJob.fresh_of_new hjob
  have hfind (id : JobId) : (scheduler.joined job).registry.find? id =
      if id = ⟨scheduler.registry.nextId⟩ then some job else scheduler.registry.find? id := by
    rw [find?_joined, hfresh.id]
  have hold {id : JobId} (hid : id.number < scheduler.registry.nextId) :
      (scheduler.joined job).registry.find? id = scheduler.registry.find? id := by
    refine (hfind id).trans (if_neg fun heq => ?_)
    rw [heq] at hid
    exact UInt64.lt_irrefl _ hid
  refine ⟨fun id hid hnone => (hold hid).trans hnone,
    fun task card hid hcard => .inr ⟨card, (card?_congr (hold hid)).trans hcard, rfl,
      fun hdone => hdone⟩, fun task => ?_, List.nodup_nil, fun task htask => by cases htask⟩
  by_cases hid : task.job = ⟨scheduler.registry.nextId⟩
  · refine iff_of_false ?_ fun h => not_runs_of_none (hid ▸ hlive) h.1.1
    rintro ⟨other, hother, hrunning⟩
    rw [hfind, if_pos hid, Option.some.injEq] at hother
    subst hother
    obtain ⟨_, _, -, -, rfl⟩ := LiveJob.new_eq_ok hjob
    exact hfresh.coherent.pending rfl task
      (hfresh.sound.board.partitioned.mem_running_iff.mp hrunning)
  · rw [runs_congr ((hfind task.job).trans (if_neg hid))]
    simp

-- What handling an event stops is what its commands name.
theorem Reaction.halts {scheduler final : Scheduler} (hs : scheduler.Counted) {event : Event}
    {answer : Except Fault (List Command)} (h : scheduler.Reaction event answer final) :
    scheduler.Halts final event.reported ((commandsOf answer).flatMap Command.cancelled) := by
  cases h with
  | refused _ hrefused =>
      refine .of_unchanged fun task htask hruns => ?_
      obtain ⟨job, work, hattends, -, hrunning⟩ := hruns.attends hs.toSound htask
      obtain ⟨fault, herror⟩ := hrefused job work hattends
      obtain ⟨fate, desk, hok⟩ :=
        LiveJob.accepts_report (hs.live hattends.2) hattends.1 htask hrunning scheduler.slots
      rw [hok] at herror
      cases herror
  | ignored hignored =>
      refine .of_unchanged fun task htask hruns => ?_
      obtain ⟨job, work, hattends, -, hrunning⟩ := hruns.attends hs.toSound htask
      have houtcome := LiveJob.outcome_of_work? (hs.live hattends.2) hattends.1 rfl
        (hignored job work hattends)
      exact houtcome.not_running_of_untouched htask hrunning
  | joined hevent hjob =>
      subst hevent
      exact halts_of_joined hs hjob
  | @wentOn job work job' given cancelled hattends hturn hwork =>
      rw [commandsOf, Command.flatMap_cancelled_cancelling]
      refine halts_of_goesOn hs.toSound hattends hwork hturn.advances.sound fun id => ?_
      rw [find?_wentOn, hturn.advances.id]
  | @ended job work job' given status cancelled hattends hturn hwork =>
      have hended : [Command.ended (job'.closing status)].flatMap Command.cancelled = [] := rfl
      rw [commandsOf, List.flatMap_append, List.flatMap_append, Command.flatMap_cancelled_cancelling,
        Command.flatMap_cancelled_cancelling, hended, List.append_nil]
      refine halts_of_ends hs.toSound hattends hwork hturn.advances.sound fun id => ?_
      rw [find?_closed, hturn.advances.id]

end Scheduler

end JobScheduler
