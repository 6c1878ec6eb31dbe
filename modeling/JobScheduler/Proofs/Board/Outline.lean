import JobScheduler.Proofs.Board.History

namespace JobScheduler

-- A board seen from outside: the tasks of its job and where each of them stands. There
-- are no links, no counters and no partitions.
structure Outline where
  job : JobId
  kind : JobKind
  tasks : List PlannedTask
  places : List Place
deriving DecidableEq, Repr

-- The moves that can be asked of a single task.
inductive Transition
  | start | pause | resume | restart | pauseOnError | terminate | terminateInError | kill
deriving DecidableEq, Repr

namespace Transition

-- Where a task may stand when the move is asked for.
def sources : Transition → List Place
  | .start | .pause => [.eligible]
  | .restart | .pauseOnError | .terminate => [.running]
  | .resume | .terminateInError => [.paused]
  | .kill => [.eligible, .running, .paused]

def target : Transition → Place
  | .start => .running
  | .resume | .restart => .eligible
  | .pause | .pauseOnError => .paused
  | .terminate | .terminateInError | .kill => .done

-- What is told of a task that stands elsewhere.
def breach (transition : Transition) (found : Place) : Breach :=
  match transition.sources with
  | [source] => .misplaced source found
  | _ => .unkillable found

def call (transition : Transition) (id : TaskId) : Board.Call :=
  match transition with
  | .start => .start id
  | .pause => .pause id
  | .resume => .resume id
  | .restart => .restart id
  | .pauseOnError => .pauseOnError id
  | .terminate => .terminate id
  | .terminateInError => .terminateInError id
  | .kill => .kill id

theorem isPartition_of_mem_sources {transition : Transition} {place : Place}
    (h : place ∈ transition.sources) : place.isPartition := by
  cases transition <;> cases place <;> simp [sources] at h <;> rfl

end Transition

namespace Outline

def placeOf? (outline : Outline) (id : TaskId) : Option Place :=
  if id.job = outline.job then outline.places[id.index]? else none

-- The outline with some of the tasks at another place.
def placed (outline : Outline) (ids : List TaskId) (place : Place) : Outline :=
  { outline with
    places := outline.places.mapIdx fun index old =>
      if ⟨outline.job, index⟩ ∈ ids then place else old }

-- The blocked tasks that depend on a task and on none that is not done, in task order.
def released (outline : Outline) (id : TaskId) : List TaskId :=
  (outline.tasks.filter fun task =>
    outline.placeOf? task.id = some .blocked ∧ id ∈ task.dependencies ∧
      ∀ parent ∈ task.dependencies, outline.placeOf? parent = some .done).map (·.id)

-- A task goes from where it may stand to where the move leads. In a task flow the move
-- to done lets those go on that have waited for no other task, and they are told.
def transit (outline : Outline) (id : TaskId) (transition : Transition) :
    Except Fault (Outline × List TaskId) :=
  match outline.placeOf? id with
  | none => .error (.taskNotFound id)
  | some place =>
      if place ∈ transition.sources then
        let moved := outline.placed [id] transition.target
        let promoted :=
          if transition.target = .done ∧ outline.kind = .taskFlow then moved.released id else []
        .ok (moved.placed promoted .eligible, promoted)
      else .error (.contract id (transition.breach place))

theorem placed_nil (outline : Outline) (place : Place) : outline.placed [] place = outline := by
  have hsame : (outline.places.mapIdx fun _ old => old) = outline.places := by
    apply List.ext_getElem?
    simp
  simp [placed, hsame]

end Outline

namespace Board

def outline (board : Board) : Outline :=
  ⟨board.job, board.kind, board.cards.map Card.task, board.cards.map Card.place⟩

-- What there is to see of a move from outside.
def shown (result : Board × List TaskId) : Outline × List TaskId := (result.1.outline, result.2)

-- The moves with what they return. Where no task terminates, none is promoted.
def transit (board : Board) (id : TaskId) : Transition → Except Fault (Board × List TaskId)
  | .start => (board.start id).map (·, [])
  | .pause => (board.pause id).map (·, [])
  | .resume => (board.resume id).map (·, [])
  | .restart => (board.restart id).map (·, [])
  | .pauseOnError => (board.pauseOnError id).map (·, [])
  | .terminate => board.terminate id
  | .terminateInError => board.terminateInError id
  | .kill => board.kill id

theorem getElem?_places_outline (board : Board) (index : Nat) (place : Place) :
    board.outline.places[index]? = some place ↔ board.placeOf ⟨board.job, index⟩ = .ok place := by
  simp [outline, placeOf_eq_ok_iff, card_eq_ok_iff]

theorem placeOf?_outline {board : Board} {id : TaskId} {place : Place} :
    board.outline.placeOf? id = some place ↔ board.placeOf id = .ok place := by
  have hjob : board.outline.job = board.job := rfl
  unfold Outline.placeOf?
  split
  · rename_i hid
    rw [getElem?_places_outline, ← hjob, ← hid]
  · rename_i hid
    simp only [reduceCtorEq, false_iff]
    exact fun hplace => hid (job_eq_of_placeOf hplace)

theorem placeOf?_outline_eq_none {board : Board} {id : TaskId} {fault : Fault}
    (h : board.card id = .error fault) : board.outline.placeOf? id = none := by
  rw [Option.eq_none_iff_forall_ne_some]
  intro place hplace
  obtain ⟨card, hcard, -⟩ := placeOf_eq_ok_iff.mp (placeOf?_outline.mp hplace)
  rw [h] at hcard
  cases hcard

-- The outline follows the places of the tasks.
theorem outline_eq_placed {a b : Board} (hsame : a.SameTasks b) {ids : List TaskId} {place : Place}
    (h : ∀ id, b.placeOf id = if id ∈ ids then .ok place else a.placeOf id) :
    b.outline = a.outline.placed ids place := by
  have hplaces : b.outline.places = (a.outline.placed ids place).places := by
    apply List.ext_getElem?
    intro index
    apply Option.ext
    intro found
    have hold := getElem?_places_outline a index
    have hnew := h ⟨a.job, index⟩
    rw [getElem?_places_outline, hsame.job, hnew, Outline.placed, List.getElem?_mapIdx]
    have hjob : a.outline.job = a.job := rfl
    rw [hjob]
    by_cases hmem : (⟨a.job, index⟩ : TaskId) ∈ ids
    · -- A task of one board is a task of the other.
      rw [if_pos hmem] at hnew ⊢
      obtain ⟨card, hcard, -⟩ := placeOf_eq_ok_iff.mp hnew
      obtain ⟨card', hcard', -⟩ := hsame.symm.card hcard
      have hplace := (hold card'.place).mpr (placeOf_of_card hcard')
      simp [hplace, hmem]
    · rw [if_neg hmem, ← hold]
      simp [hmem]
  simp only [Outline.placed, outline, Outline.mk.injEq] at hplaces ⊢
  exact ⟨hsame.job, hsame.kind, hsame.map_task, hplaces⟩

-- All moves are one: a task that stands where it may goes to the target, and it terminates
-- if that is done.
theorem transit_eq {board : Board} (hfailed : board.failed = false) (id : TaskId)
    (transition : Transition) :
    board.transit id transition = (board.card id).bind fun card =>
      if card.place ∈ transition.sources then
        if transition.target = .done then board.finish id card.place
        else .ok (board.relocate id card.place transition.target, [])
      else .error (.contract id (transition.breach card.place)) := by
  cases hcard : board.card id with
  | error fault =>
      cases transition <;>
        simp [transit, start, pause, resume_eq_move hfailed, restart, pauseOnError, terminate,
          terminateInError, kill, finish, move_eq, placeOf_eq, hcard, Except.bind, Except.map, bind]
  | ok card =>
      have hmove (source target : Place) : (board.move id source target).map (·, []) =
          if card.place = source then .ok (board.relocate id card.place target, ([] : List TaskId))
          else .error (.contract id (.misplaced source card.place)) := by
        rw [move_eq, hcard, Except.bind]
        split
        · rename_i hplace
          rw [hplace]
          rfl
        · rfl
      have hfinish (source : Place) : board.finish id source =
          if card.place = source then board.finish id card.place
          else .error (.contract id (.misplaced source card.place)) := by
        split
        · rename_i hplace
          rw [hplace]
        · rename_i hplace
          rw [finish, move_eq, hcard]
          simp [bind, Except.bind, hplace]
      have hone (source : Place) : card.place ∈ [source] ↔ card.place = source := List.mem_singleton
      cases transition with
      | start | pause | restart | pauseOnError =>
          simp only [Except.bind, Transition.sources, hone]
          exact hmove _ _
      | resume =>
          rw [transit, resume_eq_move hfailed]
          simp only [Except.bind, Transition.sources, hone]
          exact hmove _ _
      | terminate | terminateInError =>
          simp only [Except.bind, Transition.sources, hone]
          exact hfinish _
      | kill =>
          have hplaceOf := placeOf_of_card hcard
          cases hplace : card.place <;>
            simp [transit, kill, hplaceOf, hplace, bind, Except.bind, throw, throwThe,
              MonadExceptOf.throw, Transition.sources, Transition.target, Transition.breach]

theorem released_increasing {board : Board} (hw : board.Wired) (id : TaskId) :
    (board.outline.released id).Pairwise fun a b => compare a b = .lt := by
  have htasks : board.outline.tasks.Pairwise fun a b => compare a.id b.id = .lt :=
    List.pairwise_map.mpr hw.increasing
  exact List.pairwise_map.mpr (htasks.sublist List.filter_sublist)

theorem Wired.children_ordered {board : Board} (hw : board.Wired) {card : Card}
    (h : card ∈ board.cards) : card.children.Pairwise fun a b => compare a b ≠ .gt := by
  rw [hw.children card h, List.pairwise_flatMap]
  constructor
  · intro child _
    exact List.pairwise_replicate.mpr (.inr (by simp))
  · refine hw.increasing.imp fun {a b} hlt x hx y hy => ?_
    rw [List.eq_of_mem_replicate hx, List.eq_of_mem_replicate hy, hlt]
    simp

-- The children that a termination promotes are noted in child order.
theorem promoted_sublist (children : List TaskId) (board : Board) (promoted : List TaskId) :
    ∃ further, (children.foldl notifyChild (board, promoted)).2 = promoted ++ further ∧
      further.Sublist children := by
  induction children generalizing board promoted with
  | nil => exact ⟨[], by simp, .refl _⟩
  | cons child rest ih =>
      have hfirst : ∃ first, (notifyChild (board, promoted) child).2 = promoted ++ first ∧
          first.Sublist [child] := by
        unfold notifyChild
        dsimp only
        split
        · split
          · exact ⟨[child], rfl, .refl _⟩
          · exact ⟨[], by simp, List.nil_sublist _⟩
        · exact ⟨[], by simp, List.nil_sublist _⟩
      obtain ⟨first, hnoted, hsub⟩ := hfirst
      obtain ⟨further, hfurther, hrest⟩ := ih (notifyChild (board, promoted) child).1
        (notifyChild (board, promoted) child).2
      refine ⟨first ++ further, ?_, hsub.append hrest⟩
      rw [List.foldl_cons, hfurther, hnoted, List.append_assoc]

section Finish

variable {board board' : Board} {id : TaskId} {source : Place} {promoted : List TaskId}

theorem promotes_of_finish (hw : board.Wired) (h : board.finish id source = .ok (board', promoted)) :
    (board.relocate id source .done).Promotes board' promoted := by
  obtain ⟨final, told, hfinal, hpromotes⟩ := finish_promotes hw (placeOf_of_finish h)
  rw [h] at hfinal
  cases hfinal
  exact hpromotes

-- A child is promoted once, however often it depends on the task.
theorem promoted_increasing (hw : board.Wired) (h : board.finish id source = .ok (board', promoted)) :
    promoted.Pairwise fun a b => compare a b = .lt := by
  have hnodup := (promotes_of_finish hw h).nodup
  obtain ⟨card, hcard, rfl⟩ := placeOf_eq_ok_iff.mp (placeOf_of_finish h)
  have hchildren := hw.children_ordered (Wired.mem_of_card hcard)
  rw [finish_eq hcard] at h
  dsimp only at h
  split at h
  · cases h
    obtain ⟨further, hfurther, hsub⟩ :=
      promoted_sublist card.children (board.relocate id card.place .done) []
    rw [hfurther, List.nil_append] at hnodup ⊢
    refine (hnodup.and (hchildren.sublist hsub)).imp fun {a b} hboth => ?_
    cases hcompare : compare a b with
    | lt => rfl
    | eq => exact absurd (Std.LawfulEqOrd.eq_of_compare hcompare) hboth.1
    | gt => exact absurd hcompare hboth.2
  · cases h
    exact .nil

-- Promoted are the blocked tasks that depend on the one that has terminated and on
-- nothing that has not.
theorem mem_promoted_iff (hs : board.Sound) (hfailed : board.failed = false)
    (hsource : source.isPartition) (h : board.finish id source = .ok (board', promoted))
    {other : TaskId} {card : Card} (hcard : board.card other = .ok card) :
    other ∈ promoted ↔ (board.relocate id source .done).placeOf other = .ok .blocked ∧
      id ∈ card.parents ∧
      ∀ parent ∈ card.parents, (board.relocate id source .done).placeOf parent = .ok .done := by
  have hpromotes := promotes_of_finish hs.wired h
  have hs' : board'.Sound := hs.finish hsource h
  have hfailed' : board'.failed = false := by rw [hpromotes.failed, relocate_failed, hfailed]
  have hmoved (task : TaskId) := placeOf_relocate .done (placeOf_of_finish h) task
  obtain ⟨card', hcard', hfixed⟩ :=
    ((SameTasks.relocate board id source .done).trans hpromotes.same).card hcard
  have hparents : card'.parents = card.parents := congrArg (·.2.1) hfixed
  constructor
  · intro hmem
    have hblocked := hpromotes.blocked other hmem
    have hplace' : card'.place = .eligible := by
      have hplace := (hpromotes.place other).trans (if_pos hmem)
      rw [placeOf_of_card hcard'] at hplace
      exact Except.ok.inj hplace
    have hdone (parent : TaskId) (hparent : parent ∈ card.parents) :
        (board.relocate id source .done).placeOf parent = .ok .done := by
      have hended := hs'.parents_done hfailed' hcard' (by simp [hplace']) (hparents ▸ hparent)
      rw [hpromotes.place] at hended
      split at hended
      · cases hended
      · exact hended
    -- Before the move it was blocked, and by nothing but the task that has moved.
    have hwaited : card.place = .blocked := by
      rw [hmoved] at hblocked
      split at hblocked
      · cases hblocked
      · rw [placeOf_of_card hcard] at hblocked
        exact Except.ok.inj hblocked
    obtain ⟨parent, hparent, hopen⟩ := hs.exists_unfinished_parent hfailed hcard hwaited
    have hid : parent = id := by
      by_contra hne
      have hended := hdone parent hparent
      rw [hmoved, if_neg hne] at hended
      rw [unfinished_of_placeOf hended] at hopen
      cases hopen
    exact ⟨hblocked, hid ▸ hparent, hdone⟩
  · rintro ⟨hblocked, -, hdone⟩
    by_contra hnot
    have hplace := hpromotes.place other
    rw [if_neg hnot, hblocked, placeOf_of_card hcard'] at hplace
    obtain ⟨parent, hparent, hopen⟩ :=
      hs'.exists_unfinished_parent hfailed' hcard' (Except.ok.inj hplace)
    rw [hpromotes.unfinished, unfinished_of_placeOf (hdone parent (hparents ▸ hparent))] at hopen
    cases hopen

end Finish

-- In a task flow the links of a card are the dependencies that its task declares.
theorem mem_released_iff {board : Board} (hw : board.Wired) (hkind : board.kind = .taskFlow)
    {id other : TaskId} :
    other ∈ board.outline.released id ↔ ∃ card, board.card other = .ok card ∧
      board.placeOf other = .ok .blocked ∧ id ∈ card.parents ∧
      ∀ parent ∈ card.parents, board.placeOf parent = .ok .done := by
  have hparents (card : Card) (hcard : card ∈ board.cards) :
      card.parents = card.task.dependencies := by
    rw [hw.parents card hcard, if_pos hkind]
  simp only [Outline.released, List.mem_map, List.mem_filter, decide_eq_true_eq, placeOf?_outline]
  constructor
  · rintro ⟨task, ⟨htask, hblocked, hid, hdone⟩, rfl⟩
    obtain ⟨card, hmem, rfl⟩ := List.mem_map.mp htask
    rw [← hparents card hmem] at hid hdone
    exact ⟨card, hw.card_id_of_mem hmem, hblocked, hid, hdone⟩
  · rintro ⟨card, hcard, hblocked, hid, hdone⟩
    have hmem := Wired.mem_of_card hcard
    have hother : card.task.id = other := hw.id_of_card hcard
    rw [hparents card hmem] at hid hdone
    exact ⟨card.task, ⟨List.mem_map_of_mem hmem, hother ▸ hblocked, hid, hdone⟩, hother⟩

theorem outline_relocate {board : Board} {id : TaskId} {source : Place}
    (h : board.placeOf id = .ok source) (target : Place) :
    (board.relocate id source target).outline = board.outline.placed [id] target :=
  outline_eq_placed (.relocate board id source target) fun other => by
    rw [placeOf_relocate target h]
    simp

-- A termination does to the outline what it does to the board, and the tasks that it
-- promotes are those the outline tells.
theorem shown_finish {board : Board} (hs : board.Sound) (hfailed : board.failed = false)
    {id : TaskId} {source : Place} (hplace : board.placeOf id = .ok source)
    (hsource : source.isPartition) :
    (board.finish id source).map shown =
      let moved := board.outline.placed [id] .done
      let promoted := if board.kind = .taskFlow then moved.released id else []
      .ok (moved.placed promoted .eligible, promoted) := by
  obtain ⟨board', promoted, hfinish, hpromotes⟩ := finish_promotes hs.wired hplace
  have hmoved := outline_relocate hplace .done
  have houtline := outline_eq_placed hpromotes.same hpromotes.place
  have hpromoted : promoted =
      if board.kind = .taskFlow then (board.outline.placed [id] .done).released id else [] := by
    split
    · rename_i hkind
      have hsame := SameTasks.relocate board id source .done
      have hw := hs.wired.congr hsame
      rw [← hmoved]
      refine SortedMap.eq_of_increasing_of_mem_iff (promoted_increasing hs.wired hfinish)
        (released_increasing hw id) fun other => ?_
      rw [mem_released_iff hw (by rw [relocate_kind, hkind])]
      constructor
      · intro hmem
        obtain ⟨moved, hmovedCard, -⟩ := placeOf_eq_ok_iff.mp (hpromotes.blocked other hmem)
        obtain ⟨card, hcard, hfixed⟩ := hsame.symm.card hmovedCard
        have hparents : card.parents = moved.parents := congrArg (·.2.1) hfixed
        exact ⟨moved, hmovedCard,
          hparents ▸ (mem_promoted_iff hs hfailed hsource hfinish hcard).mp hmem⟩
      · rintro ⟨moved, hmovedCard, hreleased⟩
        obtain ⟨card, hcard, hfixed⟩ := hsame.symm.card hmovedCard
        have hparents : card.parents = moved.parents := congrArg (·.2.1) hfixed
        exact (mem_promoted_iff hs hfailed hsource hfinish hcard).mpr (hparents ▸ hreleased)
    · rename_i hkind
      obtain ⟨card, hcard, rfl⟩ := placeOf_eq_ok_iff.mp hplace
      rw [finish_eq hcard] at hfinish
      simp only [hkind, if_false] at hfinish
      cases hfinish
      rfl
  rw [hfinish]
  dsimp only
  rw [← hpromoted, ← hmoved, ← houtline]
  rfl

-- The outline is a machine of its own: a move of the board is the same move of the
-- outline, with the same answer.
theorem shown_transit {board : Board} (hs : board.Sound) (hfailed : board.failed = false)
    (id : TaskId) (transition : Transition) :
    (board.transit id transition).map shown = board.outline.transit id transition := by
  rw [transit_eq hfailed, Outline.transit]
  cases hcard : board.card id with
  | error fault =>
      rw [placeOf?_outline_eq_none hcard, card_eq_error hcard]
      rfl
  | ok card =>
      have hplace := placeOf_of_card hcard
      have hkind : board.outline.kind = board.kind := rfl
      rw [placeOf?_outline.mpr hplace]
      by_cases hmember : card.place ∈ transition.sources
      · have hsource := Transition.isPartition_of_mem_sources hmember
        by_cases htarget : transition.target = .done
        · have hfinish := shown_finish hs hfailed hplace hsource
          simpa [Except.bind, hmember, htarget, hkind] using hfinish
        · simp [Except.bind, hmember, htarget, Except.map, shown, outline_relocate hplace,
            Outline.placed_nil]
      · simp [Except.bind, hmember, Except.map]

theorem carryOut_call (board : Board) (id : TaskId) (transition : Transition) :
    board.carryOut (transition.call id) = (board.transit id transition).map (·.1) := by
  have hmove (moved : Except Fault Board) :
      moved = (moved.map (·, ([] : List TaskId))).map (·.1) := by cases moved <;> rfl
  cases transition with
  | start | pause | resume | restart | pauseOnError => exact hmove _
  | terminate | terminateInError | kill => rfl

-- A move that is refused leaves the board as it was.
theorem obey_call (board : Board) (id : TaskId) (transition : Transition) :
    board.obey (transition.call id) =
      match board.transit id transition with
      | .ok result => result.1
      | .error _ => board := by
  rw [obey, carryOut_call]
  cases board.transit id transition <;> rfl

theorem increasing_of_transit {board : Board} (hw : board.Wired) (hfailed : board.failed = false)
    {id : TaskId} {transition : Transition} {result : Board × List TaskId}
    (h : board.transit id transition = .ok result) :
    result.2.Pairwise fun a b => compare a b = .lt := by
  rw [transit_eq hfailed] at h
  cases hcard : board.card id with
  | error fault => simp [hcard, Except.bind] at h
  | ok card =>
      simp only [hcard, Except.bind] at h
      split at h
      · split at h
        · exact promoted_increasing hw h
        · cases h
          exact .nil
      · cases h

-- However a board was used, as long as its job was not given up, a move shows outside as
-- the move of its outline: refused for a task that is unknown or stands elsewhere, with
-- nothing changed, and else told with the tasks it lets go on, each once and in order.
theorem shown_transit_obeyAll {job : JobId} {priority : Priority} {kind : JobKind}
    {tasks : List PlannedTask} {board : Board} (h : build job priority kind tasks = .ok board)
    (calls : List Call) (hkeeps : ∀ call ∈ calls, call.abandons = false) (id : TaskId)
    (transition : Transition) :
    let now := board.obeyAll calls
    now.outline = ⟨job, kind, tasks, now.outline.places⟩ ∧
      (now.transit id transition).map shown = now.outline.transit id transition ∧
      (∀ fault, now.transit id transition = .error fault → now.obey (transition.call id) = now) ∧
      ∀ result, now.transit id transition = .ok result →
        now.obey (transition.call id) = result.1 ∧
          result.2.Pairwise fun a b => compare a b = .lt := by
  obtain ⟨hsound, hsame, hfailed⟩ := all_obeyed (sound_of_build h) calls
  have hopen := (hfailed hkeeps).trans (failed_of_build h)
  intro now
  refine ⟨?_, shown_transit hsound hopen id transition, ?_, ?_⟩
  · have hjob := hsame.job.trans (job_of_build h)
    have hkind := hsame.kind.trans (kind_of_build h)
    have htasks := hsame.map_task.trans (map_task_of_build h)
    simp [outline, now, hjob, hkind, htasks]
  · intro fault hfault
    rw [obey_call, hfault]
  · intro result hresult
    exact ⟨by rw [obey_call, hresult], increasing_of_transit hsound.wired hopen hresult⟩

-- A task that waits twice for the same one is promoted once.
theorem shown_transit_tangled :
    ∃ board, build ⟨0⟩ .normal .taskFlow tangled = .ok board ∧
      let now := board.obeyAll [.start ⟨⟨0⟩, 1⟩, .start ⟨⟨0⟩, 0⟩, .recordAttempt ⟨⟨0⟩, 2⟩]
      now.outline = ⟨⟨0⟩, .taskFlow, tangled, [.running, .blocked, .blocked, .blocked, .blocked]⟩ ∧
        (now.transit ⟨⟨0⟩, 0⟩ .terminate).map shown = now.outline.transit ⟨⟨0⟩, 0⟩ .terminate ∧
        (now.transit ⟨⟨0⟩, 0⟩ .terminate).map shown =
          .ok (⟨⟨0⟩, .taskFlow, tangled, [.done, .eligible, .blocked, .blocked, .blocked]⟩,
            [⟨⟨0⟩, 1⟩]) := by
  have hbuild : ∃ board, build ⟨0⟩ .normal .taskFlow tangled = .ok board := ⟨_, rfl⟩
  obtain ⟨board, hboard⟩ := hbuild
  obtain ⟨houtline, hshown, -⟩ := shown_transit_obeyAll hboard
    [.start ⟨⟨0⟩, 1⟩, .start ⟨⟨0⟩, 0⟩, .recordAttempt ⟨⟨0⟩, 2⟩] (by decide) ⟨⟨0⟩, 0⟩ .terminate
  refine ⟨board, hboard, houtline.trans ?_, hshown, hshown.trans ?_⟩
  · cases hboard
    decide
  · cases hboard
    decide

end Board

end JobScheduler
