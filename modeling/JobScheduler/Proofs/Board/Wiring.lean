import JobScheduler.Board.Build
import JobScheduler.Proofs.Board.Place

namespace JobScheduler

-- The part of a card that no transition touches.
def Card.fixed (card : Card) : PlannedTask × List TaskId × List TaskId :=
  (card.task, card.parents, card.children)

namespace Board

-- The same tasks with the same links, wherever they stand.
structure SameTasks (board board' : Board) : Prop where
  job : board'.job = board.job
  kind : board'.kind = board.kind
  fixed : board'.cards.map Card.fixed = board.cards.map Card.fixed

namespace SameTasks

theorem refl (board : Board) : board.SameTasks board := ⟨rfl, rfl, rfl⟩

theorem trans {a b c : Board} (h : a.SameTasks b) (h' : b.SameTasks c) : a.SameTasks c :=
  ⟨h'.job.trans h.job, h'.kind.trans h.kind, h'.fixed.trans h.fixed⟩

theorem symm {a b : Board} (h : a.SameTasks b) : b.SameTasks a :=
  ⟨h.job.symm, h.kind.symm, h.fixed.symm⟩

theorem of_cards_eq {a b : Board} (hjob : b.job = a.job) (hkind : b.kind = a.kind)
    (hcards : b.cards = a.cards) : a.SameTasks b := ⟨hjob, hkind, by rw [hcards]⟩

theorem size {a b : Board} (h : a.SameTasks b) : b.size = a.size := by
  simpa [Board.size] using congrArg List.length h.fixed

theorem map_task {a b : Board} (h : a.SameTasks b) :
    b.cards.map Card.task = a.cards.map Card.task := by
  simpa [Card.fixed, Function.comp_def] using congrArg (List.map Prod.fst) h.fixed

theorem map_id {a b : Board} (h : a.SameTasks b) :
    b.cards.map Card.id = a.cards.map Card.id := by
  have htasks := congrArg (List.map PlannedTask.id) h.map_task
  rw [List.map_map, List.map_map] at htasks
  exact htasks

theorem getElem? {a b : Board} (h : a.SameTasks b) {index : Nat} {card : Card}
    (hcard : a.cards[index]? = some card) :
    ∃ card', b.cards[index]? = some card' ∧ card'.fixed = card.fixed := by
  have hmap : (b.cards.map Card.fixed)[index]? = some card.fixed := by
    rw [h.fixed, List.getElem?_map, hcard]
    rfl
  simpa [List.getElem?_map] using hmap

theorem card {a b : Board} (h : a.SameTasks b) {id : TaskId} {card : Card}
    (hcard : a.card id = .ok card) : ∃ card', b.card id = .ok card' ∧ card'.fixed = card.fixed := by
  obtain ⟨hjob, hindex⟩ := card_eq_ok_iff.mp hcard
  obtain ⟨card', hcard', hfixed⟩ := h.getElem? hindex
  exact ⟨card', card_eq_ok_iff.mpr ⟨hjob.trans h.job.symm, hcard'⟩, hfixed⟩

theorem mem {a b : Board} (h : a.SameTasks b) {card : Card} (hcard : card ∈ a.cards) :
    ∃ card' ∈ b.cards, card'.fixed = card.fixed := by
  have hmem : card.fixed ∈ b.cards.map Card.fixed := h.fixed ▸ List.mem_map_of_mem hcard
  exact List.mem_map.mp hmem

end SameTasks

theorem map_modify_of_keeps {α β : Type} (view : α → β) (change : α → α)
    (hkeeps : ∀ item, view (change item) = view item) (items : List α) (index : Nat) :
    (items.modify index change).map view = items.map view := by
  apply List.ext_getElem?
  intro i
  simp only [List.getElem?_map, List.getElem?_modify]
  cases items[i]? with
  | none => rfl
  | some item => by_cases h : index = i <;> simp [h, hkeeps]

theorem SameTasks.modifyCard (board : Board) (id : TaskId) (change : Card → Card)
    (hkeeps : ∀ card, (change card).fixed = card.fixed) :
    board.SameTasks (board.modifyCard id change) :=
  ⟨rfl, rfl, map_modify_of_keeps Card.fixed change hkeeps board.cards id.index⟩

theorem SameTasks.relocate (board : Board) (id : TaskId) (source target : Place) :
    board.SameTasks (board.relocate id source target) :=
  ⟨by simp, by simp, by
    rw [relocate_cards]
    exact map_modify_of_keeps Card.fixed (put target) (fun _ => rfl) board.cards id.index⟩

-- A card for every task, in id order, linked to what its task depends on in a task flow
-- and to nothing otherwise. Every entry among its parents has its counterpart among the
-- children of that parent, in the order of the cards.
structure Wired (board : Board) : Prop where
  ids : ∀ (index : Nat) (card : Card), board.cards[index]? = some card → card.id = ⟨board.job, index⟩
  parents : ∀ card ∈ board.cards,
    card.parents = if board.kind = .taskFlow then card.task.dependencies else []
  parents_known : ∀ card ∈ board.cards, ∀ parent ∈ card.parents,
    parent.job = board.job ∧ parent.index < board.size
  children : ∀ card ∈ board.cards,
    card.children = board.cards.flatMap fun child =>
      List.replicate (child.parents.count card.id) child.id

theorem Wired.congr {a b : Board} (hw : a.Wired) (h : a.SameTasks b) : b.Wired := by
  constructor
  · intro index card hcard
    obtain ⟨card', hcard', hfixed⟩ := h.symm.getElem? hcard
    have hid := hw.ids index card' hcard'
    simp only [Card.fixed, Prod.mk.injEq] at hfixed
    simpa [Card.id, hfixed.1, h.job] using hid
  · intro card hcard
    obtain ⟨card', hcard', hfixed⟩ := h.symm.mem hcard
    simp only [Card.fixed, Prod.mk.injEq] at hfixed
    rw [← hfixed.1, ← hfixed.2.1, h.kind]
    exact hw.parents card' hcard'
  · intro card hcard
    obtain ⟨card', hcard', hfixed⟩ := h.symm.mem hcard
    simp only [Card.fixed, Prod.mk.injEq] at hfixed
    rw [← hfixed.2.1, h.job, h.size]
    exact hw.parents_known card' hcard'
  · intro card hcard
    obtain ⟨card', hcard', hfixed⟩ := h.symm.mem hcard
    simp only [Card.fixed, Prod.mk.injEq] at hfixed
    have hentries (board : Board) : (board.cards.flatMap fun child =>
        List.replicate (child.parents.count card.id) child.id) =
        (board.cards.map Card.fixed).flatMap fun entry =>
          List.replicate (entry.2.1.count card.id) entry.1.id := by
      simp only [List.flatMap_map]
      rfl
    have hid : card'.id = card.id := by simp [Card.id, hfixed.1]
    rw [hentries, h.fixed, ← hentries, ← hfixed.2.2, hw.children card' hcard', hid]

-- Of entries that are repeated under their own keys, each key is counted as often as it is
-- repeated.
theorem count_flatMap_replicate {α β : Type} [DecidableEq β] (key : α → β) {items : List α}
    (hinj : items.Pairwise fun a b => key a ≠ key b) {item : α} (hitem : item ∈ items) (times : α → Nat) :
    (items.flatMap fun other => List.replicate (times other) (key other)).count (key item) =
      times item := by
  induction items with
  | nil => simp at hitem
  | cons first rest ih =>
      obtain ⟨hfirst, hrest⟩ := List.pairwise_cons.mp hinj
      rw [List.flatMap_cons, List.count_append]
      rcases List.mem_cons.mp hitem with rfl | hitem
      · have hnone : (rest.flatMap fun other => List.replicate (times other) (key other)).count
            (key item) = 0 := by
          apply List.count_eq_zero.mpr
          intro hmem
          obtain ⟨other, hother, hrep⟩ := List.mem_flatMap.mp hmem
          exact hfirst other hother (List.mem_replicate.mp hrep).2
        simp [hnone]
      · have hne : key first ≠ key item := hfirst item hitem
        rw [ih hrest hitem, List.count_replicate]
        simp [hne]

namespace Wired

variable {board : Board} (hw : board.Wired)
include hw

theorem card_eq_ok_of_getElem? {index : Nat} {card : Card} (h : board.cards[index]? = some card) :
    board.card card.id = .ok card := by
  rw [hw.ids index card h]
  exact card_eq_ok_iff.mpr ⟨rfl, h⟩

theorem card_id_of_mem {card : Card} (h : card ∈ board.cards) : board.card card.id = .ok card := by
  obtain ⟨index, hindex, rfl⟩ := List.mem_iff_getElem.mp h
  exact hw.card_eq_ok_of_getElem? (List.getElem?_eq_getElem hindex)

theorem id_of_card {id : TaskId} {card : Card} (h : board.card id = .ok card) : card.id = id := by
  obtain ⟨hjob, hindex⟩ := card_eq_ok_iff.mp h
  rw [hw.ids id.index card hindex, ← hjob]

omit hw in
theorem mem_of_card {id : TaskId} {card : Card} (h : board.card id = .ok card) :
    card ∈ board.cards :=
  List.mem_of_getElem? (card_eq_ok_iff.mp h).2

theorem card_of_parent {card : Card} (h : card ∈ board.cards) {parent : TaskId}
    (hparent : parent ∈ card.parents) : ∃ other, board.card parent = .ok other := by
  obtain ⟨hjob, hsize⟩ := hw.parents_known card h parent hparent
  exact ⟨_, card_eq_ok_iff.mpr ⟨hjob, List.getElem?_eq_getElem hsize⟩⟩

theorem card_of_child {card : Card} (h : card ∈ board.cards) {child : TaskId}
    (hchild : child ∈ card.children) : ∃ other, board.card child = .ok other := by
  rw [hw.children card h] at hchild
  obtain ⟨other, hother, hrep⟩ := List.mem_flatMap.mp hchild
  rw [(List.mem_replicate.mp hrep).2]
  exact ⟨other, hw.card_id_of_mem hother⟩

theorem pairwise_id_ne : board.cards.Pairwise fun a b => a.id ≠ b.id := by
  rw [List.pairwise_iff_getElem]
  intro i j hi hj hlt heq
  rw [hw.ids i _ (List.getElem?_eq_getElem hi), hw.ids j _ (List.getElem?_eq_getElem hj)] at heq
  have hindex : i = j := congrArg TaskId.index heq
  omega

-- One task is among the children of another as often as the other among its parents.
theorem count_children {a b : Card} (ha : a ∈ board.cards) (hb : b ∈ board.cards) :
    a.children.count b.id = b.parents.count a.id := by
  rw [hw.children a ha]
  exact count_flatMap_replicate Card.id hw.pairwise_id_ne hb fun child => child.parents.count a.id

end Wired

end Board

end JobScheduler
