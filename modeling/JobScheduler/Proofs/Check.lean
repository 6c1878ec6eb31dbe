namespace JobScheduler

-- A computation in two steps succeeds when both do.
theorem bind_eq_ok_iff {α β ε : Type} {step : Except ε α} {next : α → Except ε β} {value : β} :
    (step >>= next) = .ok value ↔ ∃ middle, step = .ok middle ∧ next middle = .ok value := by
  cases step <;> simp [bind, Except.bind]

-- A check of every item of a list passes when it passes for each of them.
theorem forM_eq_ok_iff {α ε : Type} {check : α → Except ε Unit} {items : List α} :
    items.forM check = .ok () ↔ ∀ item ∈ items, check item = .ok () := by
  induction items with
  | nil => simp [List.forM, pure, Except.pure]
  | cons first rest ih =>
      simp only [List.forM, bind, Except.bind, List.forall_mem_cons]
      cases check first with
      | error fault => simp
      | ok value => simpa using ih

-- The error of such a check is the error of one of the items.
theorem exists_of_forM_eq_error {α ε : Type} {check : α → Except ε Unit} {items : List α} {error : ε}
    (h : items.forM check = .error error) : ∃ item ∈ items, check item = .error error := by
  induction items with
  | nil => cases h
  | cons first rest ih =>
      simp only [List.forM, bind, Except.bind] at h
      cases hfirst : check first with
      | error found =>
          rw [hfirst] at h
          exact ⟨first, List.mem_cons_self, hfirst.trans h⟩
      | ok value =>
          rw [hfirst] at h
          obtain ⟨item, hitem, hfound⟩ := ih h
          exact ⟨item, List.mem_cons_of_mem _ hitem, hfound⟩

end JobScheduler
