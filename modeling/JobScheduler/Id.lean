namespace JobScheduler

-- Jobs are numbered in 64 bits.
structure JobId where
  number : UInt64
deriving DecidableEq, Repr, Inhabited

-- What counts jobs from outside is cut down to the width of their numbers.
instance JobId.numberOfNat : Coe Nat UInt64 := ⟨UInt64.ofNat⟩

instance : Ord JobId := ⟨fun a b => compare a.number b.number⟩

instance : Std.TransOrd JobId := inferInstanceAs (Std.TransCmp (compareOn JobId.number))

instance : Std.LawfulEqOrd JobId where
  eq_of_compare {a b} h := by
    have : a.number = b.number := Std.LawfulEqOrd.eq_of_compare h
    cases a; cases b; simp_all

instance : ToString JobId := ⟨fun id => s!"job-{id.number}"⟩

-- A task of a job is known by the position at which its job declares it.
structure TaskId where
  job : JobId
  index : Nat
deriving DecidableEq, Repr, Inhabited

instance : Ord TaskId :=
  ⟨compareLex (compareOn TaskId.job) (compareOn TaskId.index)⟩

instance : Std.TransOrd TaskId :=
  inferInstanceAs (Std.TransCmp (compareLex (compareOn TaskId.job) (compareOn TaskId.index)))

instance : Std.LawfulEqOrd TaskId where
  eq_of_compare {a b} h := by
    obtain ⟨hjob, hindex⟩ := compareLex_eq_eq.mp h
    have hj : a.job = b.job := Std.LawfulEqOrd.eq_of_compare hjob
    have hi : a.index = b.index := Std.LawfulEqOrd.eq_of_compare hindex
    cases a; cases b; simp_all

instance : ToString TaskId := ⟨fun id => s!"{id.job}/task-{id.index}"⟩

end JobScheduler
