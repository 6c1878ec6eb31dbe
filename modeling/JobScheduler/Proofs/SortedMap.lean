import Mathlib.Algebra.Ring.Nat
import JobScheduler.SortedMap

namespace JobScheduler

namespace SortedMap

variable [Ord κ] [Std.TransOrd κ] [Std.LawfulEqOrd κ]

omit [Std.TransOrd κ] in
theorem mem_of_lookup_eq_some {key : κ} {value : α} {entries : List (κ × α)}
    (h : lookup key entries = some value) : (key, value) ∈ entries := by
  induction entries with
  | nil => simp [lookup] at h
  | cons entry rest ih =>
      simp only [lookup] at h
      split at h
      · rename_i heq
        have hkey : key = entry.1 := Std.LawfulEqOrd.eq_of_compare heq
        have hvalue : entry.2 = value := Option.some.inj h
        exact List.mem_cons.mpr (.inl (by rw [hkey, ← hvalue]))
      · exact List.mem_cons_of_mem _ (ih h)

theorem lookup_eq_some_of_mem {key : κ} {value : α} {entries : List (κ × α)}
    (hinc : Increasing entries) (h : (key, value) ∈ entries) : lookup key entries = some value := by
  induction entries with
  | nil => simp at h
  | cons entry rest ih =>
      obtain ⟨hfirst, hrest⟩ := List.pairwise_cons.mp hinc
      rcases List.mem_cons.mp h with rfl | h
      · simp [lookup]
      · have hgt : compare key entry.1 = .gt :=
          Std.OrientedCmp.gt_iff_lt.mpr (hfirst _ h)
        simp [lookup, hgt, ih hrest h]

omit [Std.TransOrd κ] in
theorem lookup_rest_eq_none {key : κ} {value : α} {rest : List (κ × α)}
    (hinc : Increasing ((key, value) :: rest)) : lookup key rest = none := by
  rw [Option.eq_none_iff_forall_not_mem]
  intro other hother
  have hlt := List.rel_of_pairwise_cons hinc (mem_of_lookup_eq_some hother)
  simp at hlt

theorem mem_entries_iff {map : SortedMap κ α} {key : κ} {value : α} :
    (key, value) ∈ map.entries ↔ map.find? key = some value :=
  ⟨lookup_eq_some_of_mem map.increasing, mem_of_lookup_eq_some⟩

theorem find?_filterValues (keep : α → Bool) (map : SortedMap κ α) (key : κ) :
    (map.filterValues keep).find? key = (map.find? key).filter keep := by
  ext value
  rw [← mem_entries_iff, filterValues, List.mem_filter, mem_entries_iff, Option.filter_eq_some_iff]

theorem mem_keys_iff {map : SortedMap κ α} {key : κ} :
    key ∈ map.keys ↔ (map.find? key).isSome := by
  simp only [keys, List.mem_map, Prod.exists, exists_and_right, exists_eq_right,
    mem_entries_iff, Option.isSome_iff_exists]

theorem isEmpty_iff {map : SortedMap κ α} : map.isEmpty ↔ ∀ key, map.find? key = none := by
  rw [isEmpty, List.isEmpty_iff, List.eq_nil_iff_forall_not_mem]
  constructor
  · exact fun hempty key => Option.eq_none_iff_forall_ne_some.mpr fun value hvalue =>
      hempty (key, value) (mem_entries_iff.mpr hvalue)
  · intro hnone entry hentry
    have hvalue : map.find? entry.1 = some entry.2 := mem_entries_iff.mp hentry
    rw [hnone] at hvalue
    cases hvalue

omit [Std.TransOrd κ] [Std.LawfulEqOrd κ] in
theorem keys_increasing (map : SortedMap κ α) :
    map.keys.Pairwise fun a b => compare a b = .lt :=
  List.pairwise_map.mpr map.increasing

omit [Std.TransOrd κ] in
theorem nodup_keys (map : SortedMap κ α) : map.keys.Nodup :=
  map.keys_increasing.imp fun {a b} hlt heq => by simp [heq] at hlt

-- Of all lists of keys with the same members only one is increasing.
theorem eq_of_increasing_of_mem_iff {a b : List κ}
    (ha : a.Pairwise fun x y => compare x y = .lt) (hb : b.Pairwise fun x y => compare x y = .lt)
    (h : ∀ key, key ∈ a ↔ key ∈ b) : a = b := by
  have hna : a.Nodup := ha.imp fun {x y} hlt heq => by simp [heq] at hlt
  have hnb : b.Nodup := hb.imp fun {x y} hlt heq => by simp [heq] at hlt
  have hperm : a.Perm b := (List.perm_ext_iff_of_nodup hna hnb).mpr h
  refine hperm.eq_of_pairwise ?_ ha hb
  intro x y _ _ hxy hyx
  have hgt := Std.OrientedCmp.gt_iff_lt.mpr hxy
  simp [hyx] at hgt

theorem ext_find? {a b : SortedMap κ α} (h : ∀ key, a.find? key = b.find? key) : a = b := by
  apply ext_entries
  have hkeys : a.keys = b.keys := eq_of_increasing_of_mem_iff a.keys_increasing b.keys_increasing
    fun key => by rw [mem_keys_iff, mem_keys_iff, h key]
  have hlength : a.entries.length = b.entries.length := by
    simpa [keys] using congrArg List.length hkeys
  apply List.ext_getElem hlength
  intro i hi hj
  have hkey : a.entries[i].1 = b.entries[i].1 := by
    have := List.getElem_of_eq hkeys (i := i) (by simpa [keys] using hi)
    simpa [keys] using this
  have ha : a.find? a.entries[i].1 = some a.entries[i].2 := mem_entries_iff.mp (List.getElem_mem hi)
  have hb : b.find? b.entries[i].1 = some b.entries[i].2 := mem_entries_iff.mp (List.getElem_mem hj)
  rw [hkey, h, hb] at ha
  exact Prod.ext hkey (Option.some.inj ha).symm

section Lookups

variable [DecidableEq κ]

omit [Std.TransOrd κ] in
theorem lookup_filter_ne (key other : κ) (entries : List (κ × α)) :
    lookup other (entries.filter fun entry => compare key entry.1 != .eq) =
      if other = key then none else lookup other entries := by
  induction entries with
  | nil => simp [lookup]
  | cons entry rest ih =>
      by_cases hk : key = entry.1
      · subst hk
        by_cases h : other = entry.1
        · subst h
          simp [ih]
        · simp [lookup, ih, h]
      · by_cases h : other = key
        · subst h
          simp [lookup, ih, hk]
        · simp [lookup, ih, hk, h]

omit [Std.TransOrd κ] in
@[simp]
theorem find?_erase (map : SortedMap κ α) (key other : κ) :
    (map.erase key).find? other = if other = key then none else map.find? other :=
  lookup_filter_ne key other map.entries

theorem erase_eq_self {map : SortedMap κ α} {key : κ} (h : map.find? key = none) :
    map.erase key = map := by
  apply ext_find?
  intro other
  rw [find?_erase]
  split
  · rename_i heq
    rw [heq, h]
  · rfl

theorem find?_foldl_insert {map : SortedMap κ α} {entries : List (κ × α)} {value : α}
    (hsame : ∀ entry ∈ entries, entry.2 = value) (key : κ) :
    (entries.foldl (fun map entry => map.insert entry.1 entry.2) map).find? key =
      if key ∈ entries.map (·.1) then some value else map.find? key := by
  induction entries generalizing map with
  | nil => simp
  | cons entry rest ih =>
      obtain ⟨hfirst, hrest⟩ := List.forall_mem_cons.mp hsame
      rw [List.foldl_cons, ih hrest, find?_insert, hfirst]
      by_cases hmem : key ∈ rest.map (·.1) <;> by_cases hkey : key = entry.1 <;> simp [hmem, hkey]

theorem insert_eq_self {map : SortedMap κ α} {key : κ} {value : α}
    (h : map.find? key = some value) : map.insert key value = map := by
  apply ext_find?
  intro other
  rw [find?_insert]
  split
  · rename_i heq
    rw [heq, h]
  · rfl

section Sum

variable (weight : α → Nat)

def total (map : SortedMap κ α) : Nat := (map.values.map weight).sum

omit [DecidableEq κ] in
theorem sum_insertEntry (key : κ) (value : α) {entries : List (κ × α)} (hinc : Increasing entries) :
    ((insertEntry key value entries).map fun entry => weight entry.2).sum +
        ((lookup key entries).map weight).getD 0 =
      (entries.map fun entry => weight entry.2).sum + weight value := by
  induction entries with
  | nil => simp [insertEntry, lookup]
  | cons entry rest ih =>
      obtain ⟨hfirst, hrest⟩ := List.pairwise_cons.mp hinc
      simp only [insertEntry]
      split
      case h_1 hlt =>
        have hnone : lookup key (entry :: rest) = none := by
          rw [Option.eq_none_iff_forall_not_mem]
          intro other hother
          have hmem := mem_of_lookup_eq_some hother
          rcases List.mem_cons.mp hmem with heq | hmem
          · rw [← heq] at hlt
            simp at hlt
          · have hlt' := Std.TransCmp.lt_trans hlt (hfirst _ hmem)
            simp at hlt'
        rw [hnone]
        simp
        omega
      case h_2 heq =>
        simp [lookup, heq]
        omega
      case h_3 hgt =>
        have hlater := ih hrest
        have hlookup : lookup key (entry :: rest) = lookup key rest := by simp [lookup, hgt]
        rw [hlookup]
        simp only [List.map_cons, List.sum_cons]
        omega

omit [DecidableEq κ] in
theorem total_insert (map : SortedMap κ α) (key : κ) (value : α) :
    (map.insert key value).total weight + ((map.find? key).map weight).getD 0 =
      map.total weight + weight value := by
  simp only [total, values, List.map_map, Function.comp_def]
  exact sum_insertEntry weight key value map.increasing

theorem total_erase (map : SortedMap κ α) (key : κ) :
    (map.erase key).total weight + ((map.find? key).map weight).getD 0 = map.total weight := by
  cases hfind : map.find? key with
  | none => rw [erase_eq_self hfind]; rfl
  | some value =>
      have hback : (map.erase key).insert key value = map := by
        apply ext_find?
        intro other
        rw [find?_insert, find?_erase]
        split
        · rename_i heq
          rw [heq, hfind]
        · rfl
      have htotal := total_insert weight (map.erase key) key value
      rw [hback, find?_erase, if_pos rfl] at htotal
      simpa using htotal.symm

end Sum

-- Many keys with one value.
theorem find?_ofList_const (keys : List κ) (value : α) (key : κ) :
    (ofList (keys.map (·, value))).find? key = if key ∈ keys then some value else none := by
  have hsame (entry : κ × α) (h : entry ∈ keys.map (·, value)) : entry.2 = value := by
    obtain ⟨other, -, rfl⟩ := List.mem_map.mp h
    rfl
  rw [ofList, find?_foldl_insert hsame, find?_empty]
  simp

-- Without repetitions a map holds the entries that it is made of.
theorem find?_ofList {entries : List (κ × α)} (hnodup : (entries.map (·.1)).Nodup) {key : κ} {value : α} :
    (ofList entries).find? key = some value ↔ (key, value) ∈ entries := by
  suffices hall : ∀ map : SortedMap κ α,
      (entries.foldl (fun map entry => map.insert entry.1 entry.2) map).find? key = some value ↔
        (key, value) ∈ entries ∨ key ∉ entries.map (·.1) ∧ map.find? key = some value by
    rw [ofList, hall]
    simp
  induction entries with
  | nil => simp
  | cons first rest ih =>
      obtain ⟨hfresh, hrest⟩ := List.nodup_cons.mp hnodup
      intro map
      rw [List.foldl_cons, ih hrest, find?_insert]
      obtain ⟨name, old⟩ := first
      by_cases hkey : key = name
      · subst hkey
        have hnot : (key, value) ∉ rest := fun hmem =>
          hfresh (List.mem_map.mpr ⟨_, hmem, rfl⟩)
        have hfresh' : key ∉ rest.map (·.1) := hfresh
        simp [hnot, hfresh', eq_comm]
      · simp [hkey]

-- Values that are put under keys of their own are found again in their order.
theorem map_find?_ofList_zip {keys : List κ} {values : List α} (hnodup : keys.Nodup)
    (hlength : keys.length = values.length) (default : α) :
    keys.map (fun key => ((ofList (keys.zip values)).find? key).getD default) = values := by
  have hkeys : ((keys.zip values).map (·.1)).Nodup := by
    rw [List.map_fst_zip (Nat.le_of_eq hlength)]
    exact hnodup
  refine List.ext_getElem (by simpa using hlength) fun index hkey hvalue => ?_
  rw [List.length_map] at hkey
  have hzip : index < (keys.zip values).length := by
    rw [List.length_zip]
    exact Nat.lt_min.mpr ⟨hkey, hvalue⟩
  have hentry : (keys[index], values[index]) ∈ keys.zip values := by
    have hmem := List.getElem_mem hzip
    rwa [List.getElem_zip] at hmem
  rw [List.getElem_map, (find?_ofList hkeys).mpr hentry, Option.getD_some]

theorem mem_values_ofList {keys : List κ} {values : List α} (hnodup : keys.Nodup)
    (hlength : keys.length = values.length) {value : α} :
    value ∈ (ofList (keys.zip values)).values ↔ value ∈ values := by
  have hkeys : ((keys.zip values).map (·.1)).Nodup := by
    rw [List.map_fst_zip (Nat.le_of_eq hlength)]
    exact hnodup
  have hvalues : (keys.zip values).map (·.2) = values := List.map_snd_zip (Nat.le_of_eq hlength.symm)
  rw [SortedMap.values, List.mem_map]
  refine Iff.trans ⟨?_, ?_⟩ (Iff.of_eq (congrArg (value ∈ ·) hvalues))
  · rintro ⟨⟨key, _⟩, hentry, rfl⟩
    exact List.mem_map.mpr ⟨_, (find?_ofList hkeys).mp (mem_entries_iff.mp hentry), rfl⟩
  · intro hmem
    obtain ⟨⟨key, _⟩, hentry, rfl⟩ := List.mem_map.mp hmem
    exact ⟨_, mem_entries_iff.mpr ((find?_ofList hkeys).mpr hentry), rfl⟩

end Lookups

end SortedMap

namespace SortedSet

variable [Ord κ] [Std.TransOrd κ] [Std.LawfulEqOrd κ]

theorem mem_toList_iff {set : SortedSet κ} {key : κ} : key ∈ set.toList ↔ set.member key :=
  SortedMap.mem_keys_iff

omit [Std.TransOrd κ] in
theorem nodup_toList (set : SortedSet κ) : set.toList.Nodup := SortedMap.nodup_keys set

omit [Std.TransOrd κ] [Std.LawfulEqOrd κ] in
theorem toList_increasing (set : SortedSet κ) :
    set.toList.Pairwise fun a b => compare a b = .lt :=
  SortedMap.keys_increasing set

-- A set lists its members in increasing order.
theorem toList_eq_of_increasing {set : SortedSet κ} {keys : List κ}
    (hinc : keys.Pairwise fun a b => compare a b = .lt)
    (h : ∀ key, set.member key ↔ key ∈ keys) : set.toList = keys :=
  SortedMap.eq_of_increasing_of_mem_iff set.toList_increasing hinc fun key => by
    rw [mem_toList_iff, h]

theorem ext_toList {a b : SortedSet κ} (h : a.toList = b.toList) : a = b := by
  refine SortedMap.ext_find? fun key => ?_
  have hmember : key ∈ a.toList ↔ key ∈ b.toList := by rw [h]
  rw [mem_toList_iff, mem_toList_iff] at hmember
  rw [member, member, SortedMap.contains, SortedMap.contains] at hmember
  cases hold : SortedMap.find? a key <;> cases hnew : SortedMap.find? b key <;> simp_all

omit [Std.TransOrd κ] [Std.LawfulEqOrd κ] in
@[simp]
theorem size_eq_length_toList (set : SortedSet κ) : set.size = set.toList.length := by
  simp [SortedMap.size, toList, SortedMap.keys]

variable [DecidableEq κ]

@[simp]
theorem member_add {set : SortedSet κ} {key other : κ} :
    (set.add key).member other ↔ other = key ∨ set.member other := by
  by_cases h : other = key <;> simp [member, add, SortedMap.contains, h]

omit [Std.TransOrd κ] in
@[simp]
theorem member_erase {set : SortedSet κ} {key other : κ} :
    member (set.erase key) other ↔ other ≠ key ∧ set.member other := by
  by_cases h : other = key <;> simp [member, SortedMap.contains, h]

omit [Std.TransOrd κ] [Std.LawfulEqOrd κ] [DecidableEq κ] in
@[simp]
theorem not_member_empty (key : κ) : member (SortedMap.empty : SortedSet κ) key = false := rfl

@[simp]
theorem member_addAll {set : SortedSet κ} {keys : List κ} {key : κ} :
    (set.addAll keys).member key ↔ key ∈ keys ∨ set.member key := by
  induction keys generalizing set with
  | nil => simp [addAll]
  | cons first rest ih =>
      simp only [addAll, List.foldl_cons]
      rw [← addAll, ih, member_add, List.mem_cons]
      grind

@[simp]
theorem member_ofList {keys : List κ} {key : κ} : (ofList keys).member key ↔ key ∈ keys := by
  simp [ofList]

end SortedSet

end JobScheduler
