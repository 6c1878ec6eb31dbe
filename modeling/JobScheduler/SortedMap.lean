namespace JobScheduler

-- Entries in strictly increasing order of their keys.
def Increasing [Ord κ] (entries : List (κ × α)) : Prop :=
  entries.Pairwise fun a b => compare a.1 b.1 = .lt

-- A finite map kept as its entries in key order, of which there is only one list.
structure SortedMap (κ α : Type) [Ord κ] where
  entries : List (κ × α)
  increasing : Increasing entries

namespace SortedMap

section Entries

variable [Ord κ]

def insertEntry (key : κ) (value : α) : List (κ × α) → List (κ × α)
  | [] => [(key, value)]
  | entry :: rest =>
      match compare key entry.1 with
      | .lt => (key, value) :: entry :: rest
      | .eq => (key, value) :: rest
      | .gt => entry :: insertEntry key value rest

def lookup (key : κ) : List (κ × α) → Option α
  | [] => none
  | entry :: rest => if compare key entry.1 = .eq then some entry.2 else lookup key rest

theorem mem_insertEntry {key : κ} {value : α} {entry : κ × α} {entries : List (κ × α)}
    (h : entry ∈ insertEntry key value entries) : entry = (key, value) ∨ entry ∈ entries := by
  induction entries with
  | nil => simpa [insertEntry] using h
  | cons first rest ih =>
      simp only [insertEntry] at h
      split at h
      · simpa using h
      · simp only [List.mem_cons] at h ⊢
        rcases h with h | h
        · exact .inl h
        · exact .inr (.inr h)
      · simp only [List.mem_cons] at h ⊢
        rcases h with h | h
        · exact .inr (.inl h)
        · exact (ih h).imp id .inr

end Entries

variable [Ord κ]

instance [DecidableEq κ] [DecidableEq α] : DecidableEq (SortedMap κ α) := fun a b =>
  if h : a.entries = b.entries then
    isTrue (by cases a; cases b; cases h; rfl)
  else
    isFalse fun heq => h (by rw [heq])

theorem ext_entries {a b : SortedMap κ α} (h : a.entries = b.entries) : a = b := by
  cases a; cases b; cases h; rfl

def empty : SortedMap κ α := ⟨[], .nil⟩

instance : EmptyCollection (SortedMap κ α) := ⟨empty⟩

instance : Inhabited (SortedMap κ α) := ⟨empty⟩

def find? (map : SortedMap κ α) (key : κ) : Option α := lookup key map.entries

def contains (map : SortedMap κ α) (key : κ) : Bool := (map.find? key).isSome

def isEmpty (map : SortedMap κ α) : Bool := map.entries.isEmpty

def size (map : SortedMap κ α) : Nat := map.entries.length

def keys (map : SortedMap κ α) : List κ := map.entries.map (·.1)

def values (map : SortedMap κ α) : List α := map.entries.map (·.2)

def first? (map : SortedMap κ α) : Option (κ × α) := map.entries.head?

def mapValues (change : α → β) (map : SortedMap κ α) : SortedMap κ β :=
  ⟨map.entries.map fun entry => (entry.1, change entry.2),
    List.pairwise_map.mpr (map.increasing.imp id)⟩

def filterValues (keep : α → Bool) (map : SortedMap κ α) : SortedMap κ α :=
  ⟨map.entries.filter fun entry => keep entry.2, map.increasing.filter _⟩

def erase (map : SortedMap κ α) (key : κ) : SortedMap κ α :=
  ⟨map.entries.filter fun entry => compare key entry.1 != .eq, map.increasing.filter _⟩

variable [Std.TransOrd κ] [Std.LawfulEqOrd κ]

theorem increasing_insertEntry (key : κ) (value : α) {entries : List (κ × α)}
    (h : Increasing entries) : Increasing (insertEntry key value entries) := by
  induction entries with
  | nil => simp [insertEntry, Increasing]
  | cons first rest ih =>
      obtain ⟨hfirst, hrest⟩ := List.pairwise_cons.mp h
      simp only [insertEntry]
      split
      case h_1 hlt =>
        refine List.pairwise_cons.mpr ⟨fun entry hentry => ?_, h⟩
        rcases List.mem_cons.mp hentry with rfl | hentry
        · exact hlt
        · exact Std.TransCmp.lt_trans hlt (hfirst entry hentry)
      case h_2 heq =>
        have hkey : key = first.1 := Std.LawfulEqOrd.eq_of_compare heq
        exact List.pairwise_cons.mpr ⟨fun entry hentry => hkey ▸ hfirst entry hentry, hrest⟩
      case h_3 hgt =>
        refine List.pairwise_cons.mpr ⟨fun entry hentry => ?_, ih hrest⟩
        rcases mem_insertEntry hentry with rfl | hentry
        · exact Std.OrientedCmp.gt_iff_lt.mp hgt
        · exact hfirst entry hentry

def insert (map : SortedMap κ α) (key : κ) (value : α) : SortedMap κ α :=
  ⟨insertEntry key value map.entries, increasing_insertEntry key value map.increasing⟩

-- Later entries replace earlier ones with the same key.
def ofList (entries : List (κ × α)) : SortedMap κ α :=
  entries.foldl (fun map entry => map.insert entry.1 entry.2) empty

-- Changes the value under a key that is present and leaves the map alone otherwise.
def modify (map : SortedMap κ α) (key : κ) (change : α → α) : SortedMap κ α :=
  match map.find? key with
  | some value => map.insert key (change value)
  | none => map

section Lookup

variable [DecidableEq κ]

omit [Std.TransOrd κ] in
theorem lookup_insertEntry (key other : κ) (value : α) (entries : List (κ × α)) :
    lookup other (insertEntry key value entries) =
      if other = key then some value else lookup other entries := by
  induction entries with
  | nil => simp [insertEntry, lookup]
  | cons entry rest ih =>
      simp only [insertEntry]
      split
      case h_1 => simp [lookup]
      case h_2 heq =>
        have hkey : key = entry.1 := Std.LawfulEqOrd.eq_of_compare heq
        subst hkey
        by_cases h : other = entry.1 <;> simp [lookup, h]
      case h_3 hgt =>
        have hne : key ≠ entry.1 := fun h => by simp [h] at hgt
        by_cases h : other = key
        · subst h; simp [lookup, ih, hne]
        · simp [lookup, ih, h]

@[simp]
theorem find?_insert (map : SortedMap κ α) (key other : κ) (value : α) :
    (map.insert key value).find? other = if other = key then some value else map.find? other :=
  lookup_insertEntry key other value map.entries

omit [Std.TransOrd κ] [Std.LawfulEqOrd κ] [DecidableEq κ] in
@[simp]
theorem find?_empty (key : κ) : (empty : SortedMap κ α).find? key = none := rfl

end Lookup

end SortedMap

-- A finite set, kept in increasing order.
abbrev SortedSet (κ : Type) [Ord κ] := SortedMap κ Unit

namespace SortedSet

variable [Ord κ]

def toList (set : SortedSet κ) : List κ := set.keys

def member (set : SortedSet κ) (key : κ) : Bool := set.contains key

variable [Std.TransOrd κ] [Std.LawfulEqOrd κ]

def add (set : SortedSet κ) (key : κ) : SortedSet κ := set.insert key ()

def addAll (set : SortedSet κ) (keys : List κ) : SortedSet κ := keys.foldl add set

def ofList (keys : List κ) : SortedSet κ := addAll SortedMap.empty keys

end SortedSet

end JobScheduler
