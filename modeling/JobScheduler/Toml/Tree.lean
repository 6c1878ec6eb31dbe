import JobScheduler.Document.Basic

namespace JobScheduler.Toml

-- How a table came about: under a header of its own, on the way to another header, or
-- by a dotted key.
inductive Origin
  | header | implied | dotted
deriving DecidableEq, Repr

-- What a document holds while it is read. A value is closed; tables can still grow.
inductive Item
  | value (value : Document)
  | table (origin : Origin) (entries : List (String × Item))
  | tables (elements : List (List (String × Item)))

abbrev Entries := List (String × Item)

namespace Entries

def put (key : String) (item : Item) : Entries → Entries
  | [] => [(key, item)]
  | entry :: rest => if entry.1 = key then (key, item) :: rest else entry :: put key item rest

-- Changes the table that a path leads to, making the tables that are missing on the way.
-- A path of a header goes through any table, and through the last one of a list of
-- tables. A dotted key does not lead into a table that has a header.
def changeAt (fresh : Origin) (change : Origin → Entries → Option Entries) :
    List String → Origin → Entries → Option Entries
  | [], origin, entries => change origin entries
  | key :: path, _, entries =>
      match entries.lookup key with
      | none => do
          let inner ← changeAt fresh change path fresh []
          return put key (.table fresh inner) entries
      | some (.table origin inner) =>
          if fresh = .dotted ∧ origin = .header then none
          else do
            let inner ← changeAt fresh change path origin inner
            return put key (.table origin inner) entries
      | some (.tables elements) => do
          let last ← elements.getLast?
          let inner ← changeAt fresh change path .header last
          return put key (.tables (elements.dropLast ++ [inner])) entries
      | some (.value _) => none

-- A header may be given once, also to a table that was only implied before.
def openTable (key : String) (_ : Origin) (entries : Entries) : Option Entries :=
  match entries.lookup key with
  | none => some (put key (.table .header []) entries)
  | some (.table .implied inner) => some (put key (.table .header inner) entries)
  | _ => none

def appendTable (key : String) (_ : Origin) (entries : Entries) : Option Entries :=
  match entries.lookup key with
  | none => some (put key (.tables [[]]) entries)
  | some (.tables elements) => some (put key (.tables (elements ++ [[]])) entries)
  | _ => none

-- A key is given once. Behind a dotted key lies a table made by dotted keys.
def addValue (key : String) (value : Document) (wanted : Bool) (origin : Origin)
    (entries : Entries) : Option Entries :=
  if decide (origin = .dotted) ≠ wanted then none
  else
    match entries.lookup key with
    | none => some (put key (.value value) entries)
    | some _ => none

-- Gives a value to a key, written with its path, in the table at hand.
def assign (keys : List String) (value : Document) (origin : Origin) (entries : Entries) :
    Option Entries := do
  let key ← keys.getLast?
  let path := keys.dropLast
  changeAt .dotted (addValue key value !path.isEmpty) path origin entries

end Entries

mutual

def Item.toDocument : Item → Document
  | .value value => value
  | .table _ entries => .table (entriesToDocument entries)
  | .tables elements => .list (elementsToDocument elements)

def entriesToDocument : List (String × Item) → List (String × Document)
  | [] => []
  | (key, item) :: rest => (key, item.toDocument) :: entriesToDocument rest

def elementsToDocument : List (List (String × Item)) → List Document
  | [] => []
  | entries :: rest => .table (entriesToDocument entries) :: elementsToDocument rest

end

end JobScheduler.Toml
