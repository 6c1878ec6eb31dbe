import JobScheduler.SortedMap

namespace JobScheduler

-- A value of a structured text. Numbers with a fraction and points in time are kept as
-- they were written.
inductive Document
  | null
  | boolean (value : Bool)
  | integer (value : Int)
  | float (literal : String)
  | moment (literal : String)
  | text (value : String)
  | list (items : List Document)
  | table (entries : List (String × Document))
deriving Repr, Inhabited

namespace Document

def ofNat (n : Nat) : Document := .integer n

def ofOption (write : α → Document) : Option α → Document
  | some value => write value
  | none => .null

def texts (values : List String) : Document := .list (values.map .text)

-- How closely a document has to follow its form. A lenient reading passes over items of a
-- list that the form does not ask for, and takes an empty list or table for nothing.
inductive Strictness
  | lenient | strict
deriving DecidableEq, Repr

def boolean? : Document → Option Bool
  | .boolean value => some value
  | _ => none

def text? : Document → Option String
  | .text value => some value
  | _ => none

def natBelow? (bound : Nat) : Document → Option Nat
  | .integer value => if 0 ≤ value ∧ value < bound then some value.toNat else none
  | _ => none

def list? (read : Document → Option α) : Document → Option (List α)
  | .list items => items.mapM read
  | _ => none

def map? (read : Document → Option α) : Document → Option (SortedMap String α)
  | .table entries =>
      (entries.mapM fun entry => (read entry.2).map (entry.1, ·)).map SortedMap.ofList
  | _ => none

def isNothing (strictness : Strictness) : Document → Bool
  | .null => true
  | .list [] | .table [] => strictness = .lenient
  | _ => false

-- A choice among names: the name itself, or a table that gives it nothing for a value.
def choice? (strictness : Strictness) (ofName? : String → Option α) : Document → Option α
  | .text name => ofName? name
  | .table [(name, value)] => if value.isNothing strictness then ofName? name else none
  | _ => none

-- The fields of a record, by name from a table or in order from a list. A point in time
-- stands for a record of no known field.
def record? (strictness : Strictness) (names : List String) :
    Document → Option (List (String × Document))
  | .table entries => some entries
  | .list items =>
      if strictness = .strict ∧ names.length < items.length then none
      else some (names.zip items)
  | .moment _ => some []
  | _ => none

def required (entries : List (String × Document)) (name : String) (read : Document → Option α) :
    Option α :=
  (entries.lookup name).bind read

def optional (entries : List (String × Document)) (name : String) (absent : α)
    (read : Document → Option α) : Option α :=
  match entries.lookup name with
  | some value => read value
  | none => some absent

end Document

end JobScheduler
