import JobScheduler.Shell.Regex

namespace JobScheduler.Shell.Edit

-- Scripts of commands that change a text line by line.

-- A pattern. Without one the last pattern that was used counts.
structure Search where
  regex : Option Regex
  ignoresCase : Bool

inductive Address
  | line (n : Nat)
  -- The lines from one on with a certain distance.
  | step (first distance : Nat)
  | last
  | search (search : Search)

inductive Goal
  | address (address : Address)
  | more (count : Nat)
  | multiple (n : Nat)

-- The lines that a command is for. Line zero stands in front of all lines.
structure Selector where
  first : Option Address
  goal : Option Goal
  negated : Bool

-- How letters are changed as they are put in.
inductive Casing
  | upper | lower | nextUpper | nextLower | plain
deriving DecidableEq, Repr

inductive Piece
  | text (cs : List Char)
  | group (n : Nat)
  | casing (casing : Casing)

structure Substitution where
  search : Search
  pieces : List Piece
  everywhere : Bool
  prints : Bool
  -- The first occurrence that is replaced.
  number : Nat
  file : Option String

inductive Action
  -- Passes over a block if the line is not one of its lines.
  | enter (behind : Nat)
  | leave
  | append (text : List Char)
  | insert (text : List Char)
  | change (text : List Char)
  | jump (label : String)
  | jumpIf (label : String) (replaced : Bool)
  | label (name : String)
  | delete
  | deleteFirst
  | print
  | printFirst
  | next
  | join
  | quit (status : Nat) (prints : Bool)
  | fetch
  | fetchMore
  | hold
  | holdMore
  | exchange
  | number
  | show_ (width : Option Nat)
  | readFile (name : String)
  -- Puts in the next line of a file each time.
  | readLine (name : String)
  | writeFile (name : String)
  | writeFirst (name : String)
  | substitute (substitution : Substitution)
  | translate (pairs : List (Letter × Letter))
  | clear
  | fileName

structure Step where
  selector : Selector
  action : Action

structure Script where
  steps : Array Step
  silent : Bool

end JobScheduler.Shell.Edit
