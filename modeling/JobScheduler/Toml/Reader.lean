import JobScheduler.Toml.Moment
import JobScheduler.Toml.Tree

namespace JobScheduler.Toml

open Scan

def isBare (c : Char) : Bool := c.isAlphanum || c = '_' || c = '-'

def simpleKey : Scan String := do
  match ← peek? with
  | some '"' | some '\'' => Quote.short
  | _ =>
      let name ← takeWhile isBare
      if name.isEmpty then failure else return String.ofList name

-- How deep lists and tables nest at most, and how many keys dots join.
def maxDepth : Nat := 80

-- Keys joined by dots, with blanks around them.
def dottedKey : Nat → Scan (List String)
  | 0 => failure
  | fuel + 1 => do
      spaces
      let key ← simpleKey
      spaces
      if ← accept '.' then
        return key :: (← dottedKey fuel)
      else
        return [key]

def key : Scan (List String) := dottedKey maxDepth

def endsWord (c : Char) : Bool :=
  isSpace c || c ∈ ['\n', '\r', ',', ']', '\x7d', '#', '=', '[', '\x7b', '"', '\'']

-- A value without quotes or brackets. A date and a time of day may be two words.
def bareText : Scan (List Char) := do
  let word ← takeWhile (!endsWord ·)
  match ← get with
  | ' ' :: c :: rest =>
      if Moment.isBareDate word ∧ Number.isDecimal c then
        set (c :: rest)
        return word ++ ' ' :: (← takeWhile (!endsWord ·))
      else
        return word
  | _ => return word

def bareValue : Scan Document := do
  let word ← bareText
  if word = "true".toList then return .boolean true
  if word = "false".toList then return .boolean false
  match Number.integer? word, Number.float? word with
  | some value, _ => if Number.inRange value then return .integer value else failure
  | none, some literal => return .float literal
  | none, none =>
      if Moment.isMoment word then return .moment (String.ofList word) else failure

def items (value : Scan Document) : Nat → Scan (List Document)
  | 0 => failure
  | fuel + 1 => do
      gaps
      if ← accept ']' then
        return []
      let item ← value
      gaps
      if ← accept ',' then
        return item :: (← items value fuel)
      else
        expect ']'
        return [item]

def fields (value : Scan Document) : Nat → Entries → Scan Entries
  | 0, _ => failure
  | fuel + 1, entries => do
      gaps
      if ← accept '\x7d' then
        return entries
      let keys ← key
      expect '='
      spaces
      let item ← value
      gaps
      match Entries.assign keys item .header entries with
      | none => failure
      | some entries =>
          if ← accept ',' then
            fields value fuel entries
          else
            expect '\x7d'
            return entries

-- A value, given how to read the values inside its lists and tables, if there may be any.
def valueAround (inner : Option (Scan Document)) : Scan Document := do
  match ← peek?, inner with
  | some '"', _ | some '\'', _ => return .text (← Quote.any)
  | some '[', some inner => do
      expect '['
      return .list (← items inner (← get).length)
  | some '\x7b', some inner => do
      expect '\x7b'
      return .table (entriesToDocument (← fields inner (← get).length []))
  | some '[', none | some '\x7b', none => failure
  | _, _ => bareValue

-- A value with lists and tables nested no deeper than the given number.
def value : Nat → Scan Document
  | 0 => valueAround none
  | depth + 1 => valueAround (some (value depth))

-- The path of the header that is in force, and all that was read so far.
structure Progress where
  path : List String
  root : Entries

def header (progress : Progress) : Scan Progress := do
  expect '['
  let many ← accept '['
  let keys ← key
  expect ']'
  if many then
    expect ']'
  let change := if many then Entries.appendTable else Entries.openTable
  let root := do
    let last ← keys.getLast?
    Entries.changeAt .implied (change last) keys.dropLast .header progress.root
  match root with
  | some root => return ⟨keys, root⟩
  | none => failure

def assignment (progress : Progress) : Scan Progress := do
  let keys ← key
  expect '='
  spaces
  let item ← value maxDepth
  let assign := Entries.assign keys item
  match Entries.changeAt .implied assign progress.path .header progress.root with
  | some root => return { progress with root }
  | none => failure

def line (progress : Progress) : Scan Progress := do
  spaces
  match ← peek? with
  | none | some '#' | some '\n' | some '\r' => return progress
  | some '[' => header progress
  | some _ => assignment progress

-- Every line but the last reads at least its end.
def lines : Nat → Progress → Scan Progress
  | 0, progress => return progress
  | fuel + 1, progress => do
      let progress ← line progress
      lineEnd
      if (← get).isEmpty then return progress else lines fuel progress

def dropByteOrderMark : List Char → List Char
  | '\uFEFF' :: rest => rest
  | text => text

def read (text : List Char) : Option Document := do
  let (progress, _) ← (lines (text.length + 1) ⟨[], []⟩).run (dropByteOrderMark text)
  return .table (entriesToDocument progress.root)

end JobScheduler.Toml
