import JobScheduler.Shell.Utility.SortKey

namespace JobScheduler.Shell.Utility

open UtilityM

-- How lines are sorted. Without keys their bytes count.
structure Sorting where
  keys : List SortKey
  tab : Option Char
  reversed : Bool
  unique : Bool
  stable : Bool

-- A line with what it is sorted by.
structure Ranked where
  line : List Char
  ranks : List Rank

namespace Sorting

def rank (sorting : Sorting) (line : List Char) : Ranked :=
  ⟨line, sorting.keys.map fun key => key.rank sorting.tab line⟩

def keysOrder : List SortKey → List Rank → List Rank → Ordering
  | key :: keys, a :: as, b :: bs =>
      let order := a.order b
      (if key.letters.contains 'r' then order.swap else order).then (keysOrder keys as bs)
  | _, _, _ => .eq

def order (sorting : Sorting) (a b : Ranked) : Ordering :=
  let byKeys := keysOrder sorting.keys a.ranks b.ranks
  if byKeys ≠ .eq || (!sorting.keys.isEmpty && (sorting.unique || sorting.stable)) then byKeys
  else
    let byBytes := bytesOrder a.line b.line
    if sorting.reversed then byBytes.swap else byBytes

def notAfter (sorting : Sorting) (a b : Ranked) : Bool := (sorting.order a b).isLE

-- Leaves out lines that are like the one before them.
def withoutRepeats (sorting : Sorting) : List Ranked → List Ranked → List Ranked
  | kept, [] => kept.reverse
  | [], line :: rest => withoutRepeats sorting [line] rest
  | last :: kept, line :: rest =>
      if sorting.order last line = .eq then withoutRepeats sorting (last :: kept) rest
      else withoutRepeats sorting (line :: last :: kept) rest

-- The number and the text of the first line that is not where it belongs.
def disorder? (sorting : Sorting) : Nat → List Ranked → Option (Nat × List Char)
  | n, a :: b :: rest =>
      let order := sorting.order a b
      if order = .gt || (sorting.unique && order = .eq) then some (n + 1, b.line)
      else disorder? sorting (n + 1) (b :: rest)
  | _, _ => none

def sortLines (sorting : Sorting) (files : List (List (List Char))) (merges : Bool) :
    List (List Char) :=
  let ranked := files.map fun lines => lines.map sorting.rank
  let sorted :=
    if merges then
      ranked.foldl (fun merged lines => merged.merge lines sorting.notAfter) []
    else ranked.flatten.mergeSort sorting.notAfter
  (if sorting.unique then sorting.withoutRepeats [] sorted else sorted).map Ranked.line

end Sorting

def sortManual : Manual :=
  { letters := "bcCdfghik:mMno:rRsS:t:T:uVz"
    words := [("ignore-leading-blanks", 'b'), ("dictionary-order", 'd'), ("ignore-case", 'f'),
      ("general-numeric-sort", 'g'), ("human-numeric-sort", 'h'), ("ignore-nonprinting", 'i'),
      ("key", 'k'), ("merge", 'm'), ("month-sort", 'M'), ("numeric-sort", 'n'), ("output", 'o'),
      ("random-sort", 'R'), ("reverse", 'r'), ("stable", 's'), ("buffer-size", 'S'),
      ("field-separator", 't'), ("temporary-directory", 'T'), ("unique", 'u'),
      ("version-sort", 'V'), ("zero-terminated", 'z')] }

-- The character between fields.
def sortTab (call : Call) : UtilityM (Option Char) := do
  match call.value? 't' with
  | none => return none
  | some text =>
      match text.toList with
      | [] => fail 2 "empty tab"
      | [c] => return some c
      | ['\\', '0'] => return some '\x00'
      | _ => fail 2 s!"multi-character tab {Quoting.curly text}"

def sorting (call : Call) : UtilityM Sorting := do
  let letters := (call.options.map (·.1)).filter fun c =>
    c ≠ 'b' && SortKey.orderingLetters.contains c
  let skips := call.has 'b'
  let general : SortKey := { SortKey.whole with letters, skipsStart := skips, skipsStop := skips }
  let keys ← (call.values 'k').mapM fun text => do
    match SortKey.read text with
    | .error message => fail 2 message
    | .ok key =>
        if key.isDefault && !key.letters.contains 'r' then
          return { key with letters, skipsStart := skips, skipsStop := skips }
        else return key
  let keys := if keys.isEmpty && !general.isDefault then [general] else keys
  let conflict? := keys.findSome? SortKey.conflict?
  if let some letters := conflict? then
    let shown := String.ofList letters
    fail 2 s!"options '-{shown}' are incompatible"
  return ⟨keys, ← sortTab call, letters.contains 'r', call.has 'u', call.has 's'⟩

def sort : Utility := do
  let call ← call 2 sortManual
  let sorting ← sorting call
  let operands := orInput call.operands
  let ending := if call.has 'z' then '\x00' else '\n'
  let checks := call.last? ['c', 'C']
  if let (some letter, some extra) := (checks, call.operands[1]?) then
    let shown := Quoting.curly extra
    refuse 2 s!"extra operand {shown} not allowed with -{letter}"
  let files ← operands.mapM fun operand => do
    let name := Quoting.ifNeeded operand
    match ← openInput operand with
    | .error obstacle => fail 2 s!"cannot read: {name}: {obstacle.message}"
    | .ok number => do
        let result ← readAll number
        close number
        match result with
        | .error obstacle => fail 2 s!"read failed: {name}: {obstacle.message}"
        | .ok bytes => return linesBy ending bytes
  match checks with
  | some letter =>
      match sorting.disorder? 1 (files.flatten.map sorting.rank) with
      | none => return 0
      | some (number, line) => do
          let name := operands.headD "-"
          let shown := String.ofList line
          if letter = 'c' then complain s!"{name}:{number}: disorder: {shown}"
          return 1
  | none => do
      let text := unlinesBy ending (sorting.sortLines files (call.has 'm'))
      match call.value? 'o' with
      | none => say text
      | some output =>
          match ← open_ output { writes := true, creates := true, truncates := true } with
          | .error obstacle =>
              fail 2 s!"open failed: {Quoting.ifNeeded output}: {obstacle.message}"
          | .ok number => do
              let _ ← perform (ProcessM.writeBytes number text)
              close number
      return 0

end JobScheduler.Shell.Utility
