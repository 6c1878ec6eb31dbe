import JobScheduler.Shell.Regex.Read
import JobScheduler.Shell.Utility.Remove

namespace JobScheduler.Shell.Utility

open UtilityM

-- The utility that looks for lines with a pattern.

structure Search where
  patterns : List Regex
  ignoresCase : Bool
  words : Bool
  whole : Bool
  inverted : Bool
  most : Option Nat
  before : Nat
  after : Nat
  names : Bool
  numbers : Bool
  only : Bool
  silent : Bool
  counts : Bool
  listing : Option Char
  asText : Bool

namespace Search

-- The longest match at a place that stands alone, if words are looked for.
def matchAt? (search : Search) (subject : Regex.Subject) (start : Nat) : Option (Nat × Nat) :=
  let ends := search.patterns.flatMap fun pattern =>
    (pattern.run subject ⟨start, []⟩).map Regex.Reach.position
  let fits := fun (stop : Nat) =>
    (!search.whole || (start = 0 && stop = subject.letters.size)) &&
      (!search.words ||
        (!Regex.wordBefore subject start && !Regex.wordAt subject stop))
  ((ends.filter fits).max?).map fun stop => (start, stop)

def match? (search : Search) (subject : Regex.Subject) (start : Nat) : Option (Nat × Nat) :=
  (List.range (subject.letters.size + 1 - start)).findSome? fun i =>
    search.matchAt? subject (start + i)

-- All matches that are not empty.
def matches_ (search : Search) (subject : Regex.Subject) : Nat → Nat → List (Nat × Nat)
  | 0, _ => []
  | fuel + 1, start =>
      match search.match? subject start with
      | none => []
      | some (low, high) =>
          if low = high then matches_ search subject fuel (high + 1)
          else (low, high) :: matches_ search subject fuel high

def selects (search : Search) (subject : Regex.Subject) : Bool :=
  (search.match? subject 0).isSome != search.inverted

end Search

-- How far a search in one input has come.
structure Found where
  number : Nat := 0
  count : Nat := 0
  -- Lines that were not chosen, the last one first.
  held : List (Nat × List Char) := []
  following : Nat := 0
  -- The number of the last line that was written.
  written : Nat := 0
  hidden : Bool := false

def sayFound (search : Search) (name : String) (number : Nat) (mark : Char) (line : List Char) :
    UtilityM Unit := do
  let place := if search.names then name.toList ++ [mark] else []
  let digits := if search.numbers then Nat.toDigits 10 number ++ [mark] else []
  say (place ++ digits ++ line ++ ['\n'])

def isReadable (line : List Char) : Bool := (characters line).all Regex.isWhole

-- Writes a line that was chosen, with what comes before it.
def sayChosen (search : Search) (name : String) (found : Found) (subject : Regex.Subject)
    (line : List Char) : UtilityM Unit := do
  let held := found.held.reverse
  let first := (held.head?.map (·.1)).getD found.number
  if (0 < search.before || 0 < search.after) && found.written ≠ 0 && found.written + 1 < first then
    say ['-', '-', '\n']
  if !search.only then
    held.forM fun (number, line) => sayFound search name number '-' line
    sayFound search name found.number ':' line
  else if !search.inverted then
    (search.matches_ subject (subject.letters.size + 2) 0).forM fun (low, high) =>
      sayFound search name found.number ':' (subject.slice low high)

-- Works on a line and tells whether to go on.
def searchLine (search : Search) (name : String) (binary : Bool) (found : Found)
    (line : List Char) : UtilityM (Bool × Found) := do
  let subject := Regex.Subject.ofBytes search.ignoresCase line
  let found := { found with number := found.number + 1 }
  let shows := !(search.silent || search.counts || search.listing.isSome)
  let isOpen := fun (count : Nat) => search.most.all (count < ·)
  if isOpen found.count && search.selects subject then
    let found := { found with count := found.count + 1 }
    if search.silent || search.listing.isSome then return (false, found)
    if shows && !search.asText && (binary || !isReadable line) then
      return (false, { found with hidden := true })
    if shows then sayChosen search name found subject line
    return (isOpen found.count || 0 < search.after,
      { found with held := [], following := search.after, written := found.number })
  else if shows && 0 < found.following then
    if !search.only then sayFound search name found.number '-' line
    return (isOpen found.count || 1 < found.following,
      { found with following := found.following - 1, written := found.number, held := [] })
  else
    let held := ((found.number, line) :: found.held).take search.before
    return (isOpen found.count, { found with held })

-- The lines are read at once, but those behind the last one that is looked at are left to
-- be read by others if that can be done.
def searchInput (search : Search) (name : String) (number : Nat) :
    UtilityM (Except Obstacle Found) := do
  match ← readAll number with
  | .error obstacle => return .error obstacle
  | .ok bytes => do
      let binary := bytes.contains '\x00'
      let rec go : List (List Char) → Found → UtilityM (Found × List (List Char))
        | [], found => return (found, [])
        | line :: rest, found => do
            if search.most = some 0 then return (found, line :: rest)
            match ← searchLine search name binary found line with
            | (true, found) => go rest found
            | (false, found) => return (found, rest)
      let (found, rest) ← go (lines bytes) {}
      if search.most.isSome then
        let left := (unlines rest).length
        let ended := bytes.getLast? = some '\n'
        let left := if ended || left = 0 then left else left - 1
        let isFile :=
          match (← target? number).map Opened.target with
          | some (.file _) => true
          | _ => false
        if isFile then perform (ProcessM.giveBack number (bytes.drop (bytes.length - left)))
      return .ok found

def searchManual : Manual :=
  { letters := "0123456789A:B:C:EFGHLPTUVZabce:f:hilm:noqRrsvwxyzI:X:D:O::"
    words := [("extended-regexp", 'E'), ("fixed-strings", 'F'), ("basic-regexp", 'G'),
      ("regexp", 'e'), ("file", 'f'), ("ignore-case", 'i'), ("invert-match", 'v'),
      ("word-regexp", 'w'), ("line-regexp", 'x'), ("count", 'c'), ("files-without-match", 'L'),
      ("files-with-matches", 'l'), ("max-count", 'm'), ("only-matching", 'o'), ("quiet", 'q'),
      ("silent", 'q'), ("no-messages", 's'), ("with-filename", 'H'), ("no-filename", 'h'),
      ("line-number", 'n'), ("after-context", 'A'), ("before-context", 'B'), ("context", 'C'),
      ("text", 'a'), ("recursive", 'r'), ("include", 'I'), ("exclude", 'X'),
      ("exclude-dir", 'D'), ("color", 'O'), ("colour", 'O')] }

def searchUsage : UtilityM α := do
  writeErrors s!"Usage: {(← read).name} [OPTION]... PATTERNS [FILE]...\n".toList
  hint 2

-- The lines of the patterns that are given, and the operands that are left.
def givenPatterns (call : Call) : UtilityM (List (List Char) × List String) := do
  let named ← (call.options.filter fun option => ['e', 'f'].contains option.1).mapM
    fun (letter, text) => do
      if letter = 'e' then return splitAt '\n' text.toList
      else
        match ← contents text with
        | .ok bytes => return lines bytes
        | .error obstacle => fail 2 s!"{text}: {obstacle.message}"
  if call.has 'e' || call.has 'f' then return (named.flatten, call.operands)
  else
    match call.operands with
    | [] => searchUsage
    | first :: rest => return (splitAt '\n' first.toList, rest)

-- The files below a directory, with the names by which they are shown.
def filesBelow (operand : String) (included excluded : List String) :
    UtilityM (List String) := do
  let fits := fun (pattern name : String) =>
    (Pattern.read (pattern.toList.map (·, false))).fits name.toList
  match ← place operand true with
  | .found path .directory => do
      let tree ← tree
      let files := (tree.below path).filterMap fun (rest, node) =>
        match node with
        | .file _ => some rest
        | _ => none
      let wanted := fun (rest : String) =>
        let name := FileTree.lastPart rest
        (included.isEmpty || included.any (fits · name)) && !excluded.any (fits · name)
      return (files.filter wanted).map fun rest =>
        if operand.endsWith "/" then operand ++ String.ofList (rest.toList.drop 1)
        else operand ++ rest
  | _ => return [operand]

def grepWith (extended fixed : Bool) : Utility := do
  let arguments := (← read).arguments
  let call ←
    match Call.readFrom searchManual (arguments.length + 1) arguments with
    | .ok call => if call.has Call.about then leave 0 else pure call
    | .error message => do
        complain message
        searchUsage
  let size := fun (letter : Char) => do
    match call.value? letter with
    | none => return none
    | some text =>
        match natural? text with
        | some n => return some n
        | none =>
            fail 2 (text ++ (if letter = 'm' then ": invalid max count"
              else ": invalid context length argument"))
  let digits := (call.options.map (·.1)).filter Char.isDigit
  let around := (← size 'C').orElse fun _ => natural? (String.ofList digits)
  let after := ((← size 'A').orElse fun _ => around).getD 0
  let before := ((← size 'B').orElse fun _ => around).getD 0
  let (texts, operands) ← givenPatterns call
  let kind := call.last? ['E', 'F', 'G', 'P']
  let extended := kind.elim extended fun c => c = 'E' || c = 'P'
  let fixed := kind.elim fixed (· = 'F')
  let patterns ← texts.mapM fun text => do
    if fixed then return Regex.literal text
    else
      match Regex.read extended text with
      | .ok (regex, _) => return regex
      | .error .invalidPattern => fail 2 Regex.Fault.unmatchedBracket.message
      | .error fault => fail 2 fault.message
  let recursive := call.has 'r' || call.has 'R'
  let inputs ←
    if recursive then do
      let found ← (if operands.isEmpty then ["."] else operands).mapM
        (filesBelow · (call.values 'I') (call.values 'X'))
      let found := found.flatten
      pure (if operands.isEmpty then
        found.map fun name => String.ofList (name.toList.drop 2) else found)
    else pure (orInput operands)
  let named :=
    match call.last? ['H', 'h'] with
    | some letter => letter == 'H'
    | none => 1 < inputs.length || (recursive && operands.all fun operand => inputs != [operand])
  let search : Search :=
    { patterns, ignoresCase := call.has 'i' || call.has 'y', words := call.has 'w'
      whole := call.has 'x', inverted := call.has 'v', most := ← size 'm', before, after
      names := named, numbers := call.has 'n', only := call.has 'o', silent := call.has 'q'
      counts := call.has 'c', listing := call.last? ['l', 'L'], asText := call.has 'a' }
  let (selected, failed) ← inputs.foldlM
    (fun (state : Bool × Bool) input => do
      if state.1 && search.silent then return state
      let name := if input == "-" then "(standard input)" else input
      let problem := fun (obstacle : Obstacle) => do
        if !call.has 's' then complain s!"{input}: {obstacle.message}"
        return (state.1, true)
      match ← openInput input with
      | .error obstacle => problem obstacle
      | .ok number => do
          let result ← searchInput search name number
          close number
          match result with
          | .error obstacle => problem obstacle
          | .ok found => do
              if found.hidden then complain s!"{name}: binary file matches"
              match search.listing with
              | some letter => do
                  let listed := (0 < found.count) == (letter == 'l')
                  if listed && !search.silent then sayLine name
                  return (state.1 || 0 < found.count, state.2)
              | none => do
                  if search.counts && !search.silent then
                    sayLine ((if search.names then name ++ ":" else "") ++ toString found.count)
                  return (state.1 || 0 < found.count, state.2))
    (false, false)
  return if failed && !(search.silent && selected) then 2 else if selected then 0 else 1

def grep : Utility := grepWith false false

def egrep : Utility := grepWith true false

def fgrep : Utility := grepWith false true

end JobScheduler.Shell.Utility
