import JobScheduler.Shell.Utility.Edit.Read
import JobScheduler.Shell.Utility.Remove

namespace JobScheduler.Shell.Edit

open UtilityM

-- What a script does with the lines of files.

-- How far the lines of a step's range go.
inductive Range
  | outside
  | upTo (line : Nat)
  | open_
deriving DecidableEq, Repr

-- Something to write when the line at hand is done.
inductive Later
  | text (cs : List Char)
  | file (name : String)

structure Options where
  silent : Bool
  ending : Char
  separate : Bool
  -- What is added to the names of files to keep what they held, if they are changed in place.
  inPlace : Option String

structure Edition where
  line : List Char := []
  kept : List Char := []
  number : Nat := 0
  -- Whether the line at hand, and what is kept, has an end.
  complete : Bool := true
  keptComplete : Bool := true
  replaced : Bool := false
  later : List Later := []
  ranges : Array Range := #[]
  lastSearch : Option Search := none
  -- The lines that are left of the file at hand, with the one without an end marked.
  waiting : List (List Char × Bool) := []
  files : List String
  file : String := "-"
  -- What is to be written to the file at hand, the last part first.
  held : List (List Char) := []
  -- Whether what was written last lacks the end of its line, by the name of the file.
  unfinished : List String := []
  written : List (String × Nat) := []
  -- What is left of the files that are read line by line.
  sources : List (String × List (List Char × Bool)) := []
  status : Nat := 0

abbrev EditM := ReaderT Options (StateT Edition UtilityM)

-- What follows a step.
inductive Flow
  | onward
  | to (step : Nat)
  | nextLine (prints : Bool)
  -- Begins again with what is left of the line.
  | again
  | quit (status : Nat) (prints : Bool)

def perform (work : UtilityM α) : EditM α := fun _ => StateT.lift work

def put (bytes : List Char) : EditM Unit := do
  if (← read).inPlace.isSome then
    modify fun edition => { edition with held := bytes :: edition.held }
  else perform (say bytes)

def putTo (name : String) (bytes : List Char) : EditM Unit := do
  match (← get).written.lookup name with
  | some number => do
      let _ ← perform (UtilityM.perform (ProcessM.writeBytes number bytes))
  | none => put bytes

-- Writes to a file, or to the output if there is no name, after the end of what was written
-- there before.
def putLine (name : String) (bytes : List Char) (complete : Bool) : EditM Unit := do
  let ending := (← read).ending
  let before := if (← get).unfinished.contains name then [ending] else []
  modify fun edition =>
    { edition with
      unfinished := (if complete then [] else [name]) ++ edition.unfinished.filter (· != name) }
  putTo name (before ++ bytes ++ if complete then [ending] else [])

def putText (bytes : List Char) : EditM Unit := do
  let ending := (← read).ending
  let before := if (← get).unfinished.contains "" then [ending] else []
  modify fun edition => { edition with unfinished := edition.unfinished.filter (· != "") }
  put (before ++ bytes)

def printLine : EditM Unit := do
  let edition ← get
  putLine "" edition.line edition.complete

-- Writes back a file that is changed in place.
def closeFile : EditM Unit := do
  match (← read).inPlace with
  | none => return
  | some suffix => do
      let edition ← get
      let bytes := edition.held.reverse.flatten
      set { edition with held := [], unfinished := edition.unfinished.filter (· != "") }
      perform do
        match ← Utility.place edition.file true with
        | .found path (.file index) => do
            if suffix != "" then
              let name := FileTree.lastPart path
              let kept :=
                if suffix.contains '*' then suffix.replace "*" name else name ++ suffix
              Utility.change fun tree =>
                let full := FileTree.resolve (FileTree.parent path) kept
                (tree.remove full).copy path full
            Utility.change fun tree => tree.setBytes index bytes
        | _ => return

-- The lines of a text, each with whether it has an end.
def markedLines (ending : Char) (bytes : List Char) : List (List Char × Bool) :=
  match (splitAt ending bytes).reverse with
  | [] => []
  | last :: rest => (rest.reverse.map (·, true)) ++ if last.isEmpty then [] else [(last, false)]

-- Turns to the next file that can be read.
def openNext : Nat → EditM Bool
  | 0 => return false
  | fuel + 1 => do
      match (← get).files with
      | [] => return false
      | name :: files => do
          modify fun edition => { edition with files }
          let failed := fun (status : Nat) (message : String) => do
            perform (complain message)
            modify fun edition => { edition with status }
            openNext fuel
          let edits := (← read).inPlace.isSome
          if edits then
            if ← perform (do return (← tree).isDirectory (← directory) name) then
              return ← failed 4 s!"couldn't edit {name}: not a regular file"
          match ← perform (openInput name) with
          | .error obstacle => failed 2 s!"can't read {name}: {obstacle.message}"
          | .ok number => do
              let result ← perform (readAll number)
              perform (close number)
              match result with
              | .error obstacle =>
                  perform (UtilityM.fail 4 s!"read error on {name}: {obstacle.message}")
              | .ok bytes => do
                  let waiting := markedLines (← read).ending bytes
                  if (← read).separate then
                    modify fun edition => { edition with waiting, file := name, number := 0 }
                    if waiting.isEmpty then
                      closeFile
                      openNext fuel
                    else return true
                  else
                    modify fun edition => { edition with waiting, file := name }
                    if waiting.isEmpty then openNext fuel else return true

def fileCount : EditM Nat := return (← get).files.length + 1

-- Whether the line at hand is the last one.
def isLast : EditM Bool := do
  if !(← get).waiting.isEmpty then return false
  if (← read).separate then return true
  return !(← openNext (← fileCount))

-- The next line, if there is one.
def nextLine? : EditM (Option (List Char × Bool)) := do
  if (← get).waiting.isEmpty then
    if (← read).separate && (← get).number ≠ 0 then closeFile
    if !(← openNext (← fileCount)) then return none
  match (← get).waiting with
  | [] => return none
  | next :: waiting => do
      modify fun edition =>
        { edition with waiting, number := edition.number + 1, complete := next.2 }
      return some next

-- Writes what was put off.
def flush : EditM Unit := do
  let later := (← get).later
  modify fun edition => { edition with later := [] }
  later.forM fun item => do
    match item with
    | .text cs => putText cs
    | .file name => do
        let bytes ← perform (contents (if name == "/dev/stdin" then "-" else name))
        match bytes with
        | .ok bytes => if !bytes.isEmpty then putText bytes
        | .error _ => return

def regexOf (search : Search) : EditM Regex := do
  match search.regex with
  | some regex => do
      modify fun edition => { edition with lastSearch := some search }
      return regex
  | none =>
      match (← get).lastSearch.bind Search.regex with
      | some regex => return regex
      | none => perform (UtilityM.fail 1 "-e expression #1, char 0: no previous regular expression")

def finds (search : Search) : EditM Bool := do
  let regex ← regexOf search
  let subject := Regex.Subject.ofBytes search.ignoresCase (← get).line
  return (regex.find? subject 0).isSome

def fits (address : Address) : EditM Bool := do
  let number := (← get).number
  match address with
  | .line n => return number = n
  | .step first distance =>
      if distance = 0 then return number = first
      else return first ≤ number && (number - first) % distance = 0
  | .last => isLast
  | .search search => finds search

-- The first multiple of a number behind a line.
def multipleAfter (line n : Nat) : Nat := if n = 0 then line else line + n - line % n

-- Whether a step is for the line at hand, as far as its range goes.
def isSelected (index : Nat) (selector : Selector) : EditM Bool := do
  let number := (← get).number
  let setRange := fun (range : Range) =>
    modify fun edition => { edition with ranges := edition.ranges.setIfInBounds index range }
  match selector.first, selector.goal with
  | none, _ => return true
  | some first, none => fits first
  | some first, some goal => do
      let begin_ : EditM Bool := do
        if !(← fits first) then return false
        match goal with
        | .address (.line n) => if number < n then setRange (.upTo n)
        | .more n => if n ≠ 0 then setRange (.upTo (number + n))
        | .multiple n =>
            let line := multipleAfter number n
            if number < line then setRange (.upTo line)
        | .address _ => setRange .open_
        return true
      match (← get).ranges.getD index .outside with
      | .outside => begin_
      | .upTo line => do
          if line ≤ number then setRange .outside
          if number ≤ line then return true else begin_
      | .open_ => do
          if let .address address := goal then
            if ← fits address then setRange .outside
          return true

-- Changes letters as they are put in. The first letter can be an exception.
def applyCasing (whole : Casing) (once : Option Casing) (cs : List Char) :
    List Char × Option Casing :=
  let change := fun (casing : Casing) (c : Char) =>
    match casing with
    | .upper | .nextUpper => c.toUpper
    | .lower | .nextLower => c.toLower
    | .plain => c
  match cs, once with
  | [], once => ([], once)
  | c :: rest, some casing => (change casing c :: rest.map (change whole), none)
  | cs, none => (cs.map (change whole), none)

def buildReplacement (subject : Regex.Subject) (found : Regex.Match) :
    Casing → Option Casing → List Piece → List Char
  | _, _, [] => []
  | whole, once, piece :: rest =>
      let add := fun (cs : List Char) =>
        let (cs, once) := applyCasing whole once cs
        cs ++ buildReplacement subject found whole once rest
      match piece with
      | .text cs => add cs
      | .group n =>
          match found.group? n with
          | some (low, high) => add (subject.slice low high)
          | none => add []
      | .casing .nextUpper => buildReplacement subject found whole (some .nextUpper) rest
      | .casing .nextLower => buildReplacement subject found whole (some .nextLower) rest
      | .casing casing => buildReplacement subject found casing none rest

-- Replaces occurrences from a place on. An empty one does not count where another has ended.
def replaceFrom (substitution : Substitution) (regex : Regex) (subject : Regex.Subject) :
    Nat → Nat → Nat → Option Nat → List Char × Bool
  | 0, start, _, _ => (subject.slice start subject.letters.size, false)
  | fuel + 1, start, count, before =>
      match regex.find? subject start with
      | none => (subject.slice start subject.letters.size, false)
      | some found =>
          let skipped := subject.slice start found.start
          let isEmpty := found.start = found.stop
          let goOn := fun (count : Nat) =>
            if isEmpty then
              if subject.letters.size ≤ found.stop then ([], false)
              else
                let (rest, replaced) :=
                  replaceFrom substitution regex subject fuel (found.stop + 1) count none
                (subject.slice found.stop (found.stop + 1) ++ rest, replaced)
            else replaceFrom substitution regex subject fuel found.stop count (some found.stop)
          if isEmpty && before = some found.start then
            let (rest, replaced) := goOn count
            (skipped ++ rest, replaced)
          else if count + 1 < substitution.number then
            let (rest, replaced) := goOn (count + 1)
            (skipped ++ subject.slice found.start found.stop ++ rest, replaced)
          else
            let put := buildReplacement subject found .plain none substitution.pieces
            if substitution.everywhere then
              (skipped ++ put ++ (goOn (count + 1)).1, true)
            else
              (skipped ++ put ++ subject.slice found.stop subject.letters.size, true)

def substitute (substitution : Substitution) : EditM Unit := do
  let regex ← regexOf substitution.search
  let subject := Regex.Subject.ofBytes substitution.search.ignoresCase (← get).line
  let (line, replaced) :=
    replaceFrom substitution regex subject (2 * subject.letters.size + 2) 0 0 none
  if replaced then
    modify fun edition => { edition with line, replaced := true }
    if substitution.prints then printLine
    if let some name := substitution.file then
      putLine name line (← get).complete

-- The bytes of a line as they can be seen, each with its escape.
def visible (c : Char) : List Char :=
  let simple : Option Char :=
    [('\\', '\\'), ('\x07', 'a'), ('\x08', 'b'), ('\x0c', 'f'), ('\n', 'n'), ('\r', 'r'),
      ('\t', 't'), ('\x0b', 'v')].lookup c
  match simple with
  | some d => ['\\', d]
  | none =>
      if ' ' ≤ c && c ≤ '~' then [c]
      else
        let n := c.toNat
        '\\' :: [n / 64 % 8, n / 8 % 8, n % 8].map fun digit => Char.ofNat (48 + digit)

-- Puts escapes together in lines of a width.
def wrap (width : Nat) : Nat → List (List Char) → List Char
  | _, [] => ['$', '\n']
  | column, shown :: rest =>
      if width ≠ 0 && width - 1 < column + shown.length then
        ['\\', '\n'] ++ shown ++ wrap width shown.length rest
      else shown ++ wrap width (column + shown.length) rest

def translate (pairs : List (Letter × Letter)) (line : List Char) : List Char :=
  ((characters line).map fun letter => (pairs.lookup letter).getD letter).flatten

-- The place behind a label, or the end of the script if there is no name.
def labelPlace? (script : Script) (name : String) : Option Nat :=
  if name == "" then some script.steps.size
  else
    script.steps.findIdx? fun step =>
      match step.action with
      | .label other => other == name
      | _ => false

def jumpTo (script : Script) (name : String) : Flow :=
  .to ((labelPlace? script name).getD script.steps.size)

-- Puts off the next line of a file, if there is one.
def readLineOf (name : String) : EditM Unit := do
  let ending := (← read).ending
  let lines ←
    match (← get).sources.lookup name with
    | some lines => pure lines
    | none => do
        match ← perform (contents (if name == "/dev/stdin" then "-" else name)) with
        | .ok bytes => pure (markedLines ending bytes)
        | .error _ => pure []
  modify fun edition =>
    { edition with sources := (name, lines.drop 1) :: edition.sources.filter (·.1 != name) }
  if let some (line, complete) := lines.head? then
    let text := line ++ if complete then [ending] else []
    modify fun edition => { edition with later := edition.later ++ [Later.text text] }

-- What a step does with the line at hand.
def act (script : Script) (index : Nat) (selector : Selector) (action : Action) : EditM Flow := do
  let edition ← get
  let ending := (← read).ending
  let setLine := fun (line : List Char) => set { edition with line }
  match action with
  | .enter _ | .leave | .label _ => return .onward
  | .append text => do
      set { edition with later := edition.later ++ [Later.text text] }
      return .onward
  | .insert text => do
      putText text
      return .onward
  | .change text => do
      let goesOn := edition.ranges.getD index .outside ≠ .outside
      if selector.goal.isNone || selector.negated || !goesOn then putText text
      return .nextLine false
  | .jump name => return jumpTo script name
  | .jumpIf name wanted => do
      set { edition with replaced := false }
      return if edition.replaced = wanted then jumpTo script name else .onward
  | .delete => return .nextLine false
  | .deleteFirst =>
      if edition.line.contains ending then
        setLine ((edition.line.dropWhile (· ≠ ending)).drop 1)
        return .again
      else return .nextLine false
  | .print => do
      printLine
      return .onward
  | .printFirst => do
      putLine "" (edition.line.takeWhile (· ≠ ending)) true
      return .onward
  | .next => do
      if ← isLast then return .quit 0 true
      if !(← read).silent then printLine
      flush
      if let some (line, _) ← nextLine? then modify fun edition => { edition with line }
      return .onward
  | .join => do
      if ← isLast then return .quit 0 true
      flush
      if let some (line, _) ← nextLine? then
        modify fun edition => { edition with line := edition.line ++ ending :: line }
      return .onward
  | .quit status prints => return .quit status prints
  | .fetch => do
      set { edition with line := edition.kept, complete := edition.keptComplete }
      return .onward
  | .fetchMore => do
      let line := edition.line ++ ending :: edition.kept
      set { edition with line, complete := edition.keptComplete }
      return .onward
  | .hold => do
      set { edition with kept := edition.line, keptComplete := edition.complete }
      return .onward
  | .holdMore => do
      let kept := edition.kept ++ ending :: edition.line
      set { edition with kept, keptComplete := edition.complete }
      return .onward
  | .exchange => do
      set
        { edition with
          line := edition.kept, complete := edition.keptComplete
          kept := edition.line, keptComplete := edition.complete }
      return .onward
  | .number => do
      putText (s!"{edition.number}\n").toList
      return .onward
  | .show_ width => do
      putText (wrap (width.getD 70) 0 (edition.line.map visible))
      return .onward
  | .readFile name => do
      set { edition with later := edition.later ++ [Later.file name] }
      return .onward
  | .readLine name => do
      readLineOf name
      return .onward
  | .writeFile name => do
      putLine name edition.line edition.complete
      return .onward
  | .writeFirst name => do
      putLine name (edition.line.takeWhile (· ≠ ending)) true
      return .onward
  | .substitute substitution => do
      substitute substitution
      return .onward
  | .translate pairs => do
      setLine (translate pairs edition.line)
      return .onward
  | .clear => do
      setLine []
      return .onward
  | .fileName => do
      putText (edition.file ++ "\n").toList
      return .onward

-- Takes the steps from one on and tells what follows the last one.
def follow (script : Script) : Nat → Nat → EditM Flow
  | 0, _ => return .quit 0 false
  | fuel + 1, index => do
      match script.steps[index]? with
      | none => return .nextLine true
      | some step => do
          let selected := (← isSelected index step.selector) != step.selector.negated
          match step.action, selected with
          | .enter behind, false => follow script fuel behind
          | _, false => follow script fuel (index + 1)
          | action, true =>
              match ← act script index step.selector action with
              | .onward => follow script fuel (index + 1)
              | .to index => follow script fuel index
              | flow => return flow

-- Works on one line after the other, with one that was left over first.
def cycles (script : Script) : Nat → Bool → EditM Nat
  | 0, _ => return 0
  | fuel + 1, leftOver => do
      let ready ←
        if leftOver then pure true
        else
          match ← nextLine? with
          | some (line, _) => do
              modify fun edition => { edition with line, replaced := false }
              pure true
          | none => pure false
      if !ready then return 0
      let prints := !(← read).silent
      match ← follow script ProcessM.patience 0 with
      | .quit status shows => do
          if shows && prints then printLine
          flush
          if (← read).inPlace.isSome then
            let rest := (← get).waiting
            rest.forM fun (line, complete) => putLine "" line complete
          closeFile
          return status
      | .again => do
          flush
          cycles script fuel true
      | .nextLine shows => do
          if shows && prints then printLine
          flush
          cycles script fuel false
      | _ => cycles script fuel false

end JobScheduler.Shell.Edit
