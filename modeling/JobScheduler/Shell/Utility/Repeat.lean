import JobScheduler.Shell.Utility.Count
import JobScheduler.Shell.Utility.Wrap

namespace JobScheduler.Shell.Utility

open UtilityM

-- The utility that runs a program again and again with what it reads.

inductive WordFault
  | unmatched (kind : String)

-- The words of a text with quotes and backslashes, and for each whether a line ends behind it.
def readWords (linesOnly : Bool) :
    Nat → List Char → Bool → List Char → Except WordFault (List (List Char × Bool))
  | 0, _, _, _ => .ok []
  | _, word, begun, [] => .ok (if begun then [(word.reverse, true)] else [])
  | fuel + 1, word, begun, c :: rest =>
      let cut := fun (ends : Bool) => do
        let more ← readWords linesOnly fuel [] false rest
        return if begun then (word.reverse, ends) :: more else more
      if c = '\n' then cut true
      else if isBlank c && linesOnly && begun then readWords linesOnly fuel (c :: word) true rest
      else if isSpace c && !(linesOnly && begun) then cut false
      else if c = '\\' then
        match rest with
        | d :: rest => readWords linesOnly fuel (d :: word) true rest
        | [] => .ok (if begun then [(word.reverse, true)] else [])
      else if c = '"' || c = '\x27' then
        let inner := rest.takeWhile (· ≠ c)
        match rest.dropWhile (· ≠ c) with
        | [] => .error (.unmatched (if c = '"' then "double" else "single"))
        | _ :: after =>
            if inner.contains '\n' then
              .error (.unmatched (if c = '"' then "double" else "single"))
            else readWords linesOnly fuel (inner.reverse ++ word) true after
      else readWords linesOnly fuel (c :: word) true rest

-- Words by groups of so many lines.
def lineGroups (size : Nat) : Nat → List String → List (List Char × Bool) → List (List String)
  | _, [], [] => []
  | _, group, [] => [group.reverse]
  | count, group, (word, ends) :: rest =>
      let group := String.ofList word :: group
      if ends && count + 1 = size then group.reverse :: lineGroups size 0 [] rest
      else lineGroups size (if ends then count + 1 else count) group rest

def groupsOf (size : Nat) : Nat → List α → List (List α)
  | 0, _ | _, [] => []
  | fuel + 1, items => items.take size :: groupsOf size fuel (items.drop size)

-- A text with something put in for each occurrence of a mark.
def replaceMark (mark value : List Char) : Nat → List Char → List Char
  | 0, cs => cs
  | _, [] => []
  | fuel + 1, c :: rest =>
      if !mark.isEmpty && mark.isPrefixOf (c :: rest) then
        value ++ replaceMark mark value fuel ((c :: rest).drop mark.length)
      else c :: replaceMark mark value fuel rest

-- Runs a command, with nothing to read, and tells how it ended.
def runCommand (run : Runner) (words : List String) : UtilityM Ending := do
  match words with
  | [] => return .exited 0
  | name :: arguments => do
      let input ← perform (ProcessM.openPath "/dev/null" { reads := true })
      let request : Request := ⟨name, arguments, (← read).environment⟩
      let own ← read
      let body : Utility := becomeNamed run id request.environment name arguments
      let process ← perform <| ProcessM.spawn
        (fun process =>
          match input with
          | .ok index => { process with handles := process.handles.insert 0 index }
          | .error _ => process)
        do
          match ← (body own).run with
          | .ok status | .error status => return .exited status
      perform (ProcessM.await process)

-- What a command that has ended does to the status. No status ends it all.
def statusAfter (name : String) (status : Nat) (ending : Ending) : UtilityM Nat := do
  match ending with
  | .exited 0 => return status
  | .exited 255 => fail 124 s!"{name}: exited with status 255; aborting"
  | .exited 126 => leave 126
  | .exited 127 => leave 127
  | .exited _ => return 123
  | .killed signal => fail 125 s!"{name}: terminated by signal {signal}"

-- How many words a command gets.
inductive Share
  | replacing (mark : String)
  | words (size : Nat)
  | lines (size : Nat)

-- The commands to run, given the words and whether there is one even if there are none.
def Share.commands (share : Share) (command : List String) (always : Bool)
    (words : List (List Char × Bool)) : List (List String) :=
  match share with
  | .replacing mark =>
      words.map fun (word, _) =>
        command.map fun (part : String) =>
          String.ofList (replaceMark mark.toList word (part.length + 1) part.toList)
  | .words size =>
      let plain := words.map fun word => String.ofList word.1
      let groups := groupsOf size (plain.length + 1) plain
      (if groups.isEmpty && always then [[]] else groups).map (command ++ ·)
  | .lines size =>
      let groups := lineGroups size 0 [] words
      (if groups.isEmpty && always then [[]] else groups).map (command ++ ·)

def xargsManual : Manual :=
  { letters := "0a:d:E:e::I:i::L:l::n:oP:prs:tx", strict := true
    words := [("null", '0'), ("arg-file", 'a'), ("delimiter", 'd'), ("replace", 'i'),
      ("max-lines", 'l'), ("max-args", 'n'), ("max-procs", 'P'), ("no-run-if-empty", 'r'),
      ("verbose", 't')] }

-- How the words are to be shared among commands.
def share (call : Call) : UtilityM Share := do
  let number := fun (letter : Char) => do
    match (call.value? letter).map fun text => (text, natural? text) with
    | none => return none
    | some (_, some n) => return if n = 0 then none else some n
    | some (text, none) => refuse 1 s!"invalid number \"{text}\" for -{letter} option"
  let most ← number 'n'
  let perLine ← number 'L'
  match call.last? ['I', 'i', 'n', 'L'] with
  | some 'I' => return .replacing ((call.value? 'I').getD "")
  | some 'i' =>
      let mark := (call.value? 'i').getD ""
      return .replacing (if mark == "" then "\x7b\x7d" else mark)
  | some 'L' => return perLine.elim (.words 5000) .lines
  | _ =>
      match call.last? ['I', 'i'], most with
      | some letter, some 1 => return .replacing ((call.value? letter).getD "")
      | _, _ => return .words (most.getD 5000)

-- The character between words, if it is a certain one.
def wordDelimiter (call : Call) : Option Char :=
  if call.has '0' then some '\x00'
  else
    match (call.value? 'd').map String.toList with
    | none => none
    | some ['\\', 'n'] => some '\n'
    | some ['\\', 't'] => some '\t'
    | some ['\\', '0'] => some '\x00'
    | some cs => cs.head?

def xargs (run : Runner) : Utility := do
  let call ← call 1 xargsManual
  let share ← share call
  let command := if call.operands.isEmpty then ["echo"] else call.operands
  let bytes ←
    match call.value? 'a' with
    | none => pure ((← readAll 0).toOption.getD [])
    | some file =>
        match ← contents file with
        | .ok bytes => pure bytes
        | .error obstacle =>
            fail 1 s!"Cannot open input file {Quoting.curly file}: {obstacle.message}"
  let replaces :=
    match share with
    | .replacing _ => true
    | _ => false
  let words ←
    match wordDelimiter call with
    | some delimiter => pure ((linesBy delimiter bytes).map fun word => (word, true))
    | none =>
        match readWords replaces (bytes.length + 1) [] false bytes with
        | .ok words => pure words
        | .error (.unmatched kind) =>
            fail 1 (s!"unmatched {kind} quote; by default quotes are special to xargs unless " ++
              "you use the -0 option")
  (share.commands command (!call.has 'r') words).foldlM
    (fun status words => do
      if call.has 't' then
        writeErrors (" ".intercalate (words.map Quoting.ifNeeded) ++ "\n").toList
      statusAfter (command.headD "") status (← runCommand run words))
    0

end JobScheduler.Shell.Utility
