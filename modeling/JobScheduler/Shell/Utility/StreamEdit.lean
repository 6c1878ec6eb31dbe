import JobScheduler.Shell.Utility.Edit.Run

namespace JobScheduler.Shell.Utility

open UtilityM

-- The utility that changes texts line by line.

def editManual : Manual :=
  { letters := "nse:f:i::l:Eruzb"
    words := [("quiet", 'n'), ("silent", 'n'), ("expression", 'e'), ("file", 'f'),
      ("in-place", 'i'), ("line-length", 'l'), ("regexp-extended", 'E'), ("separate", 's'),
      ("unbuffered", 'u'), ("null-data", 'z'), ("posix", 'p'), ("debug", 'b'),
      ("sandbox", 'b')] }

def sayEditUsage : UtilityM α := do
  writeErrors ("Usage: sed [OPTION]... \x7bscript-only-if-no-other-script\x7d " ++
    "[input-file]...\n").toList
  leave 1

-- A part of a script with what it is called in messages.
inductive ScriptPart
  | expression (number : Nat) (text : List Char)
  | file (name : String) (text : List Char)

def ScriptPart.text : ScriptPart → List Char
  | .expression _ text | .file _ text => text

-- The part in which so many characters of all parts have been read, and how it says so.
def placeIn : List ScriptPart → Nat → String
  | [], _ => "-e expression #1, char 0"
  | part :: rest, read =>
      if rest.isEmpty || read ≤ part.text.length then
        match part with
        | .expression number _ => s!"-e expression #{number}, char {read}"
        | .file name text =>
            let line := (text.take read).count '\n' + 1
            s!"file {name} line {line}"
      else placeIn rest (read - part.text.length - 1)

-- The parts of the script that the options give.
def scriptParts : Nat → List (Char × String) → UtilityM (List ScriptPart)
  | _, [] => return []
  | count, ('e', text) :: rest => do
      return .expression (count + 1) text.toList :: (← scriptParts (count + 1) rest)
  | count, ('f', name) :: rest => do
      match ← contents name with
      | .error obstacle => fail 4 s!"couldn't open file {name}: {obstacle.message}"
      | .ok bytes =>
          let text := if bytes.getLast? = some '\n' then bytes.dropLast else bytes
          return .file name text :: (← scriptParts count rest)
  | count, _ :: rest => scriptParts count rest

-- The files that the steps write.
def writtenFiles (script : Edit.Script) : List String :=
  (script.steps.toList.filterMap fun step =>
    match step.action with
    | .writeFile name | .writeFirst name => some name
    | .substitute substitution => substitution.file
    | _ => none).eraseDups

def missingLabel? (script : Edit.Script) : Option String :=
  script.steps.toList.findSome? fun step =>
    match step.action with
    | .jump name | .jumpIf name _ =>
        if (Edit.labelPlace? script name).isNone then some name else none
    | _ => none

def sed : Utility := do
  let arguments := (← read).arguments
  let call ←
    match Call.readFrom editManual (arguments.length + 1) arguments with
    | .ok call => if call.has Call.about then leave 0 else pure call
    | .error message => do
        complain message
        sayEditUsage
  let given := call.options.filter fun option => option.1 == 'e' || option.1 == 'f'
  let (parts, files) ←
    match given, call.operands with
    | [], [] => sayEditUsage
    | [], text :: files => pure ([ScriptPart.expression 1 text.toList], files)
    | given, files => do pure (← scriptParts 0 given, files)
  let text := (parts.map ScriptPart.text).intersperse ['\n'] |>.flatten
  let extended := call.has 'E' || call.has 'r'
  match Edit.readScript extended text with
  | .error fault => do
      let place :=
        match fault.left with
        | some left => placeIn parts (text.length - left.length)
        | none => placeIn parts 0
      fail 1 s!"{place}: {fault.message}"
  | .ok script => do
      if let some name := missingLabel? script then
        fail 4 s!"can't find label for jump to \x60{name}'"
      let written ← (writtenFiles script).mapM fun name => do
        let access : Access := { writes := true, creates := true, truncates := true }
        match name with
        | "/dev/stdout" => return (name, 1)
        | "/dev/stderr" => return (name, 2)
        | name =>
            match ← open_ name access with
            | .ok number => return (name, number)
            | .error obstacle => fail 4 s!"couldn't open file {name}: {obstacle.message}"
      let inPlace := call.value? 'i'
      let options : Edit.Options :=
        { silent := call.has 'n' || script.silent, ending := if call.has 'z' then '\x00' else '\n'
          separate := call.has 's' || inPlace.isSome, inPlace }
      let start : Edit.Edition :=
        { files := orInput files, written
          ranges := script.steps.map fun step =>
            match step.selector.first with
            | some (.line 0) => .open_
            | _ => .outside }
      let (status, edition) ← ((Edit.cycles script ProcessM.patience false).run options).run start
      return if status = 0 then edition.status else status

end JobScheduler.Shell.Utility
