import JobScheduler.Shell.Session

namespace JobScheduler.Shell.ShellM

-- Why a file cannot be opened, in the words of a shell.
def openingMessage (obstacle : Obstacle) (creates : Bool) : String :=
  match obstacle, creates with
  | .missing, true | .notDirectory, true => "Directory nonexistent"
  | .missing, false | .notDirectory, false => "No such file"
  | obstacle, _ => obstacle.message

def openFor (operand : String) (access : Access) : ShellM Nat := do
  match ← perform (ProcessM.openPath operand access) with
  | .ok index => return index
  | .error obstacle =>
      let verb := if access.creates then "create" else "open"
      refuse s!"cannot {verb} {operand}: {openingMessage obstacle access.creates}"

-- What is there already is not written over, unless it holds nothing by its nature.
def openNew (operand : String) : ShellM Nat := do
  let node := (← tree).nodeAt? (← directory) operand
  let access : Access :=
    match node with
    | none | some (.file _) | some (.program _) =>
        { writes := true, creates := true, exclusive := true }
    | some _ => { writes := true, creates := true }
  openFor operand access

-- A number that is to lead elsewhere has one digit. A dash closes it.
def checkNumber (kind : RedirectKind) (operand : String) : ShellM Unit := do
  if kind = .duplicateInput || kind = .duplicateOutput then
    match operand.toList with
    | [c] => if c != '-' && !c.isDigit then refuse "Syntax error: Bad fd number"
    | _ => refuse "Syntax error: Bad fd number"

-- What a redirection makes its number lead to. Nothing means that the number is closed.
def redirectionTarget (kind : RedirectKind) (operand : String) : ShellM (Option Nat) := do
  match kind with
  | .read => return some (← openFor operand { reads := true })
  | .readWrite => return some (← openFor operand { reads := true, writes := true, creates := true })
  | .write =>
      if ← isOn 'C' then return some (← openNew operand)
      else return some (← openFor operand { writes := true, creates := true, truncates := true })
  | .overwrite =>
      return some (← openFor operand { writes := true, creates := true, truncates := true })
  | .append => return some (← openFor operand { writes := true, creates := true, appends := true })
  | .duplicateInput | .duplicateOutput =>
      match natural? operand with
      | none => return none
      | some number =>
          match ← perform (ProcessM.handle? number) with
          | some index => return some index
          | none => refuse s!"{operand}: Bad file descriptor"
  | .here _ => return none

-- Makes a text that can be read and tells where it is kept.
def openText (text : List Char) : ShellM Nat := do
  let (machine, pipe) := (← machine).addPipe false
  let machine := machine.setStream pipe (Stream.empty.put text)
  perform (ProcessM.modifyMachine fun _ => machine)
  perform (ProcessM.addOpened ⟨.pipe pipe, 0, true, false, false⟩)

-- Makes a number lead elsewhere. The answer tells where it led.
def changeHandle (number : Nat) (index : Option Nat) : ShellM (Nat × Option Nat) := do
  let old ← perform (ProcessM.handle? number)
  perform (ProcessM.setHandle number index)
  return (number, old)

-- Makes numbers lead where they led before, those that were changed last first.
def restoreHandles (saved : List (Nat × Option Nat)) : ShellM Unit := do
  saved.forM fun entry => perform (ProcessM.setHandle entry.1 entry.2)
  perform (ProcessM.modifySelf fun process => { process with kept := process.kept.drop 1 })

def keepHandles (saved : List (Nat × Option Nat)) : ShellM Unit := do
  let open_ := saved.filterMap fun entry => entry.2.map fun index => (entry.1, index)
  perform (ProcessM.modifySelf fun process =>
    { process with kept := SortedMap.ofList open_ :: process.kept })

end JobScheduler.Shell.ShellM
