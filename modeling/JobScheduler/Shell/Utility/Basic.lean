import JobScheduler.Shell.Process

namespace JobScheduler.Shell

-- What a program is called with.
structure Request where
  name : String
  arguments : List String
  environment : SortedMap String String

-- What a utility does. It can end before its time with a status.
abbrev UtilityM := ReaderT Request (ExceptT Nat ProcessM)

abbrev Utility := UtilityM Nat

-- Runs a program in place of the one that asks for it, if there is such a program.
abbrev Runner := Request → ProcessM (Except Obstacle Ending)

namespace Quoting

def isSpecial (c : Char) : Bool :=
  " \t\n!\"$&\x27()*;<=>?[\\^\x60|".toList.contains c

def needed (text : String) : Bool :=
  text == "" || text == "\x7b" || text == "\x7d" || text.startsWith "#" || text.startsWith "~" ||
    text.toList.any isSpecial

-- A name between quotes.
def always (text : String) : String :=
  if !text.contains '\x27' then s!"'{text}'"
  else if text.toList.all fun c => !(['"', '$', '\x60', '\\'].contains c) then
    "\"" ++ text ++ "\""
  else
    "'" ++ String.ofList (text.toList.flatMap fun c =>
      if c = '\x27' then ['\x27', '\\', '\x27', '\x27'] else [c]) ++ "'"

-- A name between the quotes that texts have.
def curly (text : String) : String := narrow "‘" ++ text ++ narrow "’"

-- A name between quotes if it could be misread without them.
def ifNeeded (text : String) : String := if needed text then always text else text

end Quoting

namespace UtilityM

def perform (work : ProcessM α) : UtilityM α := fun _ => ExceptT.lift work

def machine : UtilityM Machine := perform ProcessM.machine

def tree : UtilityM FileTree := return (← machine).tree

def directory : UtilityM String := perform ProcessM.directory

def leave (status : Nat) : UtilityM α := fun _ => throw status

def writeErrors (bytes : List Char) : UtilityM Unit := do
  let _ ← perform (ProcessM.writeBytes 2 bytes)

def complain (message : String) : UtilityM Unit := do
  writeErrors s!"{(← read).name}: {message}\n".toList

def fail (status : Nat) (message : String) : UtilityM α := do
  complain message
  leave status

-- Tells where to read about the arguments.
def hint (status : Nat) : UtilityM α := do
  writeErrors s!"Try '{(← read).name} --help' for more information.\n".toList
  leave status

-- Refuses the arguments.
def refuse (status : Nat) (message : String) : UtilityM α := do
  complain message
  hint status

def say (bytes : List Char) : UtilityM Unit := do
  if let some obstacle ← perform (ProcessM.writeBytes 1 bytes) then
    fail 1 s!"write error: {obstacle.message}"

def sayLine (text : String) : UtilityM Unit := say (text ++ "\n").toList

-- Makes what is kept at an index readable under a number and tells the number.
def install (index : Nat) : UtilityM Nat := do
  let number ← perform (ProcessM.freeNumber 3)
  perform (ProcessM.setHandle number (some index))
  return number

def open_ (path : String) (access : Access) : UtilityM (Except Obstacle Nat) := do
  match ← perform (ProcessM.openPath path access) with
  | .ok index => return .ok (← install index)
  | .error obstacle => return .error obstacle

-- What an operand leads to. A dash is the input.
def openInput (operand : String) : UtilityM (Except Obstacle Nat) := do
  if operand == "-" then return .ok 0 else open_ operand { reads := true }

def close (number : Nat) : UtilityM Unit := do
  if 2 < number then perform (ProcessM.setHandle number none)

-- Works on the bytes of a number, one portion after the other, as long as the work goes on.
def eachPortion (number size : Nat) (work : σ → List Char → UtilityM (Bool × σ)) :
    Nat → σ → UtilityM (Except Obstacle σ)
  | 0, state => return .ok state
  | left + 1, state => do
      match ← perform (ProcessM.readBytes number size) with
      | .error obstacle => return .error obstacle
      | .ok [] => return .ok state
      | .ok bytes =>
          match ← work state bytes with
          | (true, state) => eachPortion number size work left state
          | (false, state) => return .ok state

-- The lines that are complete, and what is left, which may be the beginning of one more.
def splitLines (separator : Char) (before : List Char) (bytes : List Char) :
    List (List Char) × List Char :=
  match (splitAt separator bytes).reverse with
  | [] => ([], before)
  | [only] => ([], before ++ only)
  | last :: rest =>
      match rest.reverse with
      | [] => ([], last)
      | first :: more => ((before ++ first) :: more, last)

def workLines (work : σ → List Char → Bool → UtilityM (Bool × σ)) :
    List (List Char) → σ → UtilityM (Bool × σ)
  | [], state => return (true, state)
  | line :: rest, state => do
      match ← work state line true with
      | (true, state) => workLines work rest state
      | (false, state) => return (false, state)

-- Works on the lines of a number as long as the work goes on. The work is told of each line
-- whether it has an end.
def eachLine (number : Nat) (separator : Char) (work : σ → List Char → Bool → UtilityM (Bool × σ))
    (state : σ) : UtilityM (Except Obstacle σ) := do
  let step := fun (held : Bool × List Char × σ) (bytes : List Char) => do
    let (lines, rest) := splitLines separator held.2.1 bytes
    let (goesOn, state) ← workLines work lines held.2.2
    return (goesOn, (goesOn, rest, state))
  match ← eachPortion number 4096 step ProcessM.patience (true, [], state) with
  | .error obstacle => return .error obstacle
  | .ok (goesOn, rest, state) =>
      if rest.isEmpty || !goesOn then return .ok state
      else return .ok (← work state rest false).2

def readAll (number : Nat) : UtilityM (Except Obstacle (List Char)) :=
  perform (ProcessM.readAll number)

-- All that an operand leads to.
def contents (operand : String) : UtilityM (Except Obstacle (List Char)) := do
  match ← openInput operand with
  | .error obstacle => return .error obstacle
  | .ok number => do
      let result ← readAll number
      close number
      return result

-- The operands, or a dash if there are none.
def orInput (operands : List String) : List String := if operands.isEmpty then ["-"] else operands

-- Works on one operand after the other. The answer tells whether all of them could be read.
def eachInput (operands : List String) (work : String → Nat → UtilityM (Except Obstacle Unit)) :
    UtilityM Bool :=
  (orInput operands).foldlM
    (fun good operand => do
      match ← openInput operand with
      | .error obstacle => do
          complain s!"{Quoting.ifNeeded operand}: {obstacle.message}"
          return false
      | .ok number => do
          let result ← work operand number
          close number
          match result with
          | .ok _ => return good
          | .error obstacle => do
              complain s!"{Quoting.ifNeeded operand}: {obstacle.message}"
              return false)
    true

-- All bytes of the operands one after the other, and whether all of them could be read.
def together (operands : List String) : UtilityM (List Char × Bool) := do
  let (chunks, good) ← (orInput operands).foldlM
    (fun (found : List (List Char) × Bool) operand => do
      match ← contents operand with
      | .ok bytes => return (bytes :: found.1, found.2)
      | .error obstacle => do
          complain s!"{Quoting.ifNeeded operand}: {obstacle.message}"
          return (found.1, false))
    ([], true)
  return (chunks.reverse.flatten, good)

def statusOf (good : Bool) : Nat := if good then 0 else 1

-- What an open number leads to.
def target? (number : Nat) : UtilityM (Option Opened) := do
  let process ← perform ProcessM.number
  return ((← machine).opening? process number).map (·.2)

def environment (name : String) : UtilityM (Option String) := return (← read).environment.find? name

end UtilityM

end JobScheduler.Shell
