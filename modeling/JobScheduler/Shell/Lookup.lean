import JobScheduler.Shell.Builtin.Flow
import JobScheduler.Shell.Builtin.Variables
import JobScheduler.Shell.Cursor
import JobScheduler.Shell.Utility.Basic

namespace JobScheduler.Shell

-- Finding out what a name stands for when it is called.

def Builtin.table : List (String × Builtin) := [
  ("echo", echo), ("printf", printf), ("test", condition), ("[", bracket), ("true", succeed),
  (":", succeed), ("false", fail), ("pwd", pwd), ("cd", cd), ("chdir", cd), ("exit", exit),
  ("return", return_), ("break", leaveLoops .leaveLoops), ("continue", leaveLoops .nextRound),
  ("shift", shift), ("export", export_), ("readonly", readonly), ("local", local_),
  ("unset", unset), ("set", set_), ("read", Builtin.read), ("wait", wait), ("trap", trap),
  ("umask", umask), ("ulimit", ulimit), ("times", times), ("getopts", getopts),
  ("alias", alias_), ("unalias", unalias), ("jobs", jobs), ("fg", moveJob), ("bg", moveJob),
  ("kill", kill)]

-- Builtins that run other commands or look names up.
def Builtin.others : List String := [".", "command", "eval", "exec", "hash", "type"]

def Builtin.isName (name : String) : Bool :=
  (Builtin.table.lookup name).isSome || Builtin.others.contains name

-- Builtins that treat arguments like commands that set variables.
def Builtin.assigns (name : String) : Bool :=
  ["alias", "export", "local", "readonly"].contains name

-- The program and its argument that a text names in its first line.
def interpreter? (bytes : List Char) : Option (String × List String) :=
  match bytes with
  | '#' :: '!' :: rest =>
      let line := (rest.takeWhile (· ≠ '\n')).dropWhile isBlank
      let program := line.takeWhile fun c => !isBlank c
      let given := (line.dropWhile fun c => !isBlank c).dropWhile isBlank
      let given := (given.reverse.dropWhile isBlank).reverse
      if program.isEmpty then none
      else some (String.ofList program, if given.isEmpty then [] else [String.ofList given])
  | _ => none

namespace FileTree

-- Why what is at a path cannot be run.
def unrunnable? (tree : FileTree) (directory path : String) : Option Obstacle :=
  match tree.locate directory path true with
  | .found _ (.program _) => none
  | .found _ (.file index) =>
      if !tree.isExecutable (.file index) then some .forbidden
      else
        match interpreter? (tree.content index).bytes with
        | some (program, _) => if tree.exists? directory program then none else some .missing
        | none => none
  | .found _ _ => some .forbidden
  | .missing | .free _ => some .missing
  | .blocked => some .notDirectory
  | .circular => some .circular

-- Where programs with a name can be.
def programPlaces (name path : String) : List String :=
  if name.contains '/' then [name]
  else
    (splitAt ':' path.toList).map fun entry =>
      if entry.isEmpty then name else String.ofList entry ++ "/" ++ name

-- The path of the program that a name stands for.
def findProgram (tree : FileTree) (directory name path : String) : Except Obstacle String :=
  let places := programPlaces name path
  match places.find? fun place => (tree.unrunnable? directory place).isNone with
  | some place => .ok place
  | none =>
      let obstacles := places.filterMap (tree.unrunnable? directory)
      .error ((obstacles.find? fun obstacle =>
        obstacle ≠ .missing && obstacle ≠ .notDirectory).getD .missing)

end FileTree

def defaultPath : String := "/usr/local/sbin:/usr/local/bin:/usr/sbin:/usr/bin:/sbin:/bin"

namespace ShellM

def programMessage : Obstacle → String
  | .missing | .notDirectory => "not found"
  | obstacle => obstacle.message

def failureStatus (obstacle : Obstacle) : Nat :=
  if obstacle = .missing || obstacle = .notDirectory then 127 else 126

def searchPath : ShellM String := return (← valueOf "PATH").getD ""

def lookUp (name path : String) : ShellM (Except Obstacle String) := do
  return (← tree).findProgram (← directory) name path

inductive Meaning
  | function (body : Command)
  | builtin
  | program

-- A call with its name looked up. A special one ends the shell if it fails. The path is
-- where programs are looked for.
structure Calling where
  name : String
  arguments : List String
  meaning : Meaning
  special : Bool
  path : Option String

def Calling.isBuiltin (calling : Calling) : Bool :=
  match calling.meaning with
  | .builtin => true
  | _ => false

-- The arguments behind `command` and its options, if it is to run something.
def commandOperands : List String → Option (List String × Bool)
  | [] => none
  | "--" :: rest => if rest.isEmpty then none else some (rest, false)
  | word :: rest =>
      match word.toList with
      | '-' :: letters =>
          if letters.isEmpty || !letters.all (· = 'p') then
            (if letters.isEmpty then some (word :: rest, false) else none)
          else (commandOperands rest).map fun found => (found.1, true)
      | _ => some (word :: rest, false)

-- Passes over `command` as often as it comes first.
def behindCommand (session : Session) (special : Bool) (path : Option String) :
    Nat → List String → Calling
  | 0, _ | _, [] => ⟨"", [], .program, special, path⟩
  | fuel + 1, name :: arguments =>
      if name == "command" then
        match commandOperands arguments with
        | none => ⟨name, arguments, .builtin, special, path⟩
        | some (rest, standard) =>
            behindCommand session special (if standard then some defaultPath else path) fuel rest
      else if Builtin.isName name then ⟨name, arguments, .builtin, special, path⟩
      else ⟨name, arguments, .program, special, path⟩

def resolve (words : List String) : ShellM Calling := do
  let session ← get
  let name := words.headD ""
  match session.functions.find? name with
  | some body => return ⟨name, words.drop 1, .function body, false, none⟩
  | none =>
      return behindCommand session (specialNames.contains name) none (words.length + 1) words

-- Whether the arguments of a call that begins with the words set variables.
def assignsIn (words : List String) : ShellM Bool := do
  let calling ← resolve words
  return calling.isBuiltin && Builtin.assigns calling.name

inductive Description
  | keyword | alias_ (value : String) | function | special | builtin
  | program (path : String)

def Description.short (name : String) : Description → String
  | .program path => path
  | .alias_ value => s!"alias {name}={Builtin.quote value}"
  | _ => name

def Description.inWords (name : String) : Description → String
  | .keyword => s!"{name} is a shell keyword"
  | .alias_ value => s!"{name} is an alias for {value}"
  | .function => s!"{name} is a shell function"
  | .special => s!"{name} is a special shell builtin"
  | .builtin => s!"{name} is a shell builtin"
  | .program path => s!"{name} is {path}"

def description? (name : String) : ShellM (Option Description) := do
  let session ← get
  if keywords.contains name then return some .keyword
  match session.aliases.find? name with
  | some value => return some (.alias_ value)
  | none =>
      if session.functions.contains name then return some .function
      else if specialNames.contains name then return some .special
      else if Builtin.isName name then return some .builtin
      else return (← lookUp name (← searchPath)).toOption.map .program

def describe (inWords : Bool) (names : List String) : ShellM Unit := do
  let found ← names.mapM fun name => do
    let description ← description? name
    match description with
    | some description =>
        Builtin.sayLines [if inWords then description.inWords name else description.short name]
    | none => if inWords then Builtin.sayLines [s!"{name}: not found"]
    return description.isSome
  setStatus (if found.all id then 0 else 127)

def hash (names : List String) : ShellM Unit := do
  let (_, names) ← Builtin.flags ['r'] names
  let found ← names.mapM fun name => do
    let found := (← description? name).isSome
    if !found then complain s!"{name}: not found"
    return found
  setStatus (if found.all id then 0 else 1)

def hasTraps : ShellM Bool :=
  return (← get).traps.values.any (· != "")

-- A process in the background does not stop when a key is pressed.
def ignoringKeys (process : Process) : Process :=
  { process with ignored := Signal.interrupt :: Signal.quit :: process.ignored }

-- A program starts without what only a shell has.
def asProgram (process : Process) : Process := { process with caught := [], kept := [] }

-- How long a command takes that the shell runs by itself.
def tick : Nat := 5

def noteBackground (job : Nat) : ShellM Unit := do
  let last := ((← findJob job).bind (·.processes.getLast?)).map (·.1)
  modify fun session => { session with lastBackground := last, status := 0 }

-- All of a file that commands are to be read from. A directory holds none.
def fileText (path : String) : ShellM (Except Obstacle (List Char)) := do
  match ← perform (ProcessM.openPath path { reads := true }) with
  | .error obstacle => return .error obstacle
  | .ok index => do
      let number ← perform (ProcessM.freeNumber 10)
      let _ ← changeHandle number (some index)
      let bytes ← perform (ProcessM.readAll number)
      let _ ← changeHandle number none
      return .ok (bytes.toOption.getD [])

-- The file that `.` reads, which is looked for like a program.
def findSource (name : String) : ShellM (Option String) := do
  if name.contains '/' then return some name
  let view ← tree
  let at_ ← directory
  return (FileTree.programPlaces name (← searchPath)).find? fun place =>
    match view.nodeAt? at_ place with
    | some (.file _) => true
    | _ => false

end ShellM

end JobScheduler.Shell
