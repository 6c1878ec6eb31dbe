import JobScheduler.Shell.Grammar
import JobScheduler.Shell.Octets
import JobScheduler.Shell.Process

namespace JobScheduler.Shell

structure Variable where
  value : Option String
  exported : Bool
  fixed : Bool
deriving DecidableEq, Repr

-- Processes that were started together. A job in the background has a number, and one that
-- was waited for is forgotten when the next one is started.
structure Job where
  number : Nat
  processes : List (Nat × Option Ending)
  waited : Bool

-- Where the reading of options from arguments stands: the next argument, and the place in
-- it where the next letter is.
structure OptionPlace where
  index : Nat
  offset : Option Nat
deriving DecidableEq, Repr

-- What a local variable, or the options, were before.
inductive Saved
  | variable (name : String) (old : Option Variable)
  | options (letters : List Char)

-- What a shell knows. A shell that is started in parentheses begins with the same.
structure Session where
  name : String
  arguments : List String
  bindings : SortedMap String Variable
  functions : SortedMap String Command
  aliases : SortedMap String String
  -- The directory as the commands have spelt it.
  place : String
  -- The letters of the options that are on.
  options : List Char
  -- What to do on a signal. Number 0 is the end of the shell.
  traps : SortedMap Nat String
  -- What the running functions have set aside, the innermost first.
  frames : List (List Saved)
  inFunction : Bool
  loops : Nat
  heres : Array Word
  status : Nat
  -- How the last command ended whose output a word took since the words of the current
  -- command are read.
  outputStatus : Option Nat
  line : Nat
  -- What stands before the messages of the builtin that is running.
  speaker : String
  -- The process that the shell as a whole is.
  root : Nat
  lastBackground : Option Nat
  jobs : List Job
  optionPlace : OptionPlace
  -- The status when the trap that is running began.
  trapStatus : Option Nat

-- Why commands that follow are not run.
inductive Stop
  -- A failure that a builtin can survive. The status is set.
  | failed
  | exit
  | leaveLoops (count : Nat)
  | nextRound (count : Nat)
  | leaveFunction
  | exhausted
deriving DecidableEq, Repr

abbrev ShellM := ExceptT Stop (StateT Session ProcessM)

def Session.start (process parent : Nat) (place : String) (environment : List (String × String)) :
    Session :=
  let plain := fun value => Variable.mk (some value) false false
  let given := environment.map fun entry => (entry.1, Variable.mk (some entry.2) true false)
  { name := "sh"
    arguments := []
    bindings := SortedMap.ofList ([
      ("IFS", plain " \t\n"), ("OPTIND", plain "1"), ("PS1", plain "# "), ("PS2", plain "> "),
      ("PS4", plain "+ "),
      ("PATH", plain "/usr/local/sbin:/usr/local/bin:/usr/sbin:/usr/bin:/sbin:/bin")] ++
      (given.filter fun entry => entry.1 != "IFS") ++
      [("PPID", plain (toString parent)), ("PWD", ⟨some place, true, false⟩)])
    functions := SortedMap.empty
    aliases := SortedMap.empty
    place
    options := []
    traps := SortedMap.empty
    frames := []
    inFunction := false
    loops := 0
    heres := #[]
    status := 0
    outputStatus := none
    line := 1
    speaker := ""
    root := process
    lastBackground := none
    jobs := []
    optionPlace := ⟨1, none⟩
    trapStatus := none }

namespace ShellM

def perform (work : ProcessM α) : ShellM α := ExceptT.lift (StateT.lift work)

def machine : ShellM Machine := perform ProcessM.machine

def tree : ShellM FileTree := return (← machine).tree

def directory : ShellM String := perform ProcessM.directory

def setStatus (status : Nat) : ShellM Unit := modify fun session => { session with status }

def isOn (option : Char) : ShellM Bool := return (← get).options.contains option

def write (number : Nat) (bytes : List Char) : ShellM (Option Obstacle) :=
  perform (ProcessM.writeBytes number bytes)

-- Writes a message about the command at hand.
def complain (message : String) : ShellM Unit := do
  let session ← get
  let _ ← write 2 s!"{session.name}: {session.line}: {session.speaker}{message}\n".toList

def refuse (message : String) : ShellM α := do
  complain message
  setStatus 2
  throw .failed

def variableOf (name : String) : ShellM (Option Variable) := return (← get).bindings.find? name

def valueOf (name : String) : ShellM (Option String) := return (← variableOf name).bind (·.value)

def define (name : String) (new : Option Variable) : ShellM Unit :=
  modify fun session =>
    { session with
      bindings :=
        match new with
        | some new => session.bindings.insert name new
        | none => session.bindings.erase name
      optionPlace := if name == "OPTIND" then placeAfter session else session.optionPlace }
where
  placeAfter (session : Session) : OptionPlace :=
    match (new.bind (·.value)).bind natural? with
    | some (index + 1) => ⟨index + 1, none⟩
    | _ => if new.isSome then ⟨1, none⟩ else session.optionPlace

-- Sets a variable, which is given to programs from then on if that is asked for.
def assign (name value : String) (exported : Bool) : ShellM Unit := do
  let old := (← variableOf name).getD ⟨none, false, false⟩
  if old.fixed then refuse s!"{name}: is read only"
  let exported := exported || old.exported || (← isOn 'a')
  define name (some ⟨some value, exported, false⟩)

def setVariable (name value : String) : ShellM Unit := assign name value false

-- Notes what a variable is, so that it comes back when the current frame is left.
def setAside (saved : Saved) : ShellM Unit :=
  modify fun session =>
    { session with
      frames :=
        match session.frames with
        | frame :: frames => (saved :: frame) :: frames
        | [] => [] }

def makeLocal (name : String) : ShellM Unit := do
  setAside (.variable name (← variableOf name))

-- A name that no variable can have is found out only here.
def restore : Saved → ShellM Unit
  | .variable name old => do
      if !isName name then refuse s!"{name}: bad variable name"
      define name old
  | .options options => modify fun session => { session with options }

-- Runs work in a frame of its own, after which local variables are what they were.
def inFrame (work : ShellM α) : ShellM α := do
  let before := (← get).frames
  modify fun session => { session with frames := [] :: before }
  let leave : ShellM Unit := do
    ((← get).frames.headD []).forM restore
    modify fun session => { session with frames := before }
  let result ← tryCatch work fun stop => do
    leave
    throw stop
  leave
  return result

-- The options of a shell, each with its letter if it has one.
def optionNames : List (String × Option Char) := [
  ("errexit", some 'e'), ("noglob", some 'f'), ("ignoreeof", some 'I'), ("interactive", some 'i'),
  ("monitor", some 'm'), ("noexec", some 'n'), ("stdin", some 's'), ("xtrace", some 'x'),
  ("verbose", some 'v'), ("vi", some 'V'), ("emacs", some 'E'), ("noclobber", some 'C'),
  ("allexport", some 'a'), ("notify", some 'b'), ("nounset", some 'u'), ("privileged", some 'p'), ("nolog", none),
  ("debug", none)]

-- The letters of the options that are on.
def optionLetters (options : List Char) : String :=
  String.ofList ((optionNames.filterMap (·.2)).filter options.contains)

def argument? (session : Session) (n : Nat) : Option String :=
  if n = 0 then some session.name else session.arguments[n - 1]?

-- The value that a name or a special sign stands for.
def parameter (name : String) : ShellM (Option String) := do
  let session ← get
  match name with
  | "?" => return some (toString session.status)
  | "$" => return some (toString session.root)
  | "#" => return some (toString session.arguments.length)
  | "!" => return session.lastBackground.map toString
  | "-" => return some (optionLetters session.options)
  | "@" | "*" =>
      return if session.arguments.isEmpty then none else some (" ".intercalate session.arguments)
  | name =>
      match natural? name with
      | some n => return argument? session n
      | none => valueOf name

end ShellM

end JobScheduler.Shell
