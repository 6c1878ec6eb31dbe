import JobScheduler.Shell.Lookup
import JobScheduler.Shell.Utility.Answer

namespace JobScheduler.Shell.Utility

open UtilityM

-- Utilities that run other programs.

def missingStatus (obstacle : Obstacle) : Nat := if obstacle = .missing then 127 else 126

-- Runs a program in place of the utility.
def becomeNamed (run : Runner) (label : String → String) (environment : SortedMap String String)
    (name : String) (arguments : List String) : Utility := do
  match ← perform (run ⟨name, arguments, environment⟩) with
  | .ok ending => return ending.status
  | .error obstacle => fail (missingStatus obstacle) s!"{label name}: {obstacle.message}"

def setEntry (environment : SortedMap String String) (argument : String) :
    Option (SortedMap String String) :=
  if argument.contains '=' then
    let name := String.ofList (argument.toList.takeWhile (· ≠ '='))
    let value := String.ofList ((argument.toList.dropWhile (· ≠ '=')).drop 1)
    some (environment.insert name value)
  else none

-- Takes settings from the beginning of the arguments.
def takeEntries (environment : SortedMap String String) :
    List String → SortedMap String String × List String
  | [] => (environment, [])
  | argument :: rest =>
      match setEntry environment argument with
      | some environment => takeEntries environment rest
      | none => (environment, argument :: rest)

def env (run : Runner) : Utility := do
  let call ← call 125
    { letters := "iC:u:0vS:", strict := true
      words := [("ignore-environment", 'i'), ("chdir", 'C'), ("unset", 'u'), ("null", '0'),
        ("debug", 'v'), ("split-string", 'S')] }
  let operands := ((call.values 'S').flatMap fun text =>
    ((text.toList.splitBy fun a b => isBlank a == isBlank b).filter
      (·.any (!isBlank ·))).map String.ofList) ++ call.operands
  let (clears, operands) :=
    match operands with
    | "-" :: rest => (true, rest)
    | operands => (call.has 'i', operands)
  let own := (← read).environment
  let start := if clears then SortedMap.empty else own
  let start := (call.values 'u').foldl SortedMap.erase start
  let (environment, rest) := takeEntries start operands
  match rest with
  | [] => do
      sayEnvironment (if call.has '0' then "\x00" else "\n") environment.entries
      return 0
  | name :: arguments => do
      if let some path := call.value? 'C' then
        match ← perform (ProcessM.locate path true) with
        | .found full .directory =>
            perform (ProcessM.modifySelf fun process => { process with directory := full })
        | other =>
            let cause := if other.obstacle = .exists_ then Obstacle.notDirectory else other.obstacle
            fail 125 s!"cannot change directory to {Quoting.curly path}: {cause.message}"
      becomeNamed run Quoting.curly environment name arguments

-- Runs what the operands say in place of the utility.
def becomeOperands (run : Runner) (label : String → String) (operands : List String) :
    Utility := do
  match operands with
  | [] => refuse 125 "missing operand"
  | name :: arguments => becomeNamed run label (← read).environment name arguments

def failedToRun (name : String) : String := s!"failed to run command {Quoting.always name}"

def nohup (run : Runner) : Utility := do
  let call ← call 125 { letters := "", strict := true }
  perform (ProcessM.setReaction 1 true false)
  becomeOperands run failedToRun call.operands

def setsid (run : Runner) : Utility := do
  let call ← call 1 { letters := "cfw", strict := true }
  match call.operands with
  | [] => fail 1 "no command specified"
  | operands => becomeOperands run (s!"failed to execute {·}") operands

def stdbuf (run : Runner) : Utility := do
  let call ← call 125
    { letters := "i:o:e:", strict := true
      words := [("input", 'i'), ("output", 'o'), ("error", 'e')] }
  becomeOperands run (fun name => s!"failed to run command {Quoting.curly name}") call.operands

def nice (run : Runner) : Utility := do
  let call ← call 125
    { letters := "n:", strict := true, words := [("adjustment", 'n')] }
  if let some text := call.value? 'n' then
    if (integer? text).isNone then fail 125 s!"invalid adjustment {Quoting.curly text}"
  if call.operands.isEmpty then
    sayLine "0"
    return 0
  becomeOperands run Quoting.curly call.operands

-- Runs a program in a process of its own.
def start (run : Runner) (label : String → String) (request : Request) : UtilityM Nat := do
  let own ← read
  let body : Utility :=
    becomeNamed run label request.environment request.name request.arguments
  perform <| ProcessM.spawn id do
    match ← (body own).run with
    | .ok status | .error status => return .exited status

-- A number for a signal by its name or number.
def signalNumber (text : String) : UtilityM Nat := do
  match Signal.ofText? text with
  | some signal => return signal
  | none => refuse 125 s!"{text}: invalid signal"

-- Waits for the first process to end, or for the alarm.
def timeLimit (text : String) : UtilityM Nat := do
  match span? text with
  | some span => return span
  | none => refuse 125 s!"invalid time interval {Quoting.curly text}"

def startAlarm (span : Nat) : UtilityM Nat :=
  perform <| ProcessM.spawn (fun process => { process with handles := SortedMap.empty }) do
    ProcessM.sleep span
    return .exited 0

-- Waits until a process ends and tells how, or until an alarm rings.
def awaitEither (process alarm : Nat) : Nat → UtilityM (Option Ending)
  | 0 => return none
  | fuel + 1 => do
      match ← perform (ProcessM.awaitAny false) with
      | none => return none
      | some (number, ending) =>
          if number = process then
            let _ ← perform (ProcessM.signal alarm Signal.kill)
            return some ending
          else if number = alarm then return none
          else awaitEither process alarm fuel

-- Ends like a process that has ended.
def endLike (ending : Ending) : Utility := do
  match ending with
  | .exited status => return status
  | .killed signal => do
      perform (ProcessM.setReaction signal false false)
      let _ ← perform (ProcessM.signal (← perform ProcessM.number) signal)
      return 128 + signal

def timeout (run : Runner) : Utility := do
  let call ← call 125
    { letters := "fk:s:vp", strict := true
      words := [("foreground", 'f'), ("kill-after", 'k'), ("signal", 's'), ("verbose", 'v'),
        ("preserve-status", 'p')] }
  match call.operands with
  | limit :: name :: arguments => do
      let signal ← (call.value? 's').elim (pure 15) signalNumber
      let grace ← (call.value? 'k').mapM timeLimit
      let span ← timeLimit limit
      let label := fun (name : String) => s!"failed to run command {Quoting.curly name}"
      let process ← start run label ⟨name, arguments, (← read).environment⟩
      if span = 0 then return ← endLike (← perform (ProcessM.await process))
      let alarm ← startAlarm span
      match ← awaitEither process alarm 1000 with
      | some ending => endLike ending
      | none => do
          let _ ← perform (ProcessM.signal process signal)
          let killed ← grace.mapM fun span => do
            let alarm ← startAlarm span
            match ← awaitEither process alarm 1000 with
            | some ending => return some ending
            | none => do
                let _ ← perform (ProcessM.signal process Signal.kill)
                return none
          let ending ←
            match killed with
            | some (some ending) => pure ending
            | _ => perform (ProcessM.await process)
          if ending = .killed Signal.kill then endLike ending
          else if call.has 'p' then return ending.status
          else return 124
  | _ => hint 125

def which : Utility := do
  let call ← call 2 { letters := "a", strict := true }
  let tree ← tree
  let directory ← directory
  let path := (← environment "PATH").getD defaultPath
  let found ← call.operands.mapM fun name => do
    let places := (FileTree.programPlaces name path).filter fun place =>
      (tree.unrunnable? directory place).isNone
    let shown := if call.has 'a' then places else places.take 1
    shown.forM sayLine
    return !places.isEmpty
  return statusOf (!found.isEmpty && found.all id)

end JobScheduler.Shell.Utility
