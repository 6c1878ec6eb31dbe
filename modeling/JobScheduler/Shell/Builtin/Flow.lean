import JobScheduler.Shell.Builtin.Basic

namespace JobScheduler.Shell.Builtin

open ShellM

-- The status that an argument asks for, or another one.
def statusOr (other : Nat) (arguments : List String) : ShellM Nat := do
  match arguments with
  | [] => return other
  | text :: _ => numberOf text

-- A trap that ends the shell keeps the status with which it began.
def exit : Builtin := fun arguments => do
  let session ← get
  setStatus (← statusOr (session.trapStatus.getD session.status) arguments)
  throw .exit

def return_ : Builtin := fun arguments => do
  setStatus (← statusOr (← get).status arguments)
  throw .leaveFunction

def loopCount (arguments : List String) : ShellM Nat := do
  match arguments with
  | [] => return 1
  | text :: _ =>
      match natural? text with
      | some (n + 1) => return n + 1
      | _ => refuse s!"Illegal number: {text}"

-- Outside of loops there is nothing to leave.
def leaveLoops (stop : Nat → Stop) : Builtin := fun arguments => do
  let count ← loopCount arguments
  setStatus 0
  let loops := (← get).loops
  if 0 < loops then throw (stop (min count loops))

-- Notes what to do on a signal, or that nothing is to be done, or that all is as usual.
def setTrap (action : Option String) (signal : Nat) : ShellM Unit := do
  modify fun session =>
    { session with
      traps :=
        match action with
        | some action => session.traps.insert signal action
        | none => session.traps.erase signal }
  perform (ProcessM.setReaction signal (action = some "") (action.any (· != "")))

def showTraps : ShellM Unit := do
  sayLines ((← get).traps.entries.map fun entry =>
    s!"trap -- {quote entry.2} {Signal.name entry.1}")

def setTraps (action : Option String) : List String → ShellM Unit
  | [] => setStatus 0
  | name :: names => do
      match Signal.ofText? name with
      | some signal => do
          setTrap action signal
          setTraps action names
      | none => do
          whisper s!"trap: {name}: bad trap"
          setStatus 1

def trap : Builtin := fun arguments => do
  match ← operands arguments with
  | [] => showTraps
  | [name] => setTraps none [name]
  | action :: names =>
      if (Signal.ofText? action).isSome && (natural? action).isSome then
        setTraps none (action :: names)
      else setTraps (if action == "-" then none else some action) names

-- The process or the job that an argument names.
def jobOf? (text : String) : ShellM (Option Job) := do
  let jobs := (← get).jobs
  match text.toList with
  | '%' :: rest =>
      match natural? (String.ofList rest) with
      | some number => return jobs.find? (·.number = number)
      | none =>
          if rest.isEmpty || rest = ['%'] || rest = ['+'] then return jobs.head?
          else if rest = ['-'] then return jobs.drop 1 |>.head?
          else return none
  | _ => do
      let process ← numberOf text
      return jobs.find? fun job => (job.processes.getLast?).any fun entry => entry.1 = process

-- What a wait comes to that a signal has cut short.
def interrupted : ShellM Unit := do
  match (← perform ProcessM.self).pending with
  | signal :: _ => setStatus (128 + signal)
  | [] => pure ⟨⟩

def waitAll : Nat → ShellM Unit
  | 0 => pure ⟨⟩
  | left + 1 => do
      modify fun session =>
        { session with
          jobs := session.jobs.map fun job => { job with waited := job.waited || job.isDone } }
      match (← get).jobs.find? (!·.isDone) with
      | none => setStatus 0
      | some _ =>
          match ← perform (ProcessM.awaitAny true) with
          | none => interrupted
          | some (process, ending) => do
              noteEnding none process ending
              waitAll left

def waitFor : List String → ShellM Unit
  | [] => pure ⟨⟩
  | text :: rest => do
      match ← jobOf? text with
      | none =>
          if text.startsWith "%" then refuse s!"No such job: {text}"
          setStatus 127
          waitFor rest
      | some job =>
          if ← waitJob job.number true ProcessM.patience then
            setStatus (((← findJob job.number).map Job.status).getD 0)
            modifyJob job.number fun job => { job with waited := true }
            waitFor rest
          else interrupted

def wait : Builtin := fun arguments => do
  match ← operands arguments with
  | [] => waitAll ProcessM.patience
  | targets => waitFor targets

-- The current job has a plus sign and the one before it a minus sign.
def jobLine (place : Nat) (job : Job) : String :=
  let sign := if place = 0 then "+" else if place = 1 then "-" else " "
  let state :=
    match (job.processes.getLast?).bind (·.2), job.isDone with
    | some (.exited 0), true => "Done"
    | some (.exited status), true => s!"Done({status})"
    | some (.killed signal), true => Signal.description signal
    | _, _ => "Running"
  s!"[{job.number}] {sign} {state}" ++ String.ofList (List.replicate (27 - state.length) ' ')

-- Notes the processes that have ended by now.
def collectEndings : Nat → ShellM Unit
  | 0 => pure ⟨⟩
  | left + 1 => do
      let parent ← perform ProcessM.number
      if (← machine).endings.entries.any fun entry => entry.2.1 = parent then
        if let some (process, ending) ← perform (ProcessM.awaitAny false) then
          noteEnding none process ending
          collectEndings left

def jobs : Builtin := fun arguments => do
  let (flags, _) ← flags ['l', 'p'] arguments
  collectEndings ((← get).jobs.length * 8 + 8)
  let jobs := (← get).jobs
  if flags.contains 'p' then
    sayLines (jobs.filterMap fun job => (job.processes.head?).map fun entry => toString entry.1)
  else
    sayLines (jobs.zipIdx.map fun entry => jobLine entry.2 entry.1)
    modify fun session =>
      { session with jobs := session.jobs.filter fun job => !job.isDone }

-- Jobs cannot be moved between front and back here.
def moveJob : Builtin := fun arguments => do
  match ← operands arguments with
  | [] =>
      if (← get).jobs.isEmpty then refuse "No current job"
      else refuse "job (null) not created under job control"
  | name :: _ => do
      match ← jobOf? (if name.startsWith "%" then name else "%" ++ name) with
      | some _ => refuse s!"job {name} not created under job control"
      | none => refuse s!"No such job: {name}"

def killUsage : String :=
  "Usage: kill [-s sigspec | -signum | -sigspec] [pid | job]... or\nkill -l [exitstatus]"

def listSignals : List String → ShellM Unit
  | [] => sayLines ("0" :: (Signal.names.drop 1))
  | text :: _ => do
      let number ← numberOf text
      let signal := if 128 ≤ number then number - 128 else number
      if signal = 0 || Signal.names.length ≤ signal then
        refuse s!"invalid signal number or exit status: {text}"
      sayLines [Signal.name signal]

-- Sends a signal to one target and tells whether that was possible.
def killOne (signal : Nat) (target : String) : ShellM Bool := do
  match target.toList with
  | '%' :: _ => do
      if (← jobOf? target).isNone then refuse s!"No such job: {target}"
      complain "No such process\n"
      return false
  | '-' :: rest => do
      let _ ← numberOf (String.ofList rest)
      complain "No such process\n"
      return false
  | _ => do
      let process ← numberOf target
      if ← perform (ProcessM.signal process signal) then return true
      complain "No such process\n"
      return false

def killAll (signal : Nat) (targets : List String) : ShellM Unit := do
  if targets.isEmpty then refuse killUsage
  let reached ← targets.mapM (killOne signal)
  setStatus (if reached.all id then 0 else 1)

def kill : Builtin := fun arguments => do
  match arguments.map String.toList with
  | [] => refuse killUsage
  | ['-', '-'] :: _ => killAll 15 (arguments.drop 1)
  | ['-', 'l'] :: _ => listSignals (arguments.drop 1)
  | ('-' :: c :: letters) :: _ =>
      match Signal.ofText? (String.ofList (c :: letters)) with
      | some signal => do
          let rest := arguments.drop 1
          killAll signal (if rest.head? = some "--" then rest.drop 1 else rest)
      | none => do
          let (options, rest) ← options [('l', false), ('s', true)] arguments.length arguments
          match options.getLast? with
          | some ('s', name) =>
              match Signal.ofText? name with
              | some signal => killAll signal rest
              | none => refuse s!"invalid signal number or name: {name}"
          | _ => listSignals rest
  | _ => killAll 15 arguments

end JobScheduler.Shell.Builtin
