import JobScheduler.Shell.Redirection

namespace JobScheduler.Shell

-- How a command is run: whether its failure is looked at, so that it does not end the
-- shell, and whether it is the last thing that the shell does.
structure Mode where
  tested : Bool
  last : Bool

namespace Mode

def plain : Mode := ⟨false, false⟩

def test : Mode := ⟨true, false⟩

-- The same but for the last thing to do.
def inner (mode : Mode) : Mode := ⟨mode.tested, false⟩

end Mode

namespace ShellM

-- Ends the shell on a failure that nobody looks at, if that is asked for.
def settle (mode : Mode) : ShellM Unit := do
  if (← get).status ≠ 0 && !mode.tested then
    if ← isOn 'e' then throw .exit

-- Runs work and then `finish`, also if the work stops.
def finally_ (work : ShellM α) (finish : ShellM Unit) : ShellM α := do
  let result ← tryCatch work fun stop => do
    finish
    throw stop
  finish
  return result

-- Runs work in a frame of its own if that is asked for.
def inFrameIf (asked : Bool) (work : ShellM α) : ShellM α := if asked then inFrame work else work

-- Runs work whose messages begin with a name.
def speaking (name : String) (work : ShellM Unit) : ShellM Unit := do
  let before := (← get).speaker
  modify fun session => { session with speaker := name ++ ": " }
  finally_ work (modify fun session => { session with speaker := before })

-- Runs one round of a loop. The answer tells whether the loop goes on.
def round (body : ShellM Unit) : ShellM Bool :=
  tryCatch (do body; return true) fun stop =>
    match stop with
    | .nextRound 1 => return true
    | .leaveLoops 1 => return false
    | .nextRound (n + 1) => throw (.nextRound n)
    | .leaveLoops (n + 1) => throw (.leaveLoops n)
    | stop => throw stop

def inLoop (work : ShellM Unit) : ShellM Unit := do
  let loops := (← get).loops
  modify fun session => { session with loops := loops + 1 }
  finally_ work (modify fun session => { session with loops })

-- Runs work up to the end of the shell. What is left of it is how it ended.
def bounded (work : ShellM Unit) : ShellM Unit :=
  tryCatch work fun stop =>
    match stop with
    | .exhausted => throw .exhausted
    | _ => pure ⟨⟩

-- The environment of the programs that a shell starts.
def environment : ShellM (SortedMap String String) := do
  let exported := (← get).bindings.entries.filterMap fun entry =>
    if entry.2.exported then entry.2.value.map fun value => (entry.1, value) else none
  return SortedMap.ofList exported

end ShellM

def Job.isDone (job : Job) : Bool := job.processes.all fun process => process.2.isSome

-- How a job ended is how the last of its processes did.
def Job.status (job : Job) : Nat :=
  ((job.processes.getLast?.bind (·.2)).map Ending.status).getD 0

namespace ShellM

-- The first number that no job has.
def freeJobNumber (jobs : List Job) : Nat :=
  let numbers := (List.range (jobs.length + 1)).map (· + 1)
  (numbers.find? fun number => jobs.all (·.number ≠ number)).getD 1

-- Notes a job whose processes are still to be started, and tells its number.
def newJob : ShellM Nat := do
  let jobs := (← get).jobs.filter fun job => !(job.waited && job.isDone)
  let number := freeJobNumber jobs
  modify fun session => { session with jobs := ⟨number, [], false⟩ :: jobs }
  return number

def modifyJob (number : Nat) (change : Job → Job) : ShellM Unit :=
  modify fun session =>
    { session with
      jobs := session.jobs.map fun job => if job.number = number then change job else job }

def addProcess (job process : Nat) : ShellM Unit :=
  modifyJob job fun job => { job with processes := job.processes ++ [(process, none)] }

def forgetJob (number : Nat) : ShellM Unit :=
  modify fun session => { session with jobs := session.jobs.filter (·.number ≠ number) }

def findJob (number : Nat) : ShellM (Option Job) :=
  return (← get).jobs.find? (·.number = number)

-- Programs start after the processes that are to run them.
def loading : Nat := 500

-- How long it takes until a process that was started does something.
def starting : Nat := 50

-- What a shell that is started in parentheses does not have: jobs, and what was to be done
-- on signals, unless it was nothing.
def Session.branch (session : Session) : Session :=
  { session with
    jobs := []
    traps := SortedMap.ofList (session.traps.entries.filter fun entry => entry.2 == "")
    trapStatus := none }

-- Starts a process that goes on as a shell of its own, with a change of what it has open.
def fork (change : Process → Process) (body : ShellM Unit) : ShellM Nat := do
  let session ← get
  perform <| ProcessM.spawn (fun process => change { process with caught := [] }) do
    ProcessM.sleep starting
    let (_, session) ← (body.run).run (Session.branch session)
    return .exited (session.status % 256)

-- Notes how a process ended. If somebody waits for it a signal that ended it is reported.
def noteEnding (awaited : Option Nat) (process : Nat) (ending : Ending) : ShellM Unit := do
  let isOf := fun (job : Job) => job.processes.any fun entry => entry.1 = process
  let job := (← get).jobs.find? isOf
  if let some job := job then
    modifyJob job.number fun job =>
      { job with
        processes := job.processes.map fun entry =>
          if entry.1 = process then (process, some ending) else entry }
    if awaited = some job.number then
      if let .killed signal := ending then
        if signal ≠ Signal.interrupt && signal ≠ Signal.brokenPipe then
          let _ ← write 2 (Signal.description signal ++ "\n").toList

-- Waits for processes to end until a job is done, so many at most. Tells whether it is.
def waitJob (number : Nat) (interruptible : Bool) : Nat → ShellM Bool
  | 0 => return false
  | left + 1 => do
      match ← findJob number with
      | none => return true
      | some job =>
          if job.isDone then return true
          match ← perform (ProcessM.awaitAny interruptible) with
          | none => return false
          | some (process, ending) => do
              noteEnding (some number) process ending
              waitJob number interruptible left

-- Waits for a job and forgets it. The status is that of the job.
def finishJob (number : Nat) : ShellM Unit := do
  let _ ← waitJob number false ProcessM.patience
  match ← findJob number with
  | some job => setStatus job.status
  | none => pure ⟨⟩
  forgetJob number

end ShellM

end JobScheduler.Shell
