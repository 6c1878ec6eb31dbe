import JobScheduler.Result
import JobScheduler.Scheduler.Basic
import JobScheduler.Shell.World
import JobScheduler.Text.Ranges

namespace JobScheduler

open Shell Text

-- Part of the outer layer: what is told of a command that a shell has run.

namespace Report

-- The lines of a text of bytes that can be read as text, up to the first that cannot. A
-- line end may be marked by two characters.
def readableLines (bytes : List Char) : List (List Char) :=
  let withoutReturn := fun (line : List Char) =>
    if line.getLast? = some '\x0d' then line.dropLast else line
  let parts := splitAt '\n' bytes
  let ended := parts.dropLast.map withoutReturn
  let last := (parts.getLast?.toList).filter (!·.isEmpty)
  ((ended ++ last).map fun line => Utf8.decode (octets line)).takeWhile (·.isOk) |>.filterMap
    (·.toOption)

def lastWords? (errors : List Char) : Option String :=
  ((readableLines errors).filter fun line => !(trim line).isEmpty).getLast?.map String.ofList

-- The code of a command that a signal ended is -1.
def code (status : Option Nat) : Int :=
  match status with
  | some status => status
  | none => -1

def failureMessage (status : Option Nat) (errors : List Char) : String :=
  match lastWords? errors with
  | some line => s!"exit code {code status}: {line}"
  | none => s!"exit code {code status}"

-- What is reported of a command that has ended. Its output has to be text, however it ended.
def ofEnded (task : TaskId) (ended : Ended) : TaskResult :=
  match Utf8.decode (octets ended.output) with
  | .error fault => .failure task s!"reading task stdout: {fault.message}"
  | .ok output =>
      if ended.status = some 0 then .success task (String.ofList (trimEnd output))
      else .failure task (failureMessage ended.status ended.errors)

-- A command that holds a zero character cannot be started.
def unstartable? (work : Assignment) : Option TaskResult :=
  if work.cmd.toList.contains '\x00' then
    some (.failure work.task
      (s!"spawning process for task '{work.job}.{work.name}': " ++
        "nul byte found in provided data"))
  else none

end Report

end JobScheduler
