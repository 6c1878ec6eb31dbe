import JobScheduler.Scheduler.Basic

namespace JobScheduler

-- What a scripted executor reports for a task of a given name.
inductive ScriptLine
  | succeed (value : String)
  | fail (message : String)
  | failTimes (count : Nat)
  | hang
deriving DecidableEq, Repr

-- An executor that runs nothing: it notes what it is told and reports by script. A task
-- without a line succeeds with its name as value.
structure ScriptedExecutor where
  lines : SortedMap String ScriptLine
  failuresLeft : SortedMap String Nat
  executed : List String
  cancelled : List TaskId

namespace ScriptedExecutor

def addLine (executor : ScriptedExecutor) (line : String × ScriptLine) : ScriptedExecutor :=
  { executor with
    lines := executor.lines.insert line.1 line.2
    failuresLeft :=
      match line.2 with
      | .failTimes count => executor.failuresLeft.insert line.1 count
      | _ => executor.failuresLeft }

def ofLines (lines : List (String × ScriptLine)) : ScriptedExecutor :=
  lines.foldl addLine ⟨SortedMap.empty, SortedMap.empty, [], []⟩

def outcome (executor : ScriptedExecutor) (work : Assignment) :
    Option TaskResult × ScriptedExecutor :=
  match executor.lines.find? work.name with
  | none => (some (.success work.task work.name), executor)
  | some (.succeed value) => (some (.success work.task value), executor)
  | some (.fail message) => (some (.failure work.task message), executor)
  | some .hang => (none, executor)
  | some (.failTimes _) =>
      match executor.failuresLeft.find? work.name with
      | some (left + 1) =>
          (some (.failure work.task "scripted failure"),
            { executor with failuresLeft := executor.failuresLeft.insert work.name left })
      | _ => (some (.success work.task work.name), executor)

def execute (executor : ScriptedExecutor) (work : Assignment) :
    Option TaskResult × ScriptedExecutor :=
  { executor with executed := executor.executed ++ [s!"{work.job}/{work.name}"] }.outcome work

-- The reports on a batch of tasks, in the order in which the tasks were handed over.
def executeAll (executor : ScriptedExecutor) : List Assignment →
    List (TaskId × TaskResult) × ScriptedExecutor
  | [] => ([], executor)
  | work :: rest =>
      let (result, executor) := executor.execute work
      let (reports, executor) := executor.executeAll rest
      match result with
      | some result => ((work.task, result) :: reports, executor)
      | none => (reports, executor)

def cancel (executor : ScriptedExecutor) (tasks : List TaskId) : ScriptedExecutor :=
  { executor with cancelled := executor.cancelled ++ tasks }

end ScriptedExecutor

end JobScheduler
