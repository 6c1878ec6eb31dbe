import JobScheduler.Shell.Interpreter

namespace JobScheduler.Shell

-- The outer layer seen from the program: processes that are started on a machine and take
-- turns.

-- What there is besides files of one's own.
def FileTree.standard : FileTree := FileTree.base Utility.names

def FileTree.ofFiles (files : List (String × List Char)) : FileTree :=
  FileTree.standard.withFiles files

-- How a process goes on: at a time, or as soon as the machine is ready for it.
structure Turn where
  process : Nat
  due : Nat
  ready : Option (Machine → Bool)
  goOn : Machine → Thread Machine

-- A machine and the processes that take turns on it. Time passes only while none of them
-- has anything to do.
structure World where
  machine : Machine
  clock : Nat
  turns : List Turn

-- A process that was started from outside, and where what it writes is collected.
structure Launched where
  process : Nat
  output : Nat
  errors : Nat

-- How a shell ended, and what it wrote. One that a signal ended has no status.
structure Ended where
  status : Option Nat
  output : List Char
  errors : List Char

namespace World

def ofTree (tree : FileTree) : World := ⟨.ofTree tree, 0, []⟩

-- How long it takes to start a process, and how long until the process does something.
def startingTime : Nat := 50

def enteringTime : Nat := 100

-- The time at which a turn can come.
def time? (world : World) (turn : Turn) : Option Nat :=
  match turn.ready with
  | none => some turn.due
  | some ready => if ready world.machine then some (max turn.due world.clock) else none

-- The first of the turns that come earliest.
def earliest? (world : World) : List Turn → Option (Nat × Turn × List Turn)
  | [] => none
  | turn :: rest =>
      match world.time? turn, world.earliest? rest with
      | none, none => none
      | none, some (time, best, others) => some (time, best, turn :: others)
      | some time, none => some (time, turn, rest)
      | some time, some (later, best, others) =>
          if time ≤ later then some (time, turn, rest) else some (later, best, turn :: others)

-- What follows the turn of a process.
def after (world : World) (process : Nat) : Thread Machine → World
  | .finished machine => { world with machine }
  | .asleep span machine goOn =>
      let turn : Turn := ⟨process, world.clock + span, none, goOn⟩
      { world with machine, turns := world.turns ++ [turn] }
  | .waiting ready machine goOn =>
      let turn : Turn := ⟨process, world.clock, some ready, goOn⟩
      { world with machine, turns := world.turns ++ [turn] }
  | .starting other begin_ machine goOn =>
      let turn : Turn := ⟨process, world.clock + startingTime, none, goOn⟩
      let first : Turn := ⟨other, world.clock + enteringTime, none, begin_⟩
      { world with machine, turns := world.turns ++ [turn, first] }

-- Lets the process go on whose turn it is, if there is one.
def step? (world : World) : Option World :=
  let alive := world.turns.filter fun turn => world.machine.isAlive turn.process
  match world.earliest? alive with
  | none => none
  | some (clock, turn, turns) =>
      some ({ world with clock, turns }.after turn.process (turn.goOn world.machine))

def environment : SortedMap String String :=
  SortedMap.ofList [("HOME", "/root"), ("PATH", defaultPath), ("PWD", FileTree.workplace)]

-- Starts a shell that runs a text of commands, after some time.
def launch (world : World) (delay : Nat) (commands : String) : Launched × World :=
  let (machine, process, output, errors) := world.machine.launch
  let body : ProcessM Unit := do
    ProcessM.conclude (← shell ProcessM.patience ⟨"sh", ["-c", narrow commands], environment⟩)
  let turn : Turn := ⟨process, world.clock + delay, none, Worker.thread (body process)⟩
  (⟨process, output, errors⟩, { world with machine, turns := world.turns ++ [turn] })

-- Ends a process that was started from outside.
def stop (world : World) (launched : Launched) : World :=
  { world with machine := world.machine.conclude launched.process (.killed Signal.kill) }

-- What became of a process, once it has ended and nobody can write for it any more.
def ended? (world : World) (launched : Launched) : Option Ended :=
  match world.machine.endings.find? launched.process with
  | none => none
  | some (_, ending) =>
      if world.machine.hasWriter launched.output || world.machine.hasWriter launched.errors then
        none
      else
        let status :=
          match ending with
          | .exited status => some status
          | .killed _ => none
        some ⟨status, (world.machine.pipe launched.output).stream.bytes,
          (world.machine.pipe launched.errors).stream.bytes⟩

end World

end JobScheduler.Shell
