import JobScheduler.Shell.FileTree
import JobScheduler.Shell.Signal

namespace JobScheduler.Shell

-- A queue of bytes. `back` holds what was put in last, newest first.
structure Stream where
  front : List Char
  back : List Char
  size : Nat
deriving Inhabited

namespace Stream

def empty : Stream := ⟨[], [], 0⟩

def bytes (stream : Stream) : List Char := stream.front ++ stream.back.reverse

def put (stream : Stream) (bytes : List Char) : Stream :=
  ⟨stream.front, bytes.reverse ++ stream.back, stream.size + bytes.length⟩

-- The first bytes, so many if there are so many, and what is left.
def take (stream : Stream) (count : Nat) : List Char × Stream :=
  if stream.front.isEmpty || stream.size ≤ count then
    let bytes := stream.bytes
    (bytes.take count, ⟨bytes.drop count, [], stream.size - count⟩)
  else
    let taken := stream.front.take count
    (taken, ⟨stream.front.drop count, stream.back, stream.size - taken.length⟩)

theorem bytes_put (stream : Stream) (bytes : List Char) :
    (stream.put bytes).bytes = stream.bytes ++ bytes := by
  simp [put, Stream.bytes]

theorem take_append_rest (stream : Stream) (count : Nat) :
    (stream.take count).1 ++ (stream.take count).2.bytes = stream.bytes := by
  unfold take
  split
  · simp [Stream.bytes]
  · simp [Stream.bytes, ← List.append_assoc]

end Stream

-- Why something that a process asks for is not done.
inductive Obstacle
  | missing | exists_ | isDirectory | notDirectory | notEmpty | circular | forbidden
  | badDescriptor | brokenPipe | noSpace | noDevice | noProcess | invalid | notExecutable
deriving DecidableEq, Repr

def Obstacle.message : Obstacle → String
  | .missing => "No such file or directory"
  | .exists_ => "File exists"
  | .isDirectory => "Is a directory"
  | .notDirectory => "Not a directory"
  | .notEmpty => "Directory not empty"
  | .circular => "Too many levels of symbolic links"
  | .forbidden => "Permission denied"
  | .badDescriptor => "Bad file descriptor"
  | .brokenPipe => "Broken pipe"
  | .noSpace => "No space left on device"
  | .noDevice => "No such device or address"
  | .noProcess => "No such process"
  | .invalid => "Invalid argument"
  | .notExecutable => "Exec format error"

-- Why nothing new can be at a place, or nothing old is there.
def Place.obstacle : Place → Obstacle
  | .found .. => .exists_
  | .free _ | .missing => .missing
  | .blocked => .notDirectory
  | .circular => .circular

-- What an open number leads to.
inductive Target
  | pipe (index : Nat)
  | file (index : Nat)
  | directory (path : String)
  | device (device : Device)
deriving DecidableEq, Repr

structure Opened where
  target : Target
  offset : Nat
  reads : Bool
  writes : Bool
  appends : Bool
deriving DecidableEq, Repr

-- Bytes on their way from one process to another. A collected pipe takes any number of
-- them, since somebody outside reads them at once.
structure Pipe where
  stream : Stream
  collected : Bool

inductive Ending
  | exited (status : Nat)
  | killed (signal : Nat)
deriving DecidableEq, Repr

-- The status that a shell gives for an ending.
def Ending.status : Ending → Nat
  | .exited status => status
  | .killed signal => 128 + signal

structure Process where
  parent : Nat
  directory : String
  -- The permissions that new files do not get.
  mask : Nat
  -- The open numbers, each with what it leads to.
  handles : SortedMap Nat Nat
  -- Open numbers that are put aside and come back later.
  kept : List (SortedMap Nat Nat)
  ignored : List Nat
  caught : List Nat
  pending : List Nat

-- What processes share.
structure Machine where
  tree : FileTree
  opened : Array Opened
  pipes : Array Pipe
  processes : SortedMap Nat Process
  -- The processes that have ended and whose parents have not asked yet.
  endings : SortedMap Nat (Nat × Ending)
  lastProcess : Nat

namespace Machine

-- The parent of the processes that no other process has started.
def outside : Nat := 1

def ofTree (tree : FileTree) : Machine :=
  { tree, opened := #[], pipes := #[], processes := SortedMap.empty, endings := SortedMap.empty
    lastProcess := 1000 }

def opening? (machine : Machine) (process number : Nat) : Option (Nat × Opened) := do
  let process ← machine.processes.find? process
  let index ← process.handles.find? number
  let opened ← machine.opened[index]?
  return (index, opened)

def addOpened (machine : Machine) (opened : Opened) : Machine × Nat :=
  ({ machine with opened := machine.opened.push opened }, machine.opened.size)

def addPipe (machine : Machine) (collected : Bool) : Machine × Nat :=
  ({ machine with pipes := machine.pipes.push ⟨.empty, collected⟩ }, machine.pipes.size)

def pipe (machine : Machine) (index : Nat) : Pipe := machine.pipes.getD index ⟨.empty, true⟩

def setStream (machine : Machine) (index : Nat) (stream : Stream) : Machine :=
  { machine with pipes := machine.pipes.modify index fun pipe => { pipe with stream } }

-- Whether a process has an open number that leads to something of a kind.
def holds (machine : Machine) (wanted : Opened → Bool) (process : Process) : Bool :=
  (process.handles :: process.kept).any fun handles =>
    handles.entries.any fun entry => (machine.opened[entry.2]?).any wanted

def anyHolds (machine : Machine) (wanted : Opened → Bool) : Bool :=
  machine.processes.entries.any fun entry => machine.holds wanted entry.2

def hasWriter (machine : Machine) (pipe : Nat) : Bool :=
  machine.anyHolds fun opened => opened.writes && opened.target = .pipe pipe

def hasReader (machine : Machine) (pipe : Nat) : Bool :=
  (machine.pipe pipe).collected ||
    machine.anyHolds fun opened => opened.reads && opened.target = .pipe pipe

-- Whether somebody who reads from a pipe has an answer.
def isReadable (machine : Machine) (pipe : Nat) : Bool :=
  (machine.pipe pipe).stream.size ≠ 0 || !machine.hasWriter pipe

def capacity : Nat := 65536

-- How many bytes more a pipe takes.
def room (machine : Machine) (pipe : Nat) : Nat := capacity - (machine.pipe pipe).stream.size

def isWritable (machine : Machine) (pipe : Nat) : Bool :=
  (machine.pipe pipe).collected || machine.room pipe ≠ 0 || !machine.hasReader pipe

def isAlive (machine : Machine) (process : Nat) : Bool := machine.processes.contains process

def addPending (machine : Machine) (process signal : Nat) : Machine :=
  { machine with
    processes := machine.processes.modify process fun entry =>
      if entry.pending.contains signal then entry
      else { entry with pending := entry.pending ++ [signal] } }

def catches (machine : Machine) (process signal : Nat) : Bool :=
  (machine.processes.find? process).any fun entry => entry.caught.contains signal

-- Takes a process away and keeps how it ended for its parent, if that is still there.
def conclude (machine : Machine) (number : Nat) (ending : Ending) : Machine :=
  match machine.processes.find? number with
  | none => machine
  | some process =>
      let machine := { machine with processes := machine.processes.erase number }
      if process.parent = outside || machine.isAlive process.parent then
        let machine :=
          { machine with endings := machine.endings.insert number (process.parent, ending) }
        if machine.catches process.parent Signal.child then
          machine.addPending process.parent Signal.child
        else machine
      else machine

-- Sends a signal to a process, if there is such a process.
def signal? (machine : Machine) (number signal : Nat) : Option Machine :=
  match machine.processes.find? number with
  | none => if machine.endings.contains number then some machine else none
  | some process =>
      if signal = 0 then some machine
      else if signal = Signal.kill then some (machine.conclude number (.killed signal))
      else if process.ignored.contains signal then some machine
      else if process.caught.contains signal then some (machine.addPending number signal)
      else if Signal.isHarmless signal then some machine
      else some (machine.conclude number (.killed signal))

-- Starts a process from outside. What it writes is collected in two pipes, which are told
-- with its number.
def launch (machine : Machine) : Machine × Nat × Nat × Nat :=
  let (machine, output) := machine.addPipe true
  let (machine, errors) := machine.addPipe true
  let (machine, input) := machine.addOpened ⟨.device .null, 0, true, false, false⟩
  let (machine, first) := machine.addOpened ⟨.pipe output, 0, false, true, false⟩
  let (machine, second) := machine.addOpened ⟨.pipe errors, 0, false, true, false⟩
  let number := machine.lastProcess + 1
  let process : Process :=
    { parent := outside, directory := FileTree.workplace, mask := 18
      handles := SortedMap.ofList [(0, input), (1, first), (2, second)]
      kept := [], ignored := [], caught := [], pending := [] }
  ({ machine with
      processes := machine.processes.insert number process, lastProcess := number },
    number, output, errors)

end Machine

end JobScheduler.Shell
