import JobScheduler.Shell.Machine

namespace JobScheduler.Shell

-- Work on a state that others share, up to the points where others get their turn.
inductive Thread (σ : Type)
  | finished (state : σ)
  | asleep (span : Nat) (state : σ) (resume : σ → Thread σ)
  -- Goes on as soon as the state is `ready`.
  | waiting (ready : σ → Bool) (state : σ) (resume : σ → Thread σ)
  -- Sets a process of its own going.
  | starting (process : Nat) (other : σ → Thread σ) (state : σ) (resume : σ → Thread σ)

-- Work that gives a result, written in terms of what comes after it.
def Worker (σ α : Type) : Type := (α → σ → Thread σ) → σ → Thread σ

namespace Worker

instance : Monad (Worker σ) where
  pure result := fun next => next result
  bind worker f := fun next => worker fun result => f result next

instance : LawfulMonad (Worker σ) :=
  LawfulMonad.mk' (Worker σ) (fun _ => rfl) (fun _ _ => rfl) (fun _ _ _ => rfl)

instance : MonadStateOf σ (Worker σ) where
  get := fun next state => next state state
  set state := fun next _ => next ⟨⟩ state
  modifyGet f := fun next state => let (result, state) := f state; next result state

def sleep (span : Nat) : Worker σ Unit := fun next state => .asleep span state (next ⟨⟩)

def waitUntil (ready : σ → Bool) : Worker σ Unit := fun next state =>
  if ready state then next ⟨⟩ state else .waiting ready state (next ⟨⟩)

def thread (worker : Worker σ Unit) : σ → Thread σ := worker fun _ => .finished

def start (process : Nat) (worker : Worker σ Unit) : Worker σ Unit := fun next state =>
  .starting process worker.thread state (next ⟨⟩)

end Worker

-- What a process does on the machine that it shares with others. It knows its number.
abbrev ProcessM := ReaderT Nat (Worker Machine)

-- How a file is opened.
structure Access where
  reads : Bool := false
  writes : Bool := false
  creates : Bool := false
  truncates : Bool := false
  appends : Bool := false
  exclusive : Bool := false

namespace ProcessM

def work (worker : Worker Machine α) : ProcessM α := fun _ => worker

def machine : ProcessM Machine := work get

def modifyMachine (change : Machine → Machine) : ProcessM Unit := work (modify change)

def number : ProcessM Nat := read

def noProcess : Process :=
  { parent := Machine.outside, directory := "/", mask := 18, handles := SortedMap.empty
    kept := [], ignored := [], caught := [], pending := [] }

def self : ProcessM Process := do
  return ((← machine).processes.find? (← number)).getD noProcess

def modifySelf (change : Process → Process) : ProcessM Unit := do
  let number ← number
  modifyMachine fun machine =>
    { machine with processes := machine.processes.modify number change }

def sleep (span : Nat) : ProcessM Unit := work (Worker.sleep span)

def waitUntil (ready : Machine → Bool) : ProcessM Unit := work (Worker.waitUntil ready)

-- Nothing comes after this.
def halt : ProcessM α := fun _ _ machine => .finished machine

def conclude (ending : Ending) : ProcessM α := do
  let number ← number
  modifyMachine fun machine => machine.conclude number ending
  halt

-- Starts a process that has what this one has but for a change, and tells its number.
def spawn (change : Process → Process) (body : ProcessM Ending) : ProcessM Nat := do
  let parent ← number
  let child := (← machine).lastProcess + 1
  let process := change { ← self with parent, pending := [] }
  modifyMachine fun machine =>
    { machine with processes := machine.processes.insert child process, lastProcess := child }
  work (Worker.start child ((do conclude (← body) : ProcessM Unit) child))
  return child

-- Waits for a process that this one has started and tells how it ended.
def await (child : Nat) : ProcessM Ending := do
  waitUntil fun machine => machine.endings.contains child
  let ending := ((← machine).endings.find? child).map (·.2)
  modifyMachine fun machine => { machine with endings := machine.endings.erase child }
  return ending.getD (.exited 127)

-- Waits until one of the processes that this one has started has ended. There may be none,
-- or a signal may come first if that counts.
def awaitAny (interruptible : Bool) : ProcessM (Option (Nat × Ending)) := do
  let parent ← number
  let ended := fun (machine : Machine) =>
    machine.endings.entries.find? fun entry => entry.2.1 = parent
  waitUntil fun machine =>
    (ended machine).isSome ||
      machine.processes.entries.all (fun entry => entry.2.parent ≠ parent) ||
      (interruptible && (machine.processes.find? parent).any fun process => !process.pending.isEmpty)
  match ended (← machine) with
  | none => return none
  | some (child, _, ending) => do
      modifyMachine fun machine => { machine with endings := machine.endings.erase child }
      return some (child, ending)

def setReaction (signal : Nat) (ignored caught : Bool) : ProcessM Unit :=
  modifySelf fun process =>
    { process with
      ignored := (if ignored then [signal] else []) ++ process.ignored.filter (· != signal)
      caught := (if caught then [signal] else []) ++ process.caught.filter (· != signal) }

-- Sends a signal, perhaps to the process itself.
def signal (target signal : Nat) : ProcessM Bool := do
  match (← machine).signal? target signal with
  | none => return false
  | some next => do
      modifyMachine fun _ => next
      if next.isAlive (← number) then return true else halt

def directory : ProcessM String := return (← self).directory

def locate (path : String) (follow : Bool) : ProcessM Place := do
  return (← machine).tree.locate (← directory) path follow

def modifyTree (change : FileTree → FileTree) : ProcessM Unit :=
  modifyMachine fun machine => { machine with tree := change machine.tree }

def addOpened (opened : Opened) : ProcessM Nat := do
  let (machine, index) := (← machine).addOpened opened
  modifyMachine fun _ => machine
  return index

def openTarget (target : Target) (access : Access) : ProcessM Nat := do
  if let .file index := target then
    if access.truncates then modifyTree fun tree => tree.setBytes index []
  addOpened ⟨target, 0, access.reads, access.writes, access.appends⟩

-- Opens what a path leads to and tells where it is kept.
def openPath (path : String) (access : Access) : ProcessM (Except Obstacle Nat) := do
  match ← locate path true with
  | .missing => return .error .missing
  | .blocked => return .error .notDirectory
  | .circular => return .error .circular
  | .free path =>
      if !access.creates then return .error .missing
      else if path.endsWith "/" then return .error .isDirectory
      else
        let process ← self
        let mode := 438 - (438 &&& process.mask)
        let (tree, index) := (← machine).tree.create path ⟨[], mode⟩
        modifyTree fun _ => tree
        return .ok (← openTarget (.file index) access)
  | .found path node =>
      if access.creates && access.exclusive then return .error .exists_
      match node with
      | .directory =>
          if access.writes then return .error .isDirectory
          else return .ok (← openTarget (.directory path) access)
      | .file index => return .ok (← openTarget (.file index) access)
      | .program _ =>
          if access.writes then return .error .forbidden
          else return .ok (← openTarget (.device .null) access)
      | .link _ => return .error .circular
      | .device .terminal => return .error .noDevice
      | .device (.number n) =>
          match (← machine).opening? (← number) n with
          | some (_, opened) => return .ok (← openTarget opened.target access)
          | none => return .error .missing
      | .device device => return .ok (← openTarget (.device device) access)

-- Makes a number lead to what is kept at an index, or to nothing.
def setHandle (number : Nat) (index : Option Nat) : ProcessM Unit :=
  modifySelf fun process =>
    { process with
      handles :=
        match index with
        | some index => process.handles.insert number index
        | none => process.handles.erase number }

def handle? (number : Nat) : ProcessM (Option Nat) := return (← self).handles.find? number

-- The first number from a given one on that is not open.
def freeNumber (start : Nat) : ProcessM Nat := do
  let handles := (← self).handles
  let numbers := (List.range (handles.size + 1)).map (start + ·)
  return (numbers.find? fun number => !handles.contains number).getD start

def makePipe : ProcessM (Nat × Nat) := do
  let (machine, pipe) := (← machine).addPipe false
  modifyMachine fun _ => machine
  let reader ← addOpened ⟨.pipe pipe, 0, true, false, false⟩
  let writer ← addOpened ⟨.pipe pipe, 0, false, true, false⟩
  return (reader, writer)

def moveOffset (index offset : Nat) : ProcessM Unit :=
  modifyMachine fun machine =>
    { machine with opened := machine.opened.modify index fun opened => { opened with offset } }

-- Reads so many bytes at most. No bytes mean the end.
def readBytes (number count : Nat) : ProcessM (Except Obstacle (List Char)) := do
  match (← machine).opening? (← ProcessM.number) number with
  | none => return .error .badDescriptor
  | some (index, opened) =>
      if !opened.reads then return .error .badDescriptor
      match opened.target with
      | .pipe pipe => do
          waitUntil fun machine => machine.isReadable pipe
          let (bytes, stream) := ((← machine).pipe pipe).stream.take count
          modifyMachine fun machine => machine.setStream pipe stream
          return .ok bytes
      | .file file => do
          let bytes := (((← machine).tree.content file).bytes.drop opened.offset).take count
          moveOffset index (opened.offset + bytes.length)
          return .ok bytes
      | .directory _ => return .error .isDirectory
      | .device .zero | .device .full => return .ok (List.replicate count '\x00')
      | .device _ => return .ok []

-- Makes bytes that were just read be there to be read again.
def giveBack (number : Nat) (bytes : List Char) : ProcessM Unit := do
  match (← machine).opening? (← ProcessM.number) number with
  | some (index, opened) =>
      match opened.target with
      | .pipe pipe =>
          let stream := ((← machine).pipe pipe).stream
          modifyMachine fun machine =>
            machine.setStream pipe
              { stream with
                front := bytes ++ stream.front, size := stream.size + bytes.length }
      | .file _ => moveOffset index (opened.offset - bytes.length)
      | _ => pure ⟨⟩
  | none => pure ⟨⟩

-- The bytes of a file after writing some at an offset. A gap is filled with zeros.
def overwrite (old : List Char) (offset : Nat) (bytes : List Char) : List Char :=
  old.take offset ++ List.replicate (offset - old.length) '\x00' ++ bytes ++
    old.drop (offset + bytes.length)

-- What a write to a pipe that nobody reads comes to.
def breakPipe : ProcessM (Option Obstacle) := do
  let process ← self
  if process.ignored.contains Signal.brokenPipe then return some .brokenPipe
  let _ ← signal (← number) Signal.brokenPipe
  return some .brokenPipe

def writePipe (pipe : Nat) : Nat → List Char → ProcessM (Option Obstacle)
  | 0, _ => return none
  | left + 1, bytes => do
      waitUntil fun machine => machine.isWritable pipe
      let machine ← machine
      if !machine.hasReader pipe then breakPipe
      else
        let room := if (machine.pipe pipe).collected then bytes.length else machine.room pipe
        modifyMachine fun machine =>
          machine.setStream pipe ((machine.pipe pipe).stream.put (bytes.take room))
        match bytes.drop room with
        | [] => return none
        | rest => writePipe pipe left rest

-- Writes bytes to what is kept at an index and tells what kept them from being written.
def writeOpened (index : Nat) (bytes : List Char) : ProcessM (Option Obstacle) := do
  match (← machine).opened[index]? with
  | none => return some .badDescriptor
  | some opened =>
      if !opened.writes then return some .badDescriptor
      if bytes.isEmpty then return none
      match opened.target with
      | .pipe pipe => writePipe pipe (bytes.length + 1) bytes
      | .file file => do
          let old := ((← machine).tree.content file).bytes
          let offset := if opened.appends then old.length else opened.offset
          modifyTree fun tree => tree.setBytes file (overwrite old offset bytes)
          moveOffset index (offset + bytes.length)
          return none
      | .directory _ => return some .badDescriptor
      | .device .full => return some .noSpace
      | .device _ => return none

def writeBytes (number : Nat) (bytes : List Char) : ProcessM (Option Obstacle) := do
  match ← handle? number with
  | none => return some .badDescriptor
  | some index => writeOpened index bytes

-- Reads what is left, so many times at most.
def readRest (number : Nat) : Nat → List (List Char) → ProcessM (Except Obstacle (List Char))
  | 0, chunks => return .ok chunks.reverse.flatten
  | left + 1, chunks => do
      match ← readBytes number Machine.capacity with
      | .error obstacle => return .error obstacle
      | .ok [] => return .ok chunks.reverse.flatten
      | .ok bytes => readRest number left (bytes :: chunks)

-- More than anything does that ends.
def patience : Nat := Nat.pow 2 60

def readAll (number : Nat) : ProcessM (Except Obstacle (List Char)) := readRest number patience []

end ProcessM

end JobScheduler.Shell
