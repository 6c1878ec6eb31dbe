import JobScheduler.Shell.Utility.Call

namespace JobScheduler.Shell.Utility

open UtilityM

-- Utilities that take files and directories away.

def place (path : String) (follow : Bool) : UtilityM Place := perform (ProcessM.locate path follow)

def change (f : FileTree → FileTree) : UtilityM Unit := perform (ProcessM.modifyTree f)

-- Works on each operand and tells whether all of them went well.
def forEach (operands : List String) (work : String → UtilityM Bool) : UtilityM Bool :=
  operands.foldlM (fun good operand => return (← work operand) && good) true

-- A path as it was given, with what follows it in another one.
def below (operand rest : String) : String := operand ++ rest

structure Removal where
  forced : Bool
  recursive : Bool
  directories : Bool
  verbose : Bool
  asks : Bool

-- Asks before something is removed and tells whether the answer begins like `yes`.
def confirm (question : String) : UtilityM Bool := do
  writeErrors s!"{(← read).name}: {question}? ".toList
  let rec answer : Nat → List Char → UtilityM (List Char)
    | 0, line => return line.reverse
    | left + 1, line => do
        match ← perform (ProcessM.readBytes 0 1) with
        | .ok [c] => if c = '\n' then return line.reverse else answer left (c :: line)
        | _ => return line.reverse
  let line ← answer 4096 []
  return line.head?.any fun c => c = 'y' || c = 'Y'

def kindName (tree : FileTree) : Node → String
  | .directory => "directory"
  | .link _ => "symbolic link"
  | .file index =>
      if (tree.content index).bytes.isEmpty then "regular empty file" else "regular file"
  | .program _ => "regular file"
  | .device _ => "character special file"

-- Tells of all that goes away with a directory, the deepest first.
def sayRemoved (tree : FileTree) (operand path : String) : UtilityM Unit :=
  (tree.below path).reverse.forM fun (rest, node) => do
    let shown := Quoting.always (below operand rest)
    sayLine (if node = .directory then s!"removed directory {shown}" else s!"removed {shown}")

def Removal.remove (removal : Removal) (operand : String) : UtilityM Bool := do
  let shown := Quoting.always operand
  let refused := fun (cause : String) => do
    complain s!"cannot remove {shown}: {cause}"
    return false
  let last := ((FileTree.splitParts operand).filter (· != "")).getLast?.getD ""
  if removal.recursive && (last == "." || last == "..") then
    complain s!"refusing to remove '.' or '..' directory: skipping {shown}"
    return false
  if removal.recursive && operand != "" && last == "" then
    complain "it is dangerous to operate recursively on '/'"
    complain "use --no-preserve-root to override this failsafe"
    return false
  let tree ← tree
  match ← place operand false with
  | .found path node => do
      let emptied := (tree.names path).isEmpty
      if node = .directory && !removal.recursive then
        if !removal.directories then return ← refused Obstacle.isDirectory.message
        if !emptied then return ← refused Obstacle.notEmpty.message
      if removal.asks then
        if !(← confirm s!"remove {kindName tree node} {shown}") then return true
      change fun tree => tree.remove path
      if removal.verbose then sayRemoved tree operand path
      return true
  | other =>
      if removal.forced && (other.obstacle = .missing || other.obstacle = .notDirectory) then
        return true
      else refused other.obstacle.message

def rm : Utility := do
  let call ← call 1
    { letters := "dfiIrRv"
      words := [("force", 'f'), ("recursive", 'r'), ("dir", 'd'), ("verbose", 'v')] }
  if call.operands.isEmpty && call.has 'f' then leave 0
  needOperand call 1
  let removal : Removal :=
    { forced := call.last? ['f', 'i'] = some 'f', recursive := call.has 'r' || call.has 'R'
      directories := call.has 'd', verbose := call.has 'v'
      asks := call.last? ['f', 'i'] = some 'i' }
  return statusOf (← forEach call.operands removal.remove)

-- The directories on the way to a path, the longest first.
def ancestors : Nat → String → List String
  | 0, _ => []
  | fuel + 1, path =>
      let trimmed := path.toList.reverse.dropWhile (· = '/')
      match (trimmed.dropWhile (· ≠ '/')).dropWhile (· = '/') with
      | [] => []
      | rest =>
          let parent := String.ofList rest.reverse
          parent :: ancestors fuel parent

def rmdir : Utility := do
  let call ← call 1
    { letters := "pvI"
      words := [("parents", 'p'), ("verbose", 'v'), ("ignore-fail-on-non-empty", 'I')] }
  needOperand call 1
  let removeOne := fun (operand : String) => do
    if call.has 'v' then sayLine s!"rmdir: removing directory, {Quoting.always operand}"
    let refused := fun (obstacle : Obstacle) => do
      if obstacle = .notEmpty && call.has 'I' then return false
      complain s!"failed to remove {Quoting.always operand}: {obstacle.message}"
      return false
    match ← place operand false with
    | .found path .directory => do
        if !((← tree).names path).isEmpty then refused .notEmpty
        else
          change fun tree => tree.remove path
          return true
    | .found _ _ => refused .notDirectory
    | other => refused other.obstacle
  let good ← forEach call.operands fun operand => do
    let more := if call.has 'p' then ancestors operand.length operand else []
    (operand :: more).foldlM (fun good path => if good then removeOne path else return false) true
  return statusOf (good || call.has 'I')

end JobScheduler.Shell.Utility
