import JobScheduler.Shell.Utility.Remove

namespace JobScheduler.Shell.Utility

open UtilityM

-- Utilities that copy, move and link files.

-- The last part of a path that has one.
def baseName (path : String) : String :=
  let parts := (FileTree.splitParts path).filter (· != "")
  if parts.isEmpty then (if path == "" then "" else "/") else parts.getLast?.getD ""

-- Where operands go: into a directory, or to a path.
inductive Destination
  | into (directory : String)
  | exactly (path : String)

namespace Destination

def path (destination : Destination) (source : String) : String :=
  match destination with
  | .into directory => FileTree.child (if directory.endsWith "/" && directory != "/" then
      String.ofList (directory.toList.reverse.dropWhile (· = '/')).reverse
    else directory) (baseName source)
  | .exactly path => path

end Destination

-- The sources among the operands and where they go.
def sourcesAndTarget (call : Call) : UtilityM (List String × Destination) := do
  let isDirectory := fun (path : String) => do return (← tree).isDirectory (← directory) path
  let refused := fun (target : String) => do
    let cause :=
      match ← place target true with
      | .found _ _ => Obstacle.notDirectory
      | other => other.obstacle
    fail 1 s!"target {Quoting.always target}: {cause.message}"
  match call.value? 't', call.operands.reverse with
  | _, [] => refuse 1 "missing file operand"
  | some target, _ =>
      if ← isDirectory target then return (call.operands, .into target) else refused target
  | none, [only] => refuse 1 s!"missing destination file operand after {Quoting.always only}"
  | none, target :: sources => do
      if call.has 'T' then
        match sources.reverse with
        | _ :: extra :: _ => refuse 1 s!"extra operand {Quoting.always extra}"
        | sources => return (sources, .exactly target)
      else if ← isDirectory target then return (sources.reverse, .into target)
      else if sources.length = 1 then return (sources, .exactly target)
      else refused target

def transferManual (more : String) : Manual :=
  { letters := "fint:Tuv" ++ more
    words := [("force", 'f'), ("interactive", 'i'), ("no-clobber", 'n'),
      ("target-directory", 't'), ("no-target-directory", 'T'), ("update", 'u'),
      ("verbose", 'v'), ("recursive", 'r'), ("archive", 'a'), ("symbolic", 's'),
      ("dereference", 'L'), ("no-dereference", 'P'), ("link", 'l'), ("symbolic-link", 's')] }

-- What a full path is, if there is something.
def Place.whole? : Place → Option (String × Node)
  | .found path node => some (path, node)
  | _ => none

def sameFile (tree : FileTree) (a b : String) : Bool :=
  a == b ||
    match tree.find? a, tree.find? b with
    | some (.file i), some (.file j) => i = j
    | _, _ => false

-- Keeps something from being written over by something of another kind.
def clash (source target : Node) (operand goal : String) : Option String :=
  let from_ := Quoting.always operand
  let to_ := Quoting.always goal
  match source, target with
  | .directory, .directory => none
  | .directory, _ => some s!"cannot overwrite non-directory {to_} with directory {from_}"
  | _, .directory => some s!"cannot overwrite directory {to_} with non-directory"
  | _, _ => none

-- Tells of all that is copied from a place to another.
def sayCopied (tree : FileTree) (path operand goal : String) : UtilityM Unit :=
  (tree.below path).forM fun (rest, _) =>
    sayLine s!"{Quoting.always (below operand rest)} -> {Quoting.always (below goal rest)}"

def copyOne (call : Call) (destination : Destination) (operand : String) : UtilityM Bool := do
  let refused := fun (message : String) => do
    complain message
    return false
  let recursive := call.has 'r' || call.has 'R' || call.has 'a'
  let goal := destination.path operand
  let tree ← tree
  match ← place operand (!recursive && !call.has 'P') with
  | .found path node => do
      if node = .directory && !recursive then
        return ← refused s!"-r not specified; omitting directory {Quoting.always operand}"
      let kind := if node = .directory then "directory" else "regular file"
      match ← place goal (node ≠ .directory) with
      | .found target old => do
          if sameFile tree path target then
            return ← refused
              s!"{Quoting.always operand} and {Quoting.always goal} are the same file"
          if let some message := clash node old operand goal then return ← refused message
          if call.has 'n' then return true
          if call.has 'i' then
            if !(← confirm s!"overwrite {Quoting.always goal}") then return false
          if FileTree.isBelow target path then
            return ← refused
              s!"cannot copy a directory, {Quoting.always operand}, into itself, {Quoting.always goal}"
          match old, node with
          | .device _, .file index => do
              match ← open_ goal { writes := true } with
              | .ok number => do
                  let _ ← perform (ProcessM.writeBytes number (tree.content index).bytes)
                  close number
                  return true
              | .error obstacle =>
                  refused s!"cannot create regular file {Quoting.always goal}: {obstacle.message}"
          | _, _ => do
              change fun tree => tree.copy path target
              if call.has 'v' then sayCopied tree path operand goal
              return true
      | .free target => do
          if goal.endsWith "/" && node ≠ .directory then
            return ← refused
              s!"cannot create regular file {Quoting.always goal}: {Obstacle.notDirectory.message}"
          change fun tree =>
            match call.has 'l', call.has 's', node with
            | true, _, .file _ => tree.put target node
            | _, true, .file _ => tree.put target (.link operand)
            | _, _, _ => tree.copy path target
          if FileTree.isBelow target path then
            return ← refused
              s!"cannot copy a directory, {Quoting.always operand}, into itself, {Quoting.always goal}"
          if call.has 'v' then sayCopied tree path operand goal
          return true
      | .blocked => refused s!"cannot stat {Quoting.always goal}: {Obstacle.notDirectory.message}"
      | other =>
          refused s!"cannot create {kind} {Quoting.always goal}: {other.obstacle.message}"
  | other => refused s!"cannot stat {Quoting.always operand}: {other.obstacle.message}"

def cp : Utility := do
  let call ← call 1 (transferManual "abdHlLpPrRs")
  let (sources, destination) ← sourcesAndTarget call
  return statusOf (← forEach sources (copyOne call destination))

def moveOne (call : Call) (destination : Destination) (operand : String) : UtilityM Bool := do
  let refused := fun (message : String) => do
    complain message
    return false
  let goal := destination.path operand
  let from_ := Quoting.always operand
  let to_ := Quoting.always goal
  let tree ← tree
  let finish := fun (path target : String) => do
    change fun tree => (tree.remove target).move path target
    if call.has 'v' then sayLine s!"renamed {from_} -> {to_}"
    return true
  match ← place operand false with
  | .found path node => do
      match ← place goal false with
      | .found target old => do
          if sameFile tree path target then
            return ← refused s!"{from_} and {to_} are the same file"
          if call.has 'n' then return ← refused s!"not replacing {to_}"
          if FileTree.isBelow target path then
            return ← refused s!"cannot move {from_} to a subdirectory of itself, {to_}"
          if let some message := clash node old operand goal then return ← refused message
          if old = .directory && !(tree.names target).isEmpty then
            return ← refused s!"cannot overwrite {to_}: {Obstacle.notEmpty.message}"
          if call.has 'i' then
            if !(← confirm s!"overwrite {to_}") then return false
          finish path target
      | .free target =>
          if FileTree.isBelow target path then
            refused s!"cannot move {from_} to a subdirectory of itself, {to_}"
          else if goal.endsWith "/" && node ≠ .directory then
            refused s!"cannot move {from_} to {to_}: {Obstacle.notDirectory.message}"
          else finish path target
      | .blocked => refused s!"cannot stat {to_}: {Obstacle.notDirectory.message}"
      | other => refused s!"cannot move {from_} to {to_}: {other.obstacle.message}"
  | other => refused s!"cannot stat {from_}: {other.obstacle.message}"

def mv : Utility := do
  let call ← call 1 (transferManual "b")
  let (sources, destination) ← sourcesAndTarget call
  return statusOf (← forEach sources (moveOne call destination))

def linkOne (call : Call) (destination : Destination) (operand : String) : UtilityM Bool := do
  let symbolic := call.has 's'
  let refused := fun (message : String) => do
    complain message
    return false
  let goal := destination.path operand
  let kind := if symbolic then "symbolic link" else "hard link"
  let failed := fun (obstacle : Obstacle) => do
    complain s!"failed to create {kind} {Quoting.always goal}: {obstacle.message}"
    return false
  let node ←
    if symbolic then pure (Node.link operand)
    else
      match ← place operand (call.has 'L') with
      | .found _ .directory =>
          return ← refused s!"{operand}: hard link not allowed for directory"
      | .found _ node => pure node
      | other =>
          return ← refused
            s!"failed to access {Quoting.always operand}: {other.obstacle.message}"
  let finish := fun (target : String) => do
    change fun tree => tree.put target node
    let arrow := if symbolic then "->" else "=>"
    if call.has 'v' then
      sayLine s!"{Quoting.always goal} {arrow} {Quoting.always operand}"
    return true
  match ← place goal false with
  | .found _ .directory => failed .exists_
  | .found target _ => if call.has 'f' then finish target else failed .exists_
  | .free target => finish target
  | other => failed other.obstacle

def ln : Utility := do
  let call ← call 1 (transferManual "LPrs")
  let (sources, destination) ←
    match call.operands with
    | [only] => pure ([only], .exactly (baseName only))
    | _ => sourcesAndTarget call
  return statusOf (← forEach sources (linkOne call destination))

end JobScheduler.Shell.Utility
