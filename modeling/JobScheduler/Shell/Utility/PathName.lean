import JobScheduler.Shell.Utility.Transfer

namespace JobScheduler.Shell.Utility

open UtilityM

-- Utilities that work on paths.

def withoutEnding (name ending : String) : String :=
  if name != ending && name.endsWith ending then
    String.ofList (name.toList.take (name.length - ending.length))
  else name

def basename : Utility := do
  let call ← call 1
    { letters := "as:z", strict := true
      words := [("multiple", 'a'), ("suffix", 's'), ("zero", 'z')] }
  needOperand call 1
  let many := call.has 'a' || call.has 's'
  if !many then
    if let some extra := call.operands[2]? then extraOperand 1 extra
  let ending := if many then (call.value? 's').getD "" else call.operands.getD 1 ""
  let names := if many then call.operands else call.operands.take 1
  let stop := if call.has 'z' then "\x00" else "\n"
  say (String.join (names.map fun name => withoutEnding (baseName name) ending ++ stop)).toList
  return 0

def parentName (path : String) : String :=
  let trimmed := path.toList.reverse.dropWhile (· = '/')
  match (trimmed.dropWhile (· ≠ '/')).dropWhile (· = '/') with
  | [] => if path.startsWith "/" then "/" else "."
  | rest => String.ofList rest.reverse

def dirname : Utility := do
  let call ← call 1 { letters := "z", strict := true, words := [("zero", 'z')] }
  needOperand call 1
  let stop := if call.has 'z' then "\x00" else "\n"
  say (String.join (call.operands.map fun path => parentName path ++ stop)).toList
  return 0

-- The full path that an operand leads to. The last part, or all of them, need not be there.
def fullPath (operand : String) (needsAll needsNone : Bool) :
    UtilityM (Except Obstacle String) := do
  match ← place operand true with
  | .found path _ => return .ok path
  | .free path => return if needsAll then .error .missing else .ok path
  | other =>
      if needsNone then return .ok (FileTree.resolve (← directory) operand)
      else return .error other.obstacle

def readlink : Utility := do
  let call ← call 1
    { letters := "efmnqsvz"
      words := [("canonicalize", 'f'), ("canonicalize-existing", 'e'),
        ("canonicalize-missing", 'm'), ("no-newline", 'n'), ("verbose", 'v'), ("zero", 'z')] }
  needOperand call 1
  let stop := if call.has 'z' then "\x00" else "\n"
  let stop := if call.has 'n' && call.operands.length = 1 then "" else stop
  let good ← forEach call.operands fun operand => do
    let result ←
      if call.has 'e' || call.has 'f' || call.has 'm' then
        fullPath operand (call.has 'e') (call.has 'm')
      else
        match ← place operand false with
        | .found _ (.link target) => pure (.ok target)
        | .found _ _ => pure (.error .invalid)
        | other => pure (.error other.obstacle)
    match result with
    | .ok path => do
        say (path ++ stop).toList
        return true
    | .error obstacle => do
        if call.has 'v' then complain s!"{Quoting.ifNeeded operand}: {obstacle.message}"
        return false
  return statusOf good

-- A path as it is seen from a directory.
def relativePath (base path : String) : String :=
  let parts := fun (path : String) => (FileTree.splitParts path).filter (· != "")
  let rec common : List String → List String → Nat
    | a :: as, b :: bs => if a == b then common as bs + 1 else 0
    | _, _ => 0
  let shared := common (parts base) (parts path)
  let up := List.replicate ((parts base).length - shared) ".."
  let down := up ++ (parts path).drop shared
  if down.isEmpty then "." else "/".intercalate down

def realpath : Utility := do
  let call ← call 1
    { letters := "eLmPqszR:B:"
      words := [("canonicalize-existing", 'e'), ("canonicalize-missing", 'm'), ("quiet", 'q'),
        ("strip", 's'), ("no-symlinks", 's'), ("zero", 'z'), ("relative-to", 'R'),
        ("relative-base", 'B')] }
  needOperand call 1
  let stop := if call.has 'z' then "\x00" else "\n"
  let base := (call.value? 'R').map (FileTree.resolve (← directory) ·)
  let good ← forEach call.operands fun operand => do
    let result ←
      if call.has 's' then pure (.ok (FileTree.resolve (← directory) operand))
      else fullPath operand (call.has 'e') (call.has 'm')
    match result with
    | .ok path => do
        let shown :=
          match base with
          | some base => relativePath base path
          | none => path
        say (shown ++ stop).toList
        return true
    | .error obstacle => do
        if !call.has 'q' then complain s!"{Quoting.ifNeeded operand}: {obstacle.message}"
        return false
  return statusOf good

def pwd : Utility := do
  let call ← call 1 { letters := "LP", words := [("logical", 'L'), ("physical", 'P')] }
  if !call.operands.isEmpty then complain "ignoring non-option arguments"
  let directory ← directory
  let named ← environment "PWD"
  let logical := call.last? ['L', 'P'] == some 'L'
  match logical, named with
  | true, some path => do
      let fits := (← place path true) == .found directory .directory
      sayLine (if fits && path.startsWith "/" then path else directory)
  | _, _ => sayLine directory
  return 0

end JobScheduler.Shell.Utility
