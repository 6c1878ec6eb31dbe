import JobScheduler.Shell.Utility.SortKey

namespace JobScheduler.Shell.Utility

open UtilityM

-- The utility that lists what is in directories.

structure Listing where
  hidden : Bool
  dots : Bool
  directories : Bool
  reversed : Bool
  bySize : Bool
  byVersion : Bool
  recursive : Bool
  -- The ending that tells the kind of an entry.
  marks : Option Char
  long : Bool
  commas : Bool

namespace Listing

def ofCall (call : Call) : Listing :=
  { hidden := call.has 'a' || call.has 'A'
    dots := call.last? ['a', 'A'] = some 'a'
    directories := call.has 'd', reversed := call.has 'r', bySize := call.has 'S'
    byVersion := call.has 'v', recursive := call.has 'R' && !call.has 'd'
    marks := call.last? ['F', 'p'], long := call.last? ['l', '1', 'm'] = some 'l'
    commas := call.last? ['l', '1', 'm'] = some 'm' }

-- An entry by the name that is shown, with what it is.
structure Entry where
  name : String
  node : Node

def sizeOf (tree : FileTree) : Node → Nat
  | .file index => (tree.content index).bytes.length
  | .directory => 4096
  | .link target => target.length
  | _ => 0

def mark (listing : Listing) (tree : FileTree) (node : Node) : String :=
  match listing.marks, node with
  | none, _ => ""
  | some _, .directory => "/"
  | some 'F', .link _ => if listing.long then "" else "@"
  | some 'F', node => if tree.isExecutable node then "*" else ""
  | _, _ => ""

def permissions (tree : FileTree) (node : Node) : String :=
  let (kind, mode) :=
    match node with
    | .directory => ('d', 493)
    | .link _ => ('l', 511)
    | .device _ => ('c', 438)
    | .program _ => ('-', 493)
    | .file index => ('-', (tree.content index).mode)
  let letters := ['r', 'w', 'x', 'r', 'w', 'x', 'r', 'w', 'x'].zipIdx.map fun letter =>
    if mode.testBit (8 - letter.2) then letter.1 else '-'
  String.ofList (kind :: letters)

-- A line that tells all about an entry. Nothing is known about when it changed.
def longLine (listing : Listing) (tree : FileTree) (width : Nat) (entry : Entry) : String :=
  let size := String.ofList (padLeft width (Nat.toDigits 10 (sizeOf tree entry.node)))
  let target :=
    match entry.node with
    | .link target => " -> " ++ target
    | _ => ""
  let links := if entry.node = .directory then 2 else 1
  s!"{permissions tree entry.node} {links} root root {size} Jan  1 00:00 {entry.name}" ++
    listing.mark tree entry.node ++ target

def inOrder (listing : Listing) (tree : FileTree) (entries : List Entry) : List Entry :=
  let byName := entries.mergeSort fun a b => (bytesOrder a.name.toList b.name.toList).isLE
  let sorted :=
    if listing.bySize then byName.mergeSort fun a b => sizeOf tree b.node ≤ sizeOf tree a.node
    else if listing.byVersion then
      byName.mergeSort fun a b => (Version.order a.name.toList b.name.toList).isLE
    else byName
  if listing.reversed then sorted.reverse else sorted

-- Names with commas between them, as many in a line as there is room for.
def commaLines : Nat → List String → List Char
  | _, [] => ['\n']
  | _, [last] => (last ++ "\n").toList
  | column, name :: next :: rest =>
      let after := column + name.length + 2
      let fits := after + next.length + (if rest.isEmpty then 0 else 2) ≤ 80
      (name ++ (if fits then ", " else ",\n")).toList ++
        commaLines (if fits then after else 0) (next :: rest)

def show_ (listing : Listing) (tree : FileTree) (entries : List Entry) : List Char :=
  if listing.long then
    let sizes := entries.map fun entry => (Nat.toDigits 10 (sizeOf tree entry.node)).length
    let width := sizes.foldl max 1
    unlines (entries.map fun entry => (listing.longLine tree width entry).toList)
  else
    let names := entries.map fun entry => entry.name ++ listing.mark tree entry.node
    if listing.commas then (if names.isEmpty then [] else commaLines 0 names)
    else unlines (names.map String.toList)

def entriesOf (listing : Listing) (tree : FileTree) (path : String) : List Entry :=
  let names := tree.names path
  let names := if listing.hidden then names else names.filter fun name => !name.startsWith "."
  let entries := names.map fun name =>
    ⟨name, (tree.find? (FileTree.child path name)).getD .directory⟩
  let dots := if listing.dots then [⟨".", .directory⟩, ⟨"..", .directory⟩] else []
  listing.inOrder tree (dots ++ entries)

def total (tree : FileTree) (entries : List Entry) : Nat :=
  (entries.map fun entry =>
    match entry.node with
    | .directory => 4
    | .file index => ((tree.content index).bytes.length + 4095) / 4096 * 4
    | _ => 0).foldl (· + ·) 0

-- The directories to list: those that are given and, if need be, those below them.
def directoriesOf (listing : Listing) (tree : FileTree) (path : String) (shown : String) :
    Nat → List (String × String)
  | 0 => []
  | fuel + 1 =>
      let below := (listing.entriesOf tree path).filter fun entry =>
        entry.node = .directory && entry.name != "." && entry.name != ".."
      (path, shown) ::
        if listing.recursive then
          below.flatMap fun entry =>
            directoriesOf listing tree (FileTree.child path entry.name)
              (FileTree.child shown entry.name) fuel
        else []

end Listing

def ls : Utility := do
  let call ← call 2
    { letters := "1aACcdfFghHiklLmnNopqrRsStuUvwxX"
      words := [("all", 'a'), ("almost-all", 'A'), ("directory", 'd'), ("reverse", 'r'),
        ("recursive", 'R'), ("classify", 'F'), ("human-readable", 'h')] }
  let listing := Listing.ofCall call
  let tree ← tree
  let directory ← directory
  let operands := if call.operands.isEmpty then ["."] else call.operands
  let found ← operands.mapM fun operand => do
    let follow := !(listing.long || listing.directories || listing.marks = some 'F')
    let place :=
      match tree.locate directory operand follow with
      | .free _ => tree.locate directory operand false
      | place => place
    match place with
    | .found path node => return some (path, (⟨operand, node⟩ : Listing.Entry))
    | other => do
        complain s!"cannot access {Quoting.always operand}: {other.obstacle.message}"
        return none
  let found := found.filterMap id
  let isListed := fun (entry : Listing.Entry) =>
    entry.node = .directory && !listing.directories
  let files := (found.map (·.2)).filter fun entry => !isListed entry
  let given := listing.inOrder tree ((found.map (·.2)).filter isListed)
  let directories := given.flatMap fun entry =>
    match tree.locate directory entry.name true with
    | .found path _ => listing.directoriesOf tree path entry.name 100
    | _ => []
  let titled := 1 < operands.length || listing.recursive
  let blocks := directories.map fun (path, shown) =>
    let entries := listing.entriesOf tree path
    let title := if titled then (shown ++ ":\n").toList else []
    let total := if listing.long then s!"total {Listing.total tree entries}\n".toList else []
    title ++ total ++ listing.show_ tree entries
  let blocks :=
    if files.isEmpty then blocks else listing.show_ tree (listing.inOrder tree files) :: blocks
  say (blocks.intersperse ['\n']).flatten
  return if found.length = operands.length then 0 else 2

end JobScheduler.Shell.Utility
