import JobScheduler.Shell.Octets
import JobScheduler.SortedMap

namespace JobScheduler.Shell

-- What stands in a directory and holds no text of its own.
inductive Device
  | null | zero | full | terminal
  -- Leads where an open number leads.
  | number (n : Nat)
deriving DecidableEq, Repr

inductive Node
  | file (index : Nat)
  | directory
  | link (target : String)
  | device (device : Device)
  | program (name : String)
deriving DecidableEq, Repr

structure Content where
  bytes : List Char
  mode : Nat
deriving DecidableEq, Repr

-- What there is, by its full path, and what the files hold. A file can have several paths,
-- or none any more.
structure FileTree where
  nodes : SortedMap String Node
  contents : SortedMap Nat Content

-- Where a path leads: to something, to a place in a directory where nothing is yet, or
-- nowhere, because a directory is missing or something else stands in its place.
inductive Place
  | found (path : String) (node : Node)
  | free (path : String)
  | missing
  | blocked
  | circular
deriving DecidableEq, Repr

namespace FileTree

def splitParts (path : String) : List String := (splitAt '/' path.toList).map String.ofList

-- The parts of a path without blanks and dots, the last one first. Two dots take one back.
def pushPart (parts : List String) (part : String) : List String :=
  if part == "" || part == "." then parts
  else if part == ".." then parts.tail
  else part :: parts

def joinParts (parts : List String) : String :=
  if parts.isEmpty then "/" else String.join (parts.map ("/" ++ ·))

-- The full path that a path spells, seen from a directory, whatever there is.
def resolve (directory path : String) : String :=
  let start := if path.startsWith "/" then [] else splitParts directory
  joinParts ((start ++ splitParts path).foldl pushPart []).reverse

def lastPart (path : String) : String := (splitParts path).getLast?.getD ""

def parent (path : String) : String := resolve path ".."

def child (directory name : String) : String :=
  if directory == "/" then "/" ++ name else directory ++ "/" ++ name

def find? (tree : FileTree) (path : String) : Option Node := tree.nodes.find? path

-- Follows the parts of a path one after the other. A link at the end is followed on demand.
def walk (tree : FileTree) (follow : Bool) : Nat → String → List String → Place
  | 0, _, _ => .circular
  | _, current, [] => .found current .directory
  | fuel + 1, current, part :: rest =>
      if part == "" || part == "." then walk tree follow fuel current rest
      else if part == ".." then walk tree follow fuel (parent current) rest
      else
        let path := child current part
        match tree.find? path with
        | none => if rest.all (· == "") then .free path else .missing
        | some .directory => walk tree follow fuel path rest
        | some (.link target) =>
            if rest.isEmpty && !follow then .found path (.link target)
            else
              walk tree follow fuel (if target.startsWith "/" then "/" else current)
                (splitParts target ++ rest)
        | some node => if rest.isEmpty then .found path node else .blocked

-- More steps than any path takes that leads somewhere.
def longestWalk : Nat := 5000

def locate (tree : FileTree) (directory path : String) (follow : Bool) : Place :=
  if path == "" then .missing
  else if path.startsWith "/" then tree.walk follow longestWalk "/" (splitParts path)
  else if tree.find? directory = some .directory then
    tree.walk follow longestWalk directory (splitParts path)
  else .missing

-- What a path leads to in the end.
def nodeAt? (tree : FileTree) (directory path : String) : Option Node :=
  match tree.locate directory path true with
  | .found _ node => some node
  | _ => none

def isDirectory (tree : FileTree) (directory path : String) : Bool :=
  tree.nodeAt? directory path = some .directory

def exists? (tree : FileTree) (directory path : String) : Bool :=
  (tree.nodeAt? directory path).isSome

def content (tree : FileTree) (index : Nat) : Content := (tree.contents.find? index).getD ⟨[], 0⟩

def bytesAt? (tree : FileTree) (directory path : String) : Option (List Char) :=
  match tree.nodeAt? directory path with
  | some (.file index) => some (tree.content index).bytes
  | some (.device .null) => some []
  | _ => none

def isExecutable (tree : FileTree) : Node → Bool
  | .file index =>
      let mode := (tree.content index).mode
      mode % 2 = 1 || mode / 8 % 2 = 1 || mode / 64 % 2 = 1
  | .directory | .program _ => true
  | _ => false

def setContent (tree : FileTree) (index : Nat) (content : Content) : FileTree :=
  { tree with contents := tree.contents.insert index content }

def setBytes (tree : FileTree) (index : Nat) (bytes : List Char) : FileTree :=
  { tree with contents := tree.contents.modify index fun content => { content with bytes } }

def put (tree : FileTree) (path : String) (node : Node) : FileTree :=
  { tree with nodes := tree.nodes.insert path node }

def newIndex (tree : FileTree) : Nat :=
  match tree.contents.entries.getLast? with
  | some (index, _) => index + 1
  | none => 0

-- Makes a file at a full path and tells its number.
def create (tree : FileTree) (path : String) (content : Content) : FileTree × Nat :=
  let index := tree.newIndex
  ((tree.put path (.file index)).setContent index content, index)

def isBelow (path directory : String) : Bool :=
  if directory == "/" then path != "/" else path.startsWith (directory ++ "/")

-- Takes a full path away, with all that is below it.
def remove (tree : FileTree) (path : String) : FileTree :=
  { tree with
    nodes := SortedMap.ofList (tree.nodes.entries.filter fun entry =>
      entry.1 != path && !isBelow entry.1 path) }

-- The names in a directory, in order.
def names (tree : FileTree) (directory : String) : List String :=
  (tree.nodes.entries.filter fun entry =>
    isBelow entry.1 directory && parent entry.1 == directory).map fun entry => lastPart entry.1

-- The names in the directory that a path leads to, if it leads to one.
def listing (tree : FileTree) (directory path : String) : List String :=
  match tree.locate directory path true with
  | .found path .directory => tree.names path
  | _ => []

-- The full path and the paths below it, each with what follows it in them.
def below (tree : FileTree) (path : String) : List (String × Node) :=
  (tree.nodes.entries.filter fun entry => entry.1 == path || isBelow entry.1 path).map
    fun entry => (String.ofList (entry.1.toList.drop path.length), entry.2)

def move (tree : FileTree) (source target : String) : FileTree :=
  let moved := tree.below source
  moved.foldl (fun tree entry => tree.put (target ++ entry.1) entry.2) (tree.remove source)

-- Copies what is at a full path, with all that is below it.
def copy (tree : FileTree) (source target : String) : FileTree :=
  (tree.below source).foldl
    (fun tree entry =>
      let path := target ++ entry.1
      match entry.2, tree.find? path with
      | .file index, some (.file old) => tree.setBytes old (tree.content index).bytes
      | .file index, _ => (tree.create path (tree.content index)).1
      | node, _ => tree.put path node)
    tree

-- The directories on the way to a full path and the path itself, the shortest first.
def ancestry (path : String) : List String :=
  let parts := (splitParts path).filter (· != "")
  (List.range (parts.length + 1)).map fun n => joinParts (parts.take n)

def makeAll (tree : FileTree) (path : String) : FileTree :=
  (ancestry path).foldl
    (fun tree part => if (tree.find? part).isSome then tree else tree.put part .directory) tree

def workplace : String := "/work"

def devices : List (String × Device) := [
  ("/dev/null", .null), ("/dev/zero", .zero), ("/dev/full", .full), ("/dev/tty", .terminal),
  ("/dev/stdin", .number 0), ("/dev/stdout", .number 1), ("/dev/stderr", .number 2),
  ("/dev/fd/0", .number 0), ("/dev/fd/1", .number 1), ("/dev/fd/2", .number 2)]

-- What there is when commands start, given the names of the programs.
def base (programs : List String) : FileTree :=
  let empty : FileTree := ⟨SortedMap.empty, SortedMap.empty⟩
  let tree := ["/usr/bin", "/usr/sbin", "/usr/local/bin", "/usr/local/sbin", "/dev/fd", "/etc",
    "/home", "/opt", "/proc", "/root", "/tmp", "/var/tmp", workplace].foldl makeAll empty
  let tree := (tree.put "/bin" (.link "usr/bin")).put "/sbin" (.link "usr/sbin")
  let tree := devices.foldl (fun tree device => tree.put device.1 (.device device.2)) tree
  programs.foldl (fun tree name => tree.put ("/usr/bin/" ++ name) (.program name)) tree

-- Adds files to the directory where commands start.
def withFiles (tree : FileTree) (files : List (String × List Char)) : FileTree :=
  files.foldl
    (fun tree file =>
      let path := resolve workplace file.1
      ((tree.makeAll (parent path)).create path ⟨file.2, 420⟩).1)
    tree

end FileTree

end JobScheduler.Shell
