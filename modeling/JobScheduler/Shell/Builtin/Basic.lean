import JobScheduler.Shell.Condition
import JobScheduler.Shell.Format
import JobScheduler.Shell.Job
import JobScheduler.Shell.Session

namespace JobScheduler.Shell

-- Commands that a shell runs by itself and that run no other commands.
abbrev Builtin := List String → ShellM Unit

namespace Builtin

open ShellM

-- The letters of an argument with options, up to one that takes a value.
def optionValues (known : List (Char × Bool)) :
    List Char → List String → ShellM (List (Char × String) × List String)
  | [], arguments => return ([], arguments)
  | c :: rest, arguments => do
      match known.lookup c, rest, arguments with
      | none, _, _ => refuse s!"Illegal option -{c}"
      | some false, rest, arguments => do
          let (more, arguments) ← optionValues known rest arguments
          return ((c, "") :: more, arguments)
      | some true, [], [] => refuse s!"No arg for -{c} option"
      | some true, [], value :: arguments => return ([(c, value)], arguments)
      | some true, rest, arguments => return ([(c, String.ofList rest)], arguments)

-- The options at the beginning of the arguments, each with its value if it takes one, and
-- the arguments behind them.
def options (known : List (Char × Bool)) :
    Nat → List String → ShellM (List (Char × String) × List String)
  | 0, arguments => return ([], arguments)
  | fuel + 1, arguments => do
      match arguments with
      | [] => return ([], [])
      | first :: rest =>
          match first.toList with
          | ['-', '-'] => return ([], rest)
          | '-' :: c :: letters => do
              let (found, rest) ← optionValues known (c :: letters) rest
              let (more, rest) ← options known fuel rest
              return (found ++ more, rest)
          | _ => return ([], arguments)

def flags (letters : List Char) (arguments : List String) : ShellM (List Char × List String) := do
  let (found, rest) ← options (letters.map (·, false)) arguments.length arguments
  return (found.map (·.1), rest)

-- The arguments of a builtin that takes no options.
def operands (arguments : List String) : ShellM (List String) := return (← flags [] arguments).2

def numberOf (text : String) : ShellM Nat := do
  match natural? text with
  | some number => return number
  | none => refuse s!"Illegal number: {text}"

-- Writes the output of a builtin. A number that is not open makes it fail.
def say (text : List Char) : ShellM Unit := do
  setStatus 0
  if let some _ ← write 1 text then
    complain "I/O error"
    setStatus 1

def sayLines (lines : List String) : ShellM Unit :=
  say (unlines (lines.map String.toList))

-- Writes a message that does not tell where the shell is.
def whisper (text : String) : ShellM Unit := do
  let _ ← write 2 (text ++ "\n").toList

-- A text in quotes, so that a shell reads it as it is.
def quote (text : String) : String :=
  let parts := text.toList.splitBy fun a b => (a == '\x27') == (b == '\x27')
  let quotePart := fun (part : List Char) =>
    if part.head? = some '\x27' then ['"'] ++ part ++ ['"'] else ['\x27'] ++ part ++ ['\x27']
  if text.isEmpty then "\x27\x27"
  else if text.toList.head? = some '\x27' then
    String.ofList (['\x27', '\x27'] ++ parts.flatMap quotePart)
  else String.ofList (parts.flatMap quotePart)

def echo : Builtin := fun arguments => say (Format.echo arguments)

def printf : Builtin := fun arguments => do
  match ← operands arguments with
  | [] => refuse "usage: printf format [arg ...]"
  | format :: rest => do
      let printed := Format.print .builtin format rest
      say printed.text
      printed.complaints.forM fun complaint => do
        complain complaint.message
        setStatus (match complaint with
          | .invalidDirective _ | .missingCharacter => 2
          | _ => 1)

def condition (words : List String) : ShellM Unit := do
  match Condition.holds ⟨← tree, ← directory⟩ false words with
  | .ok result => setStatus (if result then 0 else 1)
  | .error fault => refuse fault.message

def bracket : Builtin := fun arguments => do
  if arguments.getLast? = some "]" then condition arguments.dropLast
  else refuse "missing ]"

def succeed : Builtin := fun _ => setStatus 0

def fail : Builtin := fun _ => setStatus 1

-- The directory that the machine knows.
def physical : ShellM String := directory

def pwd : Builtin := fun arguments => do
  let (flags, _) ← flags ['L', 'P'] arguments
  let shown ← if flags.getLast? = some 'P' then physical else pure (← get).place
  sayLines [shown]

-- Goes to a directory, if it is one, and tells whether it is.
def enter (logical : Bool) (path : String) : ShellM Bool := do
  let before := (← get).place
  let spelt := FileTree.resolve before path
  let target := if logical then spelt else path
  let isThere := (← tree).isDirectory (← directory) path
  match isThere, ← perform (ProcessM.locate target true) with
  | true, .found found .directory => do
      perform (ProcessM.modifySelf fun process => { process with directory := found })
      let place := if logical then spelt else found
      modify fun session => { session with place }
      assign "OLDPWD" before true
      assign "PWD" place true
      return true
  | _, _ => return false

-- Where a path that begins with a name is looked for, and whether it is shown if found there.
def searchPlaces (list : Option String) (path : String) : List (String × Bool) :=
  let absolute := path.startsWith "/" || path == "." || path == ".." ||
    path.startsWith "./" || path.startsWith "../"
  match (if absolute then none else list) with
  | none => [(path, false)]
  | some list =>
      ((splitAt ':' list.toList).map fun entry =>
        if entry.isEmpty then (path, false)
        else (String.ofList entry ++ "/" ++ path, true)) ++ [(path, false)]

def cd : Builtin := fun arguments => do
  let (flags, operands) ← flags ['L', 'P'] arguments
  let logical := flags.getLast? ≠ some 'P'
  let wanted ←
    match operands.head? with
    | none => pure ((← valueOf "HOME").getD "")
    | some "-" => pure ((← valueOf "OLDPWD").getD "")
    | some operand => pure operand
  let wanted := if wanted == "" then "." else wanted
  let places := searchPlaces (← valueOf "CDPATH") wanted
  let view ← tree
  let at_ ← directory
  let (path, shown) :=
    (places.find? fun place => view.isDirectory at_ place.1).getD (wanted, false)
  if ← enter logical path then
    if shown || operands.head? = some "-" then sayLines [(← get).place] else setStatus 0
  else refuse s!"can't cd to {wanted}"

end Builtin

end JobScheduler.Shell
