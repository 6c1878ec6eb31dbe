import JobScheduler.Shell.Cursor
import JobScheduler.Shell.Field
import JobScheduler.Shell.Session

namespace JobScheduler.Shell.ShellM

-- The text that the last newlines are cut off.
def withoutEnd (bytes : List Char) : List Char := (bytes.reverse.dropWhile (· = '\n')).reverse

def separators : ShellM (List Char) := return ((← valueOf "IFS").getD " \t\n").toList

-- The arguments of the shell, each a field of its own.
def argumentPieces (quoted : Bool) : ShellM (List Piece) := do
  let arguments := (← get).arguments.map fun argument => Piece.ofValue argument quoted
  return (arguments.intersperse [.gap]).flatten

def joinedArguments : ShellM String := do
  let between := (← separators).take 1
  return (String.ofList between).intercalate (← get).arguments

def variablePieces (name : String) (quoted : Bool) : ShellM (List Piece) := do
  if name == "@" || (name == "*" && !quoted) then argumentPieces quoted
  else if name == "*" then return Piece.ofValue (← joinedArguments) true
  else
    match ← parameter name with
    | some value => return Piece.ofValue value quoted
    | none => do
        if ← isOn 'u' then refuse s!"{name}: parameter not set"
        return Piece.ofValue "" quoted

-- The value of a parameter. One without a value counts as empty unless that is refused.
def requireSet (name : String) : ShellM String := do
  match ← parameter name with
  | some value => return value
  | none =>
      if (← isOn 'u') && name != "@" && name != "*" then refuse s!"{name}: parameter not set"
      return ""

-- The home of somebody, if it is known.
def homeOf (user : String) : ShellM (Option String) := do
  if user == "" then valueOf "HOME"
  else if user == "root" then return some "/root"
  else return none

def homePart (home : String) : Word := if home == "" then [] else [.literal home.toList]

-- Replaces the tilde that a word begins with, and the name behind it, by a home. In a value
-- for a variable the same is done after each colon.
def tildes (assigning : Bool) : Bool → Word → ShellM Word
  | _, [] => return []
  | true, .plain '~' :: rest => do
      let isEnd := fun (part : Part) =>
        match part with
        | .plain c => c == '/' || (assigning && c == ':')
        | _ => false
      let user := rest.takeWhile fun part => !isEnd part
      let home ←
        match plainText? user with
        | some user => homeOf (String.ofList user)
        | none => pure none
      let others ← tildes assigning false rest
      match home with
      | some home => return homePart home ++ others.drop user.length
      | none => return .plain '~' :: others
  | _, .plain ':' :: rest => do return .plain ':' :: (← tildes assigning assigning rest)
  | _, part :: rest => do return part :: (← tildes assigning false rest)

-- The characters of a word that stands in for a value are split like a value.
def asValue (pieces : List Piece) : List Piece := pieces.map fun piece =>
  match piece with
  | .char c false _ => .char c false true
  | piece => piece

def fitsAny (patterns : List (List Piece)) (text : List Char) : Bool :=
  patterns.any fun pieces => (Pattern.read (Piece.join pieces)).fits text

end JobScheduler.Shell.ShellM
