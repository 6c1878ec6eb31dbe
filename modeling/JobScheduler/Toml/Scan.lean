namespace JobScheduler.Toml

-- A reading of a front part of a text. It fails where the text has another form.
abbrev Scan := StateT (List Char) Option

namespace Scan

def peek? : Scan (Option Char) := return (← get).head?

def expect (c : Char) : Scan Unit := do
  match ← get with
  | first :: rest => if first = c then set rest else failure
  | [] => failure

-- Reads `c` if it is next and tells whether it was.
def accept (c : Char) : Scan Bool := do
  match ← get with
  | first :: rest =>
      if first = c then
        set rest
        return true
      else
        return false
  | [] => return false

def takeWhile (wanted : Char → Bool) : Scan (List Char) := do
  let text ← get
  set (text.dropWhile wanted)
  return text.takeWhile wanted

def isSpace (c : Char) : Bool := c = ' ' || c = '\t'

def spaces : Scan Unit := do
  let _ ← takeWhile isSpace

-- Controls other than the tab stand nowhere.
def isPlain (c : Char) : Bool := (0x20 ≤ c.toNat && c.toNat ≠ 0x7F) || c = '\t'

def newline? : Scan Bool := do
  match ← get with
  | '\n' :: rest | '\r' :: '\n' :: rest =>
      set rest
      return true
  | _ => return false

def comment? : Scan Bool := do
  if ← accept '#' then
    let _ ← takeWhile isPlain
    return true
  else
    return false

-- The rest of a line after its last value.
def lineEnd : Scan Unit := do
  spaces
  let _ ← comment?
  match ← get with
  | [] => return ()
  | _ => if ← newline? then return () else failure

-- Blanks, comments and line ends, as they may stand between the values of a list.
def gap : Nat → Scan Unit
  | 0 => return ()
  | fuel + 1 => do
      spaces
      let commented ← comment?
      if ← newline? then gap fuel
      else if commented then failure
      else return ()

-- Every round of a gap but the last reads a line end.
def gaps : Scan Unit := do gap ((← get).length + 1)

end Scan

end JobScheduler.Toml
