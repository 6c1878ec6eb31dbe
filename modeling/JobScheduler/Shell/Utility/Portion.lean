import JobScheduler.Shell.Utility.Call

namespace JobScheduler.Shell.Utility

open UtilityM

-- Utilities that write the beginning or the end of what they read.

-- How much there is to write: so many bytes or lines, or all but so many, counted from the
-- beginning or from the end.
structure Portion where
  ofBytes : Bool
  inverted : Bool
  count : Nat

-- Cuts a text behind so many lines.
def firstLines (ending : Char) (count : Nat) (done bytes : List Char) : List Char × List Char :=
  match count, bytes with
  | 0, rest => (done.reverse, rest)
  | _, [] => (done.reverse, [])
  | count + 1, c :: rest =>
      firstLines ending (if c = ending then count else count + 1) (c :: done) rest
termination_by structural bytes

-- The number of lines, of which the last one may have no end.
def lineCount (ending : Char) (bytes : List Char) : Nat :=
  bytes.count ending + if bytes.getLast?.all (· = ending) then 0 else 1

namespace Portion

-- What to write of all that there is, from the beginning on.
def first (portion : Portion) (ending : Char) (bytes : List Char) : List Char :=
  if portion.ofBytes then
    bytes.take (if portion.inverted then bytes.length - portion.count else portion.count)
  else
    let count :=
      if portion.inverted then lineCount ending bytes - portion.count else portion.count
    (firstLines ending count [] bytes).1

-- What to write of all that there is, up to the end.
def last (portion : Portion) (ending : Char) (bytes : List Char) : List Char :=
  if portion.ofBytes then
    bytes.drop (if portion.inverted then portion.count - 1 else bytes.length - portion.count)
  else
    let count :=
      if portion.inverted then portion.count - 1 else lineCount ending bytes - portion.count
    (firstLines ending count [] bytes).2

end Portion

-- A count that comes with the letter of its option. A sign inverts it.
def portion (sign : Char) (letter : Char) (text : String) : UtilityM Portion := do
  let inverted := text.toList.head? = some sign
  let plain := text.toList.head?.any fun c => c = sign || c = '-'
  let digits := if plain then String.ofList (text.toList.drop 1) else text
  let units := if letter = 'c' then "bytes" else "lines"
  let shown := Quoting.curly (if sign = '-' || plain && !inverted then digits else text)
  match Amount.read digits with
  | .exactly count => return ⟨letter = 'c', inverted, count⟩
  | .tooLarge =>
      fail 1 s!"invalid number of {units}: {shown}: Value too large for defined data type"
  | .wrong => fail 1 s!"invalid number of {units}: {shown}"

-- The short form of a first argument: a number, and letters behind it.
def shortForm? (argument : String) : Option (String × List Char) :=
  match argument.toList with
  | '-' :: c :: rest =>
      if c.isDigit then
        let digits := c :: rest.takeWhile Char.isDigit
        some (String.ofList digits, rest.dropWhile Char.isDigit)
      else none
  | _ => none

def portionManual (more : String) : Manual :=
  { letters := "c:n:qvz" ++ more
    words := [("bytes", 'c'), ("lines", 'n'), ("quiet", 'q'), ("silent", 'q'), ("verbose", 'v'),
      ("zero-terminated", 'z')] }

def portionCall (more : String) (arguments : List String) : UtilityM Call :=
  ReaderT.adapt (fun request => { request with arguments }) (call 1 (portionManual more))

def lineEnding (call : Call) : Char := if call.has 'z' then '\x00' else '\n'

-- The last count among the options.
def lastPortion (sign : Char) (options : List (Char × String)) : UtilityM Portion := do
  let counts := options.filter fun option => option.1 == 'c' || option.1 == 'n'
  let portions ← counts.mapM fun (letter, text) => portion sign letter text
  return portions.getLast?.getD ⟨false, false, 10⟩

-- Works on each operand under a title if there are several of them.
def underTitles (call : Call) (work : String → Nat → UtilityM (Except Obstacle Unit)) :
    UtilityM Nat := do
  let operands := orInput call.operands
  let titled := (call.last? ['q', 'v']).getD (if 1 < operands.length then 'v' else 'q') == 'v'
  let (good, _) ← operands.foldlM
    (fun (state : Bool × Bool) operand => do
      match ← openInput operand with
      | .error obstacle => do
          complain s!"cannot open {Quoting.always operand} for reading: {obstacle.message}"
          return (false, state.2)
      | .ok number => do
          let title := if operand == "-" then "standard input" else operand
          if titled then
            sayLine ((if state.2 then "\n" else "") ++ s!"==> {title} <==")
          let result ← work operand number
          close number
          match result with
          | .ok _ => return (state.1, true)
          | .error obstacle => do
              complain s!"error reading {Quoting.always operand}: {obstacle.message}"
              return (false, true))
    (true, false)
  return statusOf good

-- Writes the first lines and leaves what follows them to be read by others, where that can
-- be done.
def sayFirstLines (ending : Char) (number count : Nat) : UtilityM (Except Obstacle Unit) := do
  let isFile :=
    match (← target? number).map (·.target) with
    | some (.file _) => true
    | _ => false
  if count = 0 then return .ok ⟨⟩
  let result ← eachPortion number 8192
    (fun count bytes => do
      let (shown, rest) := firstLines ending count [] bytes
      say shown
      let left := count - shown.count ending
      if left = 0 && isFile then perform (ProcessM.giveBack number rest)
      return (left ≠ 0, left))
    ProcessM.patience count
  return result.map fun _ => ⟨⟩

def sayFirstBytes (number count : Nat) : UtilityM (Except Obstacle Unit) := do
  let rec copy : Nat → Nat → UtilityM (Except Obstacle Unit)
    | 0, _ => return .ok ⟨⟩
    | fuel + 1, left => do
        if left = 0 then return .ok ⟨⟩
        match ← perform (ProcessM.readBytes number (min left 8192)) with
        | .error obstacle => return .error obstacle
        | .ok [] => return .ok ⟨⟩
        | .ok bytes => do
            say bytes
            copy fuel (left - bytes.length)
  copy ProcessM.patience count

def head : Utility := do
  let arguments := (← read).arguments
  let (given, arguments) ←
    match arguments with
    | first :: rest =>
        match shortForm? first with
        | some (digits, letters) => do
            let valid := ['c', 'l', 'q', 'v', 'z', 'b', 'k', 'm']
            if let some letter := letters.find? fun letter => !valid.contains letter then
              refuse 1 s!"invalid trailing option -- {letter}"
            let unit := (letters.find? fun letter => ['b', 'k', 'm'].contains letter).toList
            let ofBytes := letters.contains 'c' || !unit.isEmpty
            let option := (if ofBytes then 'c' else 'n', digits ++ String.ofList unit)
            pure ([option], rest)
        | none => pure ([], first :: rest)
    | [] => pure ([], [])
  let call ← portionCall "" arguments
  let portion ← lastPortion '-' (given ++ call.options)
  underTitles call fun _ number => do
    if portion.inverted then
      match ← readAll number with
      | .error obstacle => return .error obstacle
      | .ok bytes => do
          say (portion.first (lineEnding call) bytes)
          return .ok ⟨⟩
    else if portion.ofBytes then sayFirstBytes number portion.count
    else sayFirstLines (lineEnding call) number portion.count

-- The short forms that `tail` knows, which may begin with a plus sign.
def tailForm? (arguments : List String) : Option ((Char × String) × List String) :=
  match arguments with
  | first :: rest =>
      let (sign, digits) :=
        match first.toList with
        | '+' :: digits => ("+", '-' :: digits)
        | digits => ("", digits)
      if 1 < rest.length then none
      else
        match shortForm? (String.ofList digits) with
        | some (count, []) | some (count, ['l']) => some (('n', sign ++ count), rest)
        | some (count, ['c']) => some (('c', sign ++ count), rest)
        | some (count, ['b']) => some (('c', sign ++ count ++ "b"), rest)
        | _ => none
  | [] => none

def tail : Utility := do
  let arguments := (← read).arguments
  let (given, arguments) :=
    match tailForm? arguments with
    | some (option, rest) => ([option], rest)
    | none => ([], arguments)
  let call ← portionCall "0123456789" arguments
  if let some (digit, _) := call.options.find? fun option => option.1.isDigit then
    fail 1 s!"option used in invalid context -- {digit}"
  let portion ← lastPortion '+' (given ++ call.options)
  underTitles call fun _ number => do
    match ← readAll number with
    | .error obstacle => return .error obstacle
    | .ok bytes => do
        say (portion.last (lineEnding call) bytes)
        return .ok ⟨⟩

end JobScheduler.Shell.Utility
