import JobScheduler.Shell.Utility.Call

namespace JobScheduler.Shell.Utility

open UtilityM

-- Utilities that write what they read, as it is or turned around.

-- What `cat` makes visible.
structure Visible where
  numbers : Bool
  -- Lines without characters have no numbers.
  nonblank : Bool
  ends : Bool
  tabs : Bool
  controls : Bool
  squeezes : Bool

namespace Visible

def isPlain (visible : Visible) : Bool :=
  !(visible.numbers || visible.ends || visible.tabs || visible.controls || visible.squeezes)

def caret (n : Nat) : List Char :=
  if n < 32 then ['^', Char.ofNat (n + 64)]
  else if n = 127 then ['^', '?']
  else [Char.ofNat n]

def show_ (visible : Visible) (c : Char) : List Char :=
  if c = '\t' then (if visible.tabs then ['^', 'I'] else [c])
  else if !visible.controls then [c]
  else if c.toNat < 128 then caret c.toNat
  else 'M' :: '-' :: caret (c.toNat - 128)

-- How many lines came, how many empty ones of them at last, and whether one has begun.
structure Progress where
  lines : Nat
  blanks : Nat
  inside : Bool

def numbered (lines : Nat) : List Char :=
  let digits := Nat.toDigits 10 lines
  List.replicate (6 - digits.length) ' ' ++ digits ++ ['\t']

def showAll (visible : Visible) :
    Progress → List Char → List Char → List Char × Progress
  | progress, done, [] => (done.reverse, progress)
  | progress, done, '\n' :: rest =>
      let ending := if visible.ends then ['\n', '$'] else ['\n']
      if progress.inside then
        showAll visible { progress with inside := false, blanks := 0 } (ending ++ done) rest
      else if visible.squeezes && progress.blanks ≠ 0 then showAll visible progress done rest
      else
        let blanks := progress.blanks + 1
        if visible.numbers && !visible.nonblank then
          let lines := progress.lines + 1
          showAll visible { progress with blanks, lines }
            (ending ++ (numbered lines).reverse ++ done) rest
        else showAll visible { progress with blanks } (ending ++ done) rest
  | progress, done, c :: rest =>
      let shown :=
        if visible.ends && c = '\r' && rest.head? = some '\n' then ['^', 'M']
        else visible.show_ c
      if progress.inside || !visible.numbers then
        showAll visible { progress with inside := true } (shown.reverse ++ done) rest
      else
        let lines := progress.lines + 1
        showAll visible { progress with lines, inside := true }
          (shown.reverse ++ (numbered lines).reverse ++ done) rest

end Visible

-- Whether what is written to the output could be read again from a number.
def feedsItself (number : Nat) : UtilityM Bool := do
  match ← target? number, ← target? 1 with
  | some source, some output =>
      match source.target, output.target with
      | .file file, .file other => do
          let size := ((← tree).content file).bytes.length
          return file = other && source.offset < size
      | _, _ => return false
  | _, _ => return false

def cat : Utility := do
  let call ← call 1
    { letters := "AbeEnstTuv"
      words := [("show-all", 'A'), ("number-nonblank", 'b'), ("show-ends", 'E'), ("number", 'n'),
        ("squeeze-blank", 's'), ("show-tabs", 'T'), ("show-nonprinting", 'v')] }
  let visible : Visible :=
    { numbers := call.has 'n' || call.has 'b', nonblank := call.has 'b'
      ends := call.has 'A' || call.has 'e' || call.has 'E'
      tabs := call.has 'A' || call.has 't' || call.has 'T'
      controls := call.has 'A' || call.has 'e' || call.has 't' || call.has 'v'
      squeezes := call.has 's' }
  let (good, _) ← (orInput call.operands).foldlM
    (fun (state : Bool × Visible.Progress) operand => do
      match ← openInput operand with
      | .error obstacle => do
          complain s!"{Quoting.ifNeeded operand}: {obstacle.message}"
          return (false, state.2)
      | .ok number => do
          if ← feedsItself number then
            complain s!"{Quoting.ifNeeded operand}: input file is output file"
            close number
            return (false, state.2)
          let result ← eachPortion number 131072
            (fun progress bytes => do
              let (shown, progress) :=
                if visible.isPlain then (bytes, progress) else visible.showAll progress [] bytes
              say shown
              return (true, progress))
            ProcessM.patience state.2
          close number
          match result with
          | .ok progress => return (state.1, progress)
          | .error obstacle => do
              complain s!"{Quoting.ifNeeded operand}: {obstacle.message}"
              return (false, state.2))
    (true, ⟨0, 0, false⟩)
  return statusOf good

-- The parts of a text, each with the separator that ends it.
def records (separator : Char) (bytes : List Char) : List (List Char) :=
  match (splitAt separator bytes).reverse with
  | [] => []
  | last :: complete =>
      (complete.reverse.map (· ++ [separator])) ++ if last.isEmpty then [] else [last]

-- Cuts a text behind each occurrence of a separator.
def recordsBy (separator : List Char) : Nat → List Char → List Char → List (List Char)
  | 0, part, _ | _, part, [] => if part.isEmpty then [] else [part.reverse]
  | fuel + 1, part, c :: rest =>
      if !separator.isEmpty && separator.isPrefixOf (c :: rest) then
        (part.reverse ++ separator) ::
          recordsBy separator fuel [] ((c :: rest).drop separator.length)
      else recordsBy separator fuel (c :: part) rest

def tac : Utility := do
  let call ← call 1
    { letters := "bs:", words := [("before", 'b'), ("separator", 's')] }
  let separator := ((call.value? 's').getD "\n").toList
  let good ← (orInput call.operands).foldlM
    (fun good operand => do
      let failed := fun (verb : String) (obstacle : Obstacle) => do
        complain s!"{verb}: {obstacle.message}"
        return false
      match ← openInput operand with
      | .error obstacle =>
          failed s!"failed to open {Quoting.always operand} for reading" obstacle
      | .ok number => do
          let result ← readAll number
          close number
          match result with
          | .error obstacle =>
              failed s!"{Quoting.ifNeeded operand}: read error"
                (if obstacle = .isDirectory then .invalid else obstacle)
          | .ok bytes => do
              let size := bytes.length + 1
              let parts :=
                if call.has 'b' then
                  (recordsBy separator.reverse size [] bytes.reverse).map List.reverse
                else
                  match separator with
                  | [only] => (records only bytes).reverse
                  | separator => (recordsBy separator size [] bytes).reverse
              say parts.flatten
              return good)
    true
  return statusOf good

def rev : Utility := do
  let call ← call 1 { letters := "" }
  let good ← (orInput call.operands).foldlM
    (fun good operand => do
      match ← openInput operand with
      | .error obstacle => do
          complain s!"cannot open {operand}: {obstacle.message}"
          return false
      | .ok number => do
          let _ ← eachLine number '\n'
            (fun (_ : Unit) line complete => do
              say ((characters line).reverse.flatten ++ if complete then ['\n'] else [])
              return (true, ⟨⟩))
            ⟨⟩
          close number
          return good)
    true
  return statusOf good

-- Writes a line again and again, many times at once.
def yes : Utility := do
  let arguments := (← read).arguments
  let line := if arguments.isEmpty then "y" else " ".intercalate arguments
  let block := (List.replicate (8192 / (line.length + 1) + 1) (line ++ "\n").toList).flatten
  let rec repeated : Nat → UtilityM Unit
    | 0 => return
    | left + 1 => do
        say block
        repeated left
  repeated ProcessM.patience
  return 1

def tee : Utility := do
  let call ← call 1
    { letters := "aip", words := [("append", 'a'), ("ignore-interrupts", 'i')] }
  let appends := call.has 'a'
  let (numbers, good) ← call.operands.foldlM
    (fun (found : List (String × Nat) × Bool) operand => do
      match ← open_ operand { writes := true, creates := true, truncates := !appends, appends } with
      | .ok number => return (found.1 ++ [(operand, number)], found.2)
      | .error obstacle => do
          complain s!"{Quoting.ifNeeded operand}: {obstacle.message}"
          return (found.1, false))
    ([], true)
  let result ← eachPortion 0 1024
    (fun good bytes => do
      say bytes
      let good ← numbers.foldlM
        (fun good (operand, number) => do
          match ← perform (ProcessM.writeBytes number bytes) with
          | none => return good
          | some obstacle => do
              complain s!"{Quoting.ifNeeded operand}: {obstacle.message}"
              return false)
        good
      return (true, good))
    ProcessM.patience good
  match result with
  | .ok good => return statusOf good
  | .error obstacle => fail 1 s!"read error: {obstacle.message}"

end JobScheduler.Shell.Utility
