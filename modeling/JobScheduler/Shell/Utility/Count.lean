import JobScheduler.Shell.Utility.Call

namespace JobScheduler.Shell.Utility

open UtilityM

-- Utilities that count what they read.

def isSpace (c : Char) : Bool := c == ' ' || ('\t' ≤ c && c ≤ '\r')

-- Filled up with blanks in front.
def padLeft (width : Nat) (text : List Char) : List Char :=
  List.replicate (width - text.length) ' ' ++ text

def padRight (width : Nat) (text : List Char) : List Char :=
  text ++ List.replicate (width - text.length) ' '

structure Counts where
  lines : Nat := 0
  words : Nat := 0
  characters : Nat := 0
  bytes : Nat := 0
  -- The length of the longest line.
  longest : Nat := 0

namespace Counts

-- The bytes that stand for themselves at the beginning of words, that is all that are not
-- blanks or controls.
def isShown (c : Char) : Bool := '!' ≤ c && c.toNat ≠ 127

def countWords : Bool → Nat → List Char → Nat
  | _, count, [] => count
  | inside, count, c :: rest =>
      if isSpace c then countWords false count rest
      else if isShown c && !inside then countWords true (count + 1) rest
      else countWords inside count rest

def isCharacter (bytes : List Char) : Bool :=
  (sequenceLength? (octets bytes)) = some bytes.length

-- How far the longest line goes. A tabulator goes on to the next multiple of eight.
def longestLine : Nat → Nat → List (List Char) → Nat
  | column, longest, [] => max column longest
  | column, longest, character :: rest =>
      match character with
      | ['\n'] | ['\r'] | ['\x0c'] => longestLine 0 (max column longest) rest
      | ['\t'] => longestLine (column + 8 - column % 8) longest rest
      | [c] => longestLine (if ' ' ≤ c && c ≤ '~' then column + 1 else column) longest rest
      | _ => longestLine (column + 1) longest rest

def ofBytes (bytes : List Char) : Counts :=
  let parts := Shell.characters bytes
  { lines := bytes.count '\n', words := countWords false 0 bytes
    characters := parts.countP isCharacter, bytes := bytes.length
    longest := longestLine 0 0 parts }

def add (a b : Counts) : Counts :=
  ⟨a.lines + b.lines, a.words + b.words, a.characters + b.characters, a.bytes + b.bytes,
    max a.longest b.longest⟩

-- The columns that letters ask for, in a fixed order.
def columns (letters : List Char) (counts : Counts) : List Nat :=
  [('l', counts.lines), ('w', counts.words), ('m', counts.characters), ('c', counts.bytes),
    ('L', counts.longest)].filterMap fun column =>
      if letters.contains column.1 then some column.2 else none

def line (letters : List Char) (width : Nat) (name : String) (counts : Counts) : String :=
  let shown := (counts.columns letters).map fun n =>
    String.ofList (padLeft width (Nat.toDigits 10 n))
  " ".intercalate shown ++ if name == "" then "" else " " ++ name

end Counts

-- The size of what an operand leads to, if that is a file.
def fileSize? (operand : String) : UtilityM (Option Nat) := do
  let tree ← tree
  if operand == "-" then
    match (← target? 0).map Opened.target with
    | some (.file file) => return some (tree.content file).bytes.length
    | _ => return none
  else
    match tree.nodeAt? (← directory) operand with
    | some (.file file) => return some (tree.content file).bytes.length
    | some (.program _) => return some 0
    | _ => return none

-- The width that the sizes of the operands ask for.
def countWidth (operands : List String) (columns : Nat) : UtilityM Nat := do
  if operands.length = 1 && columns = 1 then return 1
  let tree ← tree
  let directory ← directory
  let existing := operands.filter fun operand => operand == "-" || tree.exists? directory operand
  let sizes ← existing.mapM fileSize?
  let least := if sizes.contains none then 7 else 1
  let total := (sizes.map fun size => size.getD 0).foldl (· + ·) 0
  return max least (Nat.toDigits 10 total).length

def wc : Utility := do
  let call ← call 1
    { letters := "clLmw"
      words := [("bytes", 'c'), ("chars", 'm'), ("lines", 'l'), ("words", 'w'),
        ("max-line-length", 'L')] }
  let letters := if call.options.isEmpty then ['l', 'w', 'c'] else call.options.map (·.1)
  let operands := orInput call.operands
  let width ← countWidth operands (Counts.columns letters {}).length
  let (good, total) ← operands.foldlM
    (fun (state : Bool × Counts) operand => do
      let name := if call.operands.isEmpty then "" else operand
      match ← openInput operand with
      | .error obstacle => do
          complain s!"{Quoting.ifNeeded operand}: {obstacle.message}"
          return (false, state.2)
      | .ok number => do
          let result ← readAll number
          close number
          let counts := Counts.ofBytes (result.toOption.getD [])
          if let .error obstacle := result then
            complain s!"{Quoting.ifNeeded operand}: {obstacle.message}"
          sayLine (counts.line letters width name)
          return (state.1 && result.toOption.isSome, state.2.add counts))
    (true, {})
  if 1 < operands.length then sayLine (total.line letters width "total")
  return statusOf good

-- What `uniq` compares of a line: not the first fields and characters, and not what comes
-- after so many characters.
structure Comparison where
  fields : Nat
  skipped : Nat
  limit : Option Nat
  ignoresCase : Bool

namespace Comparison

def dropFields : Nat → List Char → List Char
  | 0, cs => cs
  | n + 1, cs => dropFields n ((cs.dropWhile isSpace).dropWhile fun c => !isSpace c)

def key (comparison : Comparison) (line : List Char) : List Char :=
  let rest := (dropFields comparison.fields line).drop comparison.skipped
  let kept :=
    match comparison.limit with
    | some limit => rest.take limit
    | none => rest
  if comparison.ignoresCase then kept.map Char.toLower else kept

-- Lines that are next to each other and alike, together.
def groups (comparison : Comparison) : List (List Char) → List (List (List Char))
  | [] => []
  | line :: rest =>
      match groups comparison rest with
      | (next :: more) :: others =>
          if comparison.key line = comparison.key next then (line :: next :: more) :: others
          else [line] :: (next :: more) :: others
      | others => [line] :: others

end Comparison

def linesBy (ending : Char) (bytes : List Char) : List (List Char) :=
  let parts := splitAt ending bytes
  if parts.getLast? = some [] then parts.dropLast else parts

def unlinesBy (ending : Char) (lines : List (List Char)) : List Char :=
  lines.flatMap (· ++ [ending])

-- A number that is the value of an option.
def optionNumber (call : Call) (letter : Char) (purpose : String) : UtilityM (Option Nat) := do
  match call.value? letter with
  | none => return none
  | some text =>
      match natural? text with
      | some n => return some n
      | none => fail 1 s!"{text}: invalid number of {purpose}"

def uniq : Utility := do
  let call ← call 1
    { letters := "cdDuif:s:w:z"
      words := [("count", 'c'), ("repeated", 'd'), ("unique", 'u'), ("ignore-case", 'i'),
        ("skip-fields", 'f'), ("skip-chars", 's'), ("check-chars", 'w'),
        ("zero-terminated", 'z')] }
  if let some extra := call.operands[2]? then extraOperand 1 extra
  let comparison : Comparison :=
    { fields := (← optionNumber call 'f' "fields to skip").getD 0
      skipped := (← optionNumber call 's' "bytes to skip").getD 0
      limit := ← optionNumber call 'w' "bytes to compare"
      ignoresCase := call.has 'i' }
  if call.has 'c' && call.has 'D' then
    refuse 1 "printing all duplicated lines and repeat counts is meaningless"
  let input := call.operands.headD "-"
  let name := Quoting.ifNeeded input
  let ending := if call.has 'z' then '\x00' else '\n'
  match ← openInput input with
  | .error obstacle => fail 1 s!"{name}: {obstacle.message}"
  | .ok number =>
      match ← readAll number with
      | .error obstacle => fail 1 s!"error reading {Quoting.always input}: {obstacle.message}"
      | .ok bytes => do
          let kept := (comparison.groups (linesBy ending bytes)).filter fun group =>
            !((call.has 'd' || call.has 'D') && group.length = 1) &&
              !(call.has 'u' && group.length ≠ 1)
          let shown := kept.flatMap fun group =>
            if call.has 'D' then group
            else if call.has 'c' then
              let count := padLeft 7 (Nat.toDigits 10 group.length)
              (group.take 1).map fun line => count ++ ' ' :: line
            else group.take 1
          let text := unlinesBy ending shown
          match call.operands[1]? with
          | none | some "-" => say text
          | some output =>
              match ← open_ output { writes := true, creates := true, truncates := true } with
              | .error obstacle => fail 1 s!"{Quoting.ifNeeded output}: {obstacle.message}"
              | .ok number => do
                  let _ ← perform (ProcessM.writeBytes number text)
                  close number
          return 0

-- How `nl` numbers lines.
structure Numbering where
  all : Bool
  none_ : Bool
  width : Nat
  separator : String
  layout : String
  step : Int

def Numbering.line (numbering : Numbering) (number : Int) (line : List Char) :
    List Char × Int :=
  if !numbering.none_ && (numbering.all || !line.isEmpty) then
    let digits := (toString number).toList
    let shown :=
      if numbering.layout == "ln" then padRight numbering.width digits
      else if numbering.layout == "rz" then
        List.replicate (numbering.width - digits.length) '0' ++ digits
      else padLeft numbering.width digits
    (shown ++ numbering.separator.toList ++ line ++ ['\n'], number + numbering.step)
  else
    let blanks := numbering.width + numbering.separator.length
    (List.replicate blanks ' ' ++ line ++ ['\n'], number)

def nl : Utility := do
  let call ← call 1
    { letters := "b:i:n:s:v:w:"
      words := [("body-numbering", 'b'), ("line-increment", 'i'), ("number-format", 'n'),
        ("number-separator", 's'), ("starting-line-number", 'v'), ("number-width", 'w')] }
  let style := (call.value? 'b').getD "t"
  if !(["a", "t", "n"].contains style) then
    refuse 1 s!"invalid body numbering style: {Quoting.curly style}"
  let layout := (call.value? 'n').getD "rn"
  if !(["ln", "rn", "rz"].contains layout) then
    refuse 1 s!"invalid line numbering format: {Quoting.curly layout}"
  let integer := fun (letter : Char) (default : Int) (purpose : String) => do
    match call.value? letter with
    | none => return default
    | some text =>
        match integer? text with
        | some value => return value
        | none => fail 1 s!"invalid {purpose}: {Quoting.curly text}"
  let start ← integer 'v' 1 "starting line number"
  let step ← integer 'i' 1 "line number increment"
  let width ← integer 'w' 6 "line number field width"
  if width ≤ 0 then
    let shown := Quoting.curly ((call.value? 'w').getD "")
    fail 1 s!"invalid line number field width: {shown}: Numerical result out of range"
  let numbering : Numbering :=
    { all := style == "a", none_ := style == "n", width := width.toNat
      separator := (call.value? 's').getD "\t", layout, step }
  let (bytes, good) ← together call.operands
  let (shown, _) := (lines bytes).foldl
    (fun (state : List (List Char) × Int) line =>
      let (shown, number) := numbering.line state.2 line
      (shown :: state.1, number))
    ([], start)
  say shown.reverse.flatten
  return statusOf good

end JobScheduler.Shell.Utility
