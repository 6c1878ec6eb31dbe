import JobScheduler.Shell.Utility.Count

namespace JobScheduler.Shell.Utility

open UtilityM

-- Utilities that take lines apart or put them side by side.

-- Numbers from one to another, or from one on.
structure Span where
  low : Nat
  high : Option Nat
deriving DecidableEq, Repr

namespace Span

def has (spans : List Span) (n : Nat) : Bool :=
  spans.any fun span => span.low ≤ n && span.high.all (n ≤ ·)

-- Whether spans begin with a number and none that began before reaches it.
def begins (spans : List Span) (n : Nat) : Bool :=
  (spans.any fun span => span.low = n) &&
    !(spans.any fun span => span.low < n && span.high.all (n ≤ ·))

-- One part of a list.
def readPart (fields : Bool) (part : List Char) : Except String Span := do
  let zero := if fields then "fields are numbered from 1"
    else "byte/character positions are numbered from 1"
  let kind := if fields then "invalid field value" else "invalid byte/character position"
  let number := fun (cs : List Char) =>
    match cs.dropWhile Char.isDigit with
    | [] => Except.ok (digitsValue cs)
    | bad => .error (kind ++ " " ++ Quoting.curly (String.ofList bad))
  match splitAt '-' part with
  | [only] => do
      let n ← number only
      if n = 0 then throw zero
      return ⟨n, some n⟩
  | [[], []] => throw "invalid range with no endpoint: -"
  | [low, high] => do
      let first ← number low
      if first = 0 && !low.isEmpty then throw zero
      let first := if low.isEmpty then 1 else first
      let last ← number high
      if high.isEmpty then return ⟨first, none⟩
      if last < first then throw "invalid decreasing range"
      return ⟨first, some last⟩
  | _ => throw (if fields then "invalid field range" else "invalid byte or character range")

-- A list such as 1,3-5,7-.
def readList (fields : Bool) (text : String) : Except String (List Span) :=
  let cs := text.toList.map fun c => if isBlank c then ',' else c
  (splitAt ',' cs).mapM (readPart fields)

end Span

-- What `cut` keeps of each line.
structure Cutting where
  spans : List Span
  complement : Bool
  -- What goes between parts that were not next to each other.
  joint : List Char

namespace Cutting

def keeps (cutting : Cutting) (n : Nat) : Bool := Span.has cutting.spans n != cutting.complement

-- The bytes that are kept. A joint goes in front of a span that does not come first.
def bytes (cutting : Cutting) (joined : Bool) : Nat → Bool → List Char → List Char
  | _, _, [] => []
  | n, before, c :: rest =>
      if cutting.keeps n then
        let begins :=
          if cutting.complement then !cutting.keeps (n - 1) else Span.begins cutting.spans n
        (if joined && before && begins then cutting.joint else []) ++
          c :: bytes cutting joined (n + 1) true rest
      else bytes cutting joined (n + 1) before rest

def fields (cutting : Cutting) (fields : List (List Char)) : List Char :=
  let kept := (fields.zipIdx.filter fun field => cutting.keeps (field.2 + 1)).map (·.1)
  (kept.intersperse cutting.joint).flatten

end Cutting

def cut : Utility := do
  let call ← call 1
    { letters := "b:c:d:f:nszO:C"
      words := [("bytes", 'b'), ("characters", 'c'), ("delimiter", 'd'), ("fields", 'f'),
        ("only-delimited", 's'), ("zero-terminated", 'z'), ("complement", 'C'),
        ("output-delimiter", 'O')] }
  let chosen := call.options.filter fun option => ['b', 'c', 'f'].contains option.1
  let (letter, list) ←
    match chosen with
    | [] => refuse 1 "you must specify a list of bytes, characters, or fields"
    | [only] => pure only
    | _ => refuse 1 "only one list may be specified"
  let byFields := letter == 'f'
  let delimiter ←
    match (call.value? 'd').map String.toList with
    | none => pure '\t'
    | some [] => pure '\x00'
    | some [c] => pure c
    | some _ => refuse 1 "the delimiter must be a single character"
  if !byFields && call.has 'd' then
    refuse 1 "an input delimiter may be specified only when operating on fields"
  if !byFields && call.has 's' then
    refuse 1 "suppressing non-delimited lines makes sense\n\tonly when operating on fields"
  let spans ←
    match Span.readList byFields list with
    | .ok spans => pure spans
    | .error message => refuse 1 message
  let joint := (call.value? 'O').map String.toList
  let cutting : Cutting :=
    { spans, complement := call.has 'C'
      joint := joint.getD (if byFields then [delimiter] else []) }
  let ending := if call.has 'z' then '\x00' else '\n'
  let cutLine := fun (line : List Char) =>
    if byFields then
      match splitAt delimiter line with
      | [_] => if call.has 's' then none else some line
      | fields => some (cutting.fields fields)
    else some (cutting.bytes joint.isSome 1 false line)
  let good ← eachInput call.operands fun _ number => do
    let result ← eachPortion number 65536
      (fun before bytes => do
        let (lines, rest) := splitLines ending before bytes
        say (unlinesBy ending (lines.filterMap cutLine))
        return (true, rest))
      ProcessM.patience []
    match result with
    | .error obstacle => return .error obstacle
    | .ok rest => do
        if !rest.isEmpty then say (unlinesBy ending (cutLine rest).toList)
        return .ok ⟨⟩
  return statusOf good

-- The characters between columns, which follow each other in turn. An empty one puts none.
def joints : List Char → List (List Char)
  | [] => []
  | '\\' :: c :: rest =>
      (match c with
        | '0' => []
        | 'n' => ['\n']
        | 't' => ['\t']
        | 'b' => ['\x08']
        | 'f' => ['\x0c']
        | 'r' => ['\r']
        | 'v' => ['\x0b']
        | c => [c]) :: joints rest
  | c :: rest => [c] :: joints rest

-- Puts texts together with joints that follow each other in turn.
def weave (joints : List (List Char)) : Nat → List (List Char) → List Char
  | _, [] => []
  | _, [last] => last
  | n, first :: rest =>
      first ++ joints.getD (n % joints.length) [] ++ weave joints (n + 1) rest

-- The next line of each source, where a source can stand for several columns.
def nextRow (sources : List (List (List Char))) :
    List Nat → List (Option (List Char)) × List (List (List Char))
  | [] => ([], sources)
  | source :: columns =>
      let lines := sources.getD source []
      let (row, sources) := nextRow (sources.set source (lines.drop 1)) columns
      (lines.head? :: row, sources)

def rows (joints : List (List Char)) (columns : List Nat) :
    Nat → List (List (List Char)) → List (List Char)
  | 0, _ => []
  | fuel + 1, sources =>
      let (row, sources) := nextRow sources columns
      if row.all Option.isNone then []
      else weave joints 0 (row.map (·.getD [])) :: rows joints columns fuel sources

def paste : Utility := do
  let call ← call 1
    { letters := "d:sz"
      words := [("delimiters", 'd'), ("serial", 's'), ("zero-terminated", 'z')] }
  let joints := joints ((call.value? 'd').getD "\t").toList
  let joints := if joints.isEmpty then [[]] else joints
  let ending := if call.has 'z' then '\x00' else '\n'
  let operands := orInput call.operands
  let names := operands.eraseDups
  let (sources, good) ← names.foldlM
    (fun (found : List (List (List Char)) × Bool) operand => do
      match ← contents operand with
      | .ok bytes => return (found.1 ++ [linesBy ending bytes], found.2)
      | .error obstacle => do
          complain s!"{Quoting.ifNeeded operand}: {obstacle.message}"
          if !call.has 's' then leave 1
          return (found.1 ++ [[]], false))
    ([], true)
  if call.has 's' then
    say (unlinesBy ending (sources.map fun lines => weave joints 0 lines))
  else
    let columns := operands.map fun operand => (names.idxOf? operand).getD 0
    let size := (sources.map List.length).foldl (· + ·) 0
    say (unlinesBy ending (rows joints columns (size + 1) sources))
  return statusOf good

-- The column after a character. A tabulator goes on to the next multiple of eight.
def nextColumn (bytes : Bool) (column : Nat) (c : Char) : Nat :=
  if bytes then column + 1
  else if c = '\x08' then column - 1
  else if c = '\r' then 0
  else if c = '\t' then column + 8 - column % 8
  else column + 1

-- The characters that fit in a width, the last one first, and the rest. There is always one
-- that does.
def fitting (bytes : Bool) (width : Nat) : Nat → List Char → List Char → List Char × List Char
  | _, done, [] => (done, [])
  | column, done, c :: rest =>
      let next := nextColumn bytes column c
      if width < next && !done.isEmpty then (done, c :: rest)
      else fitting bytes width next (c :: done) rest

def foldLine (bytes spaces : Bool) (width : Nat) : Nat → List Char → List Char
  | 0, line => line
  | fuel + 1, line =>
      match fitting bytes width 0 [] line with
      | (done, []) => done.reverse
      | (done, rest) =>
          let (kept, moved) :=
            if spaces && done.any isBlank then
              (done.dropWhile (!isBlank ·), done.takeWhile (!isBlank ·))
            else (done, [])
          kept.reverse ++ '\n' :: foldLine bytes spaces width fuel (moved.reverse ++ rest)

def fold : Utility := do
  let arguments := (← read).arguments.map fun argument =>
    match argument.toList with
    | '-' :: digits => if isDigits digits then "-w" ++ String.ofList digits else argument
    | _ => argument
  let call ← ReaderT.adapt (fun request => { request with arguments }) <| call 1
    { letters := "bsw:", words := [("bytes", 'b'), ("spaces", 's'), ("width", 'w')] }
  let text := (call.value? 'w').getD "80"
  let shown := Quoting.curly text
  let width ←
    match natural? text with
    | none => fail 1 s!"invalid number of columns: {shown}"
    | some 0 => fail 1 s!"invalid number of columns: {shown}: Numerical result out of range"
    | some width => pure width
  let good ← eachInput call.operands fun _ number => do
    let result ← eachLine number '\n'
      (fun (_ : Unit) line complete => do
        let folded := foldLine (call.has 'b') (call.has 's') width (line.length + 1) line
        say (if complete then folded ++ ['\n'] else folded)
        return (true, ⟨⟩))
      ⟨⟩
    return result.map fun _ => ⟨⟩
  return statusOf good

end JobScheduler.Shell.Utility
