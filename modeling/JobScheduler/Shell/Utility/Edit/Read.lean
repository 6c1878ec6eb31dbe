import JobScheduler.Shell.Format.Escape
import JobScheduler.Shell.Regex.Read
import JobScheduler.Shell.Utility.Edit.Script

namespace JobScheduler.Shell.Edit

-- Scripts as they are written.

structure Fault where
  -- What was not read yet where it was found, or nothing if the place does not matter.
  left : Option (List Char)
  message : String

structure Reader where
  rest : List Char
  extended : Bool

abbrev Reading := StateT Reader (Except Fault)

def fail (message : String) : Reading α := do throw ⟨some (← get).rest, message⟩

def peek : Reading (Option Char) := return (← get).rest.head?

def skip : Reading Unit := modify fun reader => { reader with rest := reader.rest.drop 1 }

def takeWhile (wanted : Char → Bool) : Reading (List Char) := do
  let rest := (← get).rest
  modify fun reader => { reader with rest := rest.dropWhile wanted }
  return rest.takeWhile wanted

def skipBlanks : Reading Unit := do
  let _ ← takeWhile isBlank

def isSpace (c : Char) : Bool := isBlank c || ('\n' ≤ c && c ≤ '\r')

def number : Reading Nat := return digitsValue (← takeWhile Char.isDigit)

-- The length of a set at the beginning of a text, given what follows its opening bracket.
def setLength : Nat → Bool → List Char → Nat
  | 0, _, _ | _, _, [] => 0
  | fuel + 1, first, c :: rest =>
      if c = ']' && !first then 1
      else
        match rest with
        | mark :: inner =>
            if c = '[' && (mark = ':' || mark = '.' || mark = '=') then
              let size := (inner.splitBy fun a b => !(a = mark && b = ']')).headD []
              let taken := 3 + size.length
              taken + setLength fuel false ((c :: rest).drop taken)
            else 1 + setLength fuel false rest
        | [] => 1

-- The text up to a mark, which can be part of it behind a backslash or in a set of a pattern.
def untilMark (mark : Char) (isPattern : Bool) : Nat → List Char → List Char →
    Option (List Char) × List Char
  | 0, _, rest => (none, rest)
  | _, _, [] => (none, [])
  | fuel + 1, done, c :: rest =>
      if c = mark then (some done.reverse, rest)
      else if c = '\n' && isPattern then (none, c :: rest)
      else if c = '\\' then
        match rest with
        | [] => (none, [])
        | d :: rest =>
            if d = mark && (isPattern || d ≠ '&') then untilMark mark isPattern fuel (d :: done) rest
            else if d = 'n' && isPattern then
              untilMark mark isPattern fuel ('n' :: '\\' :: done) rest
            else untilMark mark isPattern fuel (d :: '\\' :: done) rest
      else if c = '[' && isPattern then
        let start := if rest.head? = some '^' then 1 else 0
        let size := start + setLength (rest.length + 1) true (rest.drop start)
        let inner := rest.take size
        if inner.getLast? = some ']' && !(inner.contains '\n') then
          untilMark mark isPattern fuel (inner.reverse ++ c :: done) (rest.drop size)
        else untilMark mark isPattern fuel (rest.reverse ++ c :: done) []
      else untilMark mark isPattern fuel (c :: done) rest

def delimited (mark : Char) (isPattern : Bool) : Reading (Option (List Char)) := do
  let rest := (← get).rest
  let (found, rest) := untilMark mark isPattern (rest.length + 1) [] rest
  modify fun reader => { reader with rest }
  return found

-- The character that an escape such as \t or \x41 stands for, and what follows.
def escape? : List Char → Option (Char × List Char)
  | 'a' :: rest => some ('\x07', rest)
  | 'f' :: rest => some ('\x0c', rest)
  | 'n' :: rest => some ('\n', rest)
  | 'r' :: rest => some ('\r', rest)
  | 't' :: rest => some ('\t', rest)
  | 'v' :: rest => some ('\x0b', rest)
  | 'c' :: c :: rest => some (Char.ofNat (c.toUpper.toNat ^^^ 64), rest)
  | 'd' :: rest =>
      let digits := (rest.take 3).takeWhile Char.isDigit
      if digits.isEmpty then none
      else some (Char.ofNat (digitsValue digits % 256), rest.drop digits.length)
  | 'o' :: rest =>
      let digits := (rest.take 3).takeWhile fun c => '0' ≤ c && c ≤ '7'
      if digits.isEmpty then none
      else
        some (Char.ofNat (digits.foldl (fun n c => n * 8 + (c.toNat - 48)) 0 % 256),
          rest.drop digits.length)
  | 'x' :: rest => (Format.hex? 2 rest).map fun (value, rest) => (Char.ofNat value, rest)
  | _ => none

-- A pattern with its escapes replaced by the characters that they stand for. In a set a
-- backslash stands for itself otherwise.
def plainPattern : Nat → List Char → List Char
  | 0, cs => cs
  | _, [] => []
  | fuel + 1, '\\' :: rest =>
      match rest with
      | [] => ['\\']
      | c :: more =>
          if c = 'b' || c = 'c' || c = 'd' || !c.isAlpha then '\\' :: c :: plainPattern fuel more
          else
            match escape? (c :: more) with
            | some (d, rest) => d :: plainPattern fuel rest
            | none => '\\' :: c :: plainPattern fuel more
  | fuel + 1, c :: rest => c :: plainPattern fuel rest

-- The pattern that a text writes, and the number of its groups.
def search (text : List Char) (ignoresCase : Bool) : Reading (Search × Nat) := do
  if text.isEmpty then return (⟨none, ignoresCase⟩, 9)
  match Regex.read (← get).extended (plainPattern (text.length + 1) text) with
  | .ok (regex, groups) => return (⟨some regex, ignoresCase⟩, groups)
  | .error fault => fail fault.message

def addressSearch (mark : Char) : Reading Address := do
  match ← delimited mark true with
  | none => fail "unterminated address regex"
  | some text => do
      let flags ← takeWhile fun c => c = 'I' || c = 'M'
      return .search (← search text (flags.contains 'I')).1

def address? : Reading (Option Address) := do
  match ← peek with
  | some '/' => do
      skip
      return some (← addressSearch '/')
  | some '\\' => do
      skip
      match ← peek with
      | none => fail "unterminated address regex"
      | some mark => do
          skip
          return some (← addressSearch mark)
  | some '$' => do
      skip
      return some .last
  | some c => do
      if !c.isDigit then return none
      let n ← number
      skipBlanks
      if (← peek) = some '~' then
        skip
        skipBlanks
        return some (.step n (← number))
      return some (.line n)
  | none => return none

def goal : Reading Goal := do
  skipBlanks
  match ← peek with
  | some '+' => do
      skip
      return .more (← number)
  | some '~' => do
      skip
      return .multiple (← number)
  | _ =>
      match ← address? with
      | some address => return .address address
      | none => do
          skip
          fail "unexpected \x60,'"

def selector : Reading Selector := do
  if let some c ← peek then
    if c = '+' || c = '~' then
      skip
      let _ ← number
      fail "invalid usage of +N or ~N as first address"
  let first ← address?
  skipBlanks
  let goal ← do
    if first.isSome && (← peek) = some ',' then
      skip
      pure (some (← goal))
    else pure none
  if let some (.line 0) := first then
    match goal with
    | some (.address (.search _)) => pure ⟨⟩
    | _ => do
        skip
        fail "invalid usage of line address 0"
  skipBlanks
  if (← peek) = some '!' then
    skip
    skipBlanks
    if (← peek) = some '!' then
      skip
      fail "multiple \x60!'s"
    return ⟨first, goal, true⟩
  return ⟨first, goal, false⟩

-- The end of a command.
def finish : Reading Unit := do
  skipBlanks
  match ← peek with
  | none | some '}' | some '#' => return
  | some '\n' | some ';' => skip
  | some _ => do
      skip
      fail "extra characters after command"

-- The text of a command up to the end of the line, where a backslash keeps a line from ending.
def textLines : Nat → List Char → List Char → List Char × List Char
  | 0, done, rest => (done.reverse, rest)
  | _, done, [] => (('\n' :: done).reverse, [])
  | fuel + 1, done, c :: rest =>
      if c = '\n' then (('\n' :: done).reverse, rest)
      else if c = '\\' then
        match rest with
        | [] => (done.reverse, [])
        | d :: more =>
            match if d = '\n' then none else escape? rest with
            | some (e, rest) => textLines fuel (e :: done) rest
            | none => textLines fuel (d :: done) more
      else textLines fuel (c :: done) rest

def text : Reading (List Char) := do
  skipBlanks
  match (← get).rest with
  | [] => fail "expected \\ after \x60a', \x60c' or \x60i'"
  | ['\\'] => do
      skip
      return []
  | '\\' :: rest => do
      let after := rest.dropWhile isBlank
      let begun :=
        match after with
        | '\n' :: after => after
        | _ => rest
      let (text, rest) := textLines (begun.length + 1) [] begun
      modify fun reader => { reader with rest }
      return text
  | rest => do
      let (text, rest) := textLines (rest.length + 1) [] rest
      modify fun reader => { reader with rest }
      return text

def label : Reading String := do
  skipBlanks
  let name ← takeWhile fun c => !isSpace c && c ≠ ';'
  skipBlanks
  if (← peek) = some ';' then skip
  return String.ofList name

def fileName : Reading String := do
  skipBlanks
  let name ← takeWhile (· ≠ '\n')
  if name.isEmpty then fail "missing filename in r/R/w/W commands"
  return String.ofList name

-- The pieces of a replacement, each run of characters as one.
def pieces : Nat → List Char → List Char → List Piece
  | 0, done, _ | _, done, [] => if done.isEmpty then [] else [.text done.reverse]
  | fuel + 1, done, c :: rest =>
      let before := if done.isEmpty then [] else [Piece.text done.reverse]
      if c = '&' then before ++ .group 0 :: pieces fuel [] rest
      else if c = '\\' then
        match rest with
        | [] => pieces fuel (c :: done) []
        | d :: more =>
            let casing? : Option Casing :=
              [('U', .upper), ('L', .lower), ('u', .nextUpper), ('l', .nextLower),
                ('E', .plain)].lookup d
            match casing? with
            | some casing => before ++ .casing casing :: pieces fuel [] more
            | none =>
                if d.isDigit then before ++ .group (d.toNat - 48) :: pieces fuel [] more
                else
                  match escape? rest with
                  | some (e, rest) => pieces fuel (e :: done) rest
                  | none => pieces fuel (d :: done) more
      else pieces fuel (c :: done) rest

structure Flags where
  everywhere : Bool := false
  prints : Bool := false
  ignoresCase : Bool := false
  number : Option Nat := none
  file : Option String := none

def flags : Nat → Flags → Reading Flags
  | 0, flags => return flags
  | fuel + 1, found => do
      match ← peek with
      | some 'g' => do
          skip
          if found.everywhere then fail "multiple \x60g' options to \x60s' command"
          flags fuel { found with everywhere := true }
      | some 'p' => do
          skip
          if found.prints then fail "multiple \x60p' options to \x60s' command"
          flags fuel { found with prints := true }
      | some 'i' | some 'I' => do
          skip
          flags fuel { found with ignoresCase := true }
      | some 'm' | some 'M' => do
          skip
          flags fuel found
      | some 'w' => do
          skip
          return { found with file := some (← fileName) }
      | some '}' | some '#' | none => return found
      | some '\n' | some ';' => do
          skip
          return found
      | some c => do
          if isBlank c then
            skip
            flags fuel found
          else if c.isDigit then
            let n ← number
            if found.number.isSome then
              fail "multiple number options to \x60s' command"
            if n = 0 then fail "number option to \x60s' command may not be zero"
            flags fuel { found with number := some n }
          else
            skip
            fail "unknown option to \x60s'"

def highestGroup (pieces : List Piece) : Nat :=
  pieces.foldl
    (fun highest piece =>
      match piece with
      | .group n => max highest n
      | _ => highest)
    0

def substitution : Reading Substitution := do
  let unterminated := "unterminated \x60s' command"
  match ← peek with
  | none => fail unterminated
  | some mark => do
      skip
      match ← delimited mark true with
      | none => fail unterminated
      | some pattern =>
          match ← delimited mark false with
          | none => fail unterminated
          | some replacement => do
              let flags ← flags ((← get).rest.length + 1) {}
              let (search, groups) ← search pattern flags.ignoresCase
              let pieces := pieces (replacement.length + 1) [] replacement
              let highest := highestGroup pieces
              if groups < highest then
                fail s!"invalid reference \\{highest} on \x60s' command's RHS"
              return ⟨search, pieces, flags.everywhere, flags.prints, flags.number.getD 1,
                flags.file⟩

-- The characters of a translation, where a backslash stands in front of a few.
def translationLetters : Nat → List Letter → List Letter
  | 0, letters => letters
  | _, [] => []
  | fuel + 1, ['\\'] :: next :: rest =>
      if next = ['\\'] then next :: translationLetters fuel rest
      else
        match escape? next with
        | some (c, []) => [c] :: translationLetters fuel rest
        | _ => ['\\'] :: next :: translationLetters fuel rest
  | fuel + 1, letter :: rest => letter :: translationLetters fuel rest

def translation : Reading (List (Letter × Letter)) := do
  let unterminated := "unterminated \x60y' command"
  match ← peek with
  | none => fail unterminated
  | some mark => do
      skip
      match ← delimited mark false with
      | none => fail unterminated
      | some old =>
          match ← delimited mark false with
          | none => fail unterminated
          | some new => do
              let letters := fun (cs : List Char) =>
                translationLetters (cs.length + 1) (characters cs)
              if (letters old).length ≠ (letters new).length then
                fail "strings for \x60y' command are different lengths"
              finish
              return (letters old).zip (letters new)

-- An optional number behind a command.
def numberAfter : Reading (Option Nat) := do
  skipBlanks
  match ← peek with
  | some c => if c.isDigit then return some (← number) else return none
  | none => return none

def simple (action : Action) : Reading Action := do
  finish
  return action

-- The action of a letter. Blocks are closed elsewhere.
def action (letter : Char) : Reading Action := do
  match letter with
  | '=' => simple .number
  | 'd' => simple .delete
  | 'D' => simple .deleteFirst
  | 'F' => simple .fileName
  | 'g' => simple .fetch
  | 'G' => simple .fetchMore
  | 'h' => simple .hold
  | 'H' => simple .holdMore
  | 'n' => simple .next
  | 'N' => simple .join
  | 'p' => simple .print
  | 'P' => simple .printFirst
  | 'x' => simple .exchange
  | 'z' => simple .clear
  | '{' => return .enter 0
  | 'a' => return .append (← text)
  | 'i' => return .insert (← text)
  | 'c' => return .change (← text)
  | 'b' => return .jump (← label)
  | 't' => return .jumpIf (← label) true
  | 'T' => return .jumpIf (← label) false
  | 'l' => simple (.show_ (← numberAfter))
  | 'q' => simple (.quit ((← numberAfter).getD 0) true)
  | 'Q' => simple (.quit ((← numberAfter).getD 0) false)
  | 'r' => return .readFile (← fileName)
  | 'R' => return .readLine (← fileName)
  | 'w' => return .writeFile (← fileName)
  | 'W' => return .writeFirst (← fileName)
  | 's' => return .substitute (← substitution)
  | 'y' => return .translate (← translation)
  | ':' => do
      skipBlanks
      let name ← takeWhile fun c => !isSpace c && c ≠ ';'
      if name.isEmpty then fail "\":\" lacks a label"
      simple (.label (String.ofList name))
  | c => fail s!"unknown command: \x60{c}'"

-- The steps of a script, and the places of the blocks that are open.
def steps : Nat → Array Step → List Nat → Reading (Array Step)
  | 0, done, _ => return done
  | fuel + 1, done, open_ => do
      let _ ← takeWhile fun c => isSpace c || c = ';'
      if (← peek).isNone then
        if open_.isEmpty then return done
        else throw ⟨none, "unmatched \x60\x7b'"⟩
      let selector ← selector
      match ← peek with
      | none => fail "missing command"
      | some '#' => do
          skip
          if selector.first.isSome then fail "comments don't accept any addresses"
          let _ ← takeWhile (· ≠ '\n')
          steps fuel done open_
      | some '}' => do
          skip
          match open_ with
          | [] => fail "unexpected \x60\x7d'"
          | start :: open_ => do
              if selector.first.isSome then fail "\x7d doesn't want any addresses"
              finish
              let done := done.push ⟨selector, .leave⟩
              let done := done.modify start fun step => { step with action := .enter done.size }
              steps fuel done open_
      | some letter => do
          skip
          if letter = ':' && selector.first.isSome then fail ": doesn't want any addresses"
          if (letter = 'q' || letter = 'Q') && selector.goal.isSome then
            fail "command only uses one address"
          let action ← action letter
          let done := done.push ⟨selector, action⟩
          steps fuel done (if letter = '{' then (done.size - 1) :: open_ else open_)

-- The script that a text writes.
def readScript (extended : Bool) (text : List Char) : Except Fault Script := do
  let (silent, text) :=
    match text with
    | ['#', 'n'] => (true, [])
    | '#' :: 'n' :: '\n' :: rest => (true, rest)
    | text => (false, text)
  let (steps, _) ← (steps (text.length + 2) #[] []).run ⟨text, extended⟩
  return ⟨steps, silent⟩

end JobScheduler.Shell.Edit
