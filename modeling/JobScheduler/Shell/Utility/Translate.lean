import JobScheduler.Shell.Pattern
import JobScheduler.Shell.Utility.Call

namespace JobScheduler.Shell.Utility

open UtilityM

-- A set of characters in order. One of them can be repeated as often as is needed to make
-- the set as long as another.
structure CharSet where
  before : List Char
  filler : Option Char
  after : List Char
  -- The classes other than those of small and capital letters, which have no order that a
  -- translation could follow.
  hasClasses : Bool
  hasEquivalents : Bool
  -- How many characters came before each class of letters.
  cases : List Nat

namespace CharSet

def empty : CharSet := ⟨[], none, [], false, false, []⟩

def size (set : CharSet) : Nat := set.before.length + set.after.length

def add (set : CharSet) (cs : List Char) : CharSet :=
  if set.filler.isNone then { set with before := set.before ++ cs }
  else { set with after := set.after ++ cs }

-- All characters of the set, so many of them if one can be repeated.
def toSize (set : CharSet) (size : Nat) : List Char :=
  match set.filler with
  | some c => set.before ++ List.replicate (size - set.size) c ++ set.after
  | none => set.before

abbrev Escaped := Char × Bool

def simpleEscapes : List (Char × Char) :=
  [('a', '\x07'), ('b', '\x08'), ('f', '\x0c'), ('n', '\n'), ('r', '\r'), ('t', '\t'),
    ('v', '\x0b'), ('\\', '\\')]

def octalValue (digits : List Char) : Nat := digits.foldl (fun n c => n * 8 + (c.toNat - 48)) 0

-- Characters with a mark that says whether they were written with a backslash.
def unescape : Nat → List Char → List Escaped
  | 0, _ | _, [] => []
  | _, ['\\'] => [('\\', true)]
  | fuel + 1, '\\' :: c :: rest =>
      match simpleEscapes.lookup c with
      | some d => (d, true) :: unescape fuel rest
      | none =>
          let isOctal := fun (c : Char) => '0' ≤ c && c ≤ '7'
          let digits := ((c :: rest).takeWhile isOctal).take 3
          let digits := if 255 < octalValue digits then digits.take 2 else digits
          if digits.isEmpty then (c, true) :: unescape fuel rest
          else
            (Char.ofNat (octalValue digits), true) ::
              unescape fuel ((c :: rest).drop digits.length)
  | fuel + 1, c :: rest => (c, false) :: unescape fuel rest

def between (low high : Char) : List Char :=
  (List.range (high.toNat + 1 - low.toNat)).map fun i => Char.ofNat (low.toNat + i)

def classMembers (name : String) : Option (List Char) :=
  (Pattern.classRanges name).map fun ranges =>
    (between '\x00' '\x7f').filter fun c => Pattern.inRanges c ranges

-- What stands between an opening bracket with a mark and the mark with a closing one.
def bracketed? (mark : Char) : List Escaped → Option (List Char × List Escaped)
  | (c, escaped) :: (d, escaped') :: rest =>
      if c = mark && d = ']' && !escaped && !escaped' then some ([], rest)
      else (bracketed? mark ((d, escaped') :: rest)).map fun found => (c :: found.1, found.2)
  | _ => none

-- A count behind an asterisk, up to a closing bracket. It is octal if it begins with zero.
def repeats? (cs : List Escaped) : Option (Nat × List Escaped) :=
  let digits := (cs.takeWhile fun c => c.1.isDigit && !c.2).map (·.1)
  match cs.drop digits.length with
  | (']', false) :: rest =>
      let base := if digits.head? = some '0' then 8 else 10
      some (digits.foldl (fun n c => n * base + (c.toNat - 48)) 0, rest)
  | _ => none

def readFrom : Nat → CharSet → List Escaped → Except String CharSet
  | 0, set, _ | _, set, [] => .ok set
  | fuel + 1, set, (c, escaped) :: rest => do
      let opens := c = '[' && !escaped
      match opens, rest with
      | true, (':', false) :: inner => do
          match bracketed? ':' inner with
          | some (name, rest) => do
              let name := String.ofList name
              match classMembers name with
              | none => throw ("invalid character class " ++ Quoting.curly name)
              | some members =>
                  let isCase := name == "lower" || name == "upper"
                  let next := { set.add members with
                    hasClasses := set.hasClasses || !isCase
                    cases := if isCase then set.cases ++ [set.size] else set.cases }
                  readFrom fuel next rest
          | none => plain fuel set c rest
      | true, ('=', false) :: inner => do
          match bracketed? '=' inner with
          | some ([c], rest) => readFrom fuel { set.add [c] with hasEquivalents := true } rest
          | some (name, _) =>
              throw (String.ofList name ++ ": equivalence class operand must be a single character")
          | none => plain fuel set c rest
      | true, (d, _) :: ('*', false) :: inner => do
          match repeats? inner with
          | some (0, rest) => readFrom fuel { set with filler := some d } rest
          | some (n, rest) => readFrom fuel (set.add (List.replicate n d)) rest
          | none => plain fuel set c rest
      | _, _ => plain fuel set c rest
where
  -- A character or a range.
  plain (fuel : Nat) (set : CharSet) (c : Char) (rest : List Escaped) : Except String CharSet :=
    match rest with
    | ('-', false) :: (d, _) :: rest =>
        if c ≤ d then readFrom fuel (set.add (between c d)) rest
        else
          .error s!"range-endpoints of '{c}-{d}' are in reverse collating sequence order"
    | rest => readFrom fuel (set.add [c]) rest

def read (text : String) : Except String CharSet :=
  let cs := unescape (text.length + 1) text.toList
  readFrom (cs.length + 1) .empty cs

end CharSet

def allBytes : List Char := CharSet.between '\x00' '\xff'

-- What becomes of the characters: which ones are left out, what the others turn into, and of
-- which ones only the first of several stays.
structure Translation where
  deleted : Array Bool
  table : Array Char
  squeezed : Array Bool

namespace Translation

def marks (members : List Char) : Array Bool :=
  members.foldl (fun marks c => marks.set! c.toNat true) (Array.replicate 256 false)

def apply (translation : Translation) :
    Option Char → List Char → List Char → List Char × Option Char
  | last, done, [] => (done.reverse, last)
  | last, done, c :: rest =>
      if translation.deleted.getD c.toNat false then apply translation last done rest
      else
        let c := translation.table.getD c.toNat c
        if translation.squeezed.getD c.toNat false && last = some c then
          apply translation last done rest
        else apply translation (some c) (c :: done) rest

end Translation

def trSet (text : String) : UtilityM CharSet := do
  match CharSet.read text with
  | .ok set =>
      if (text.toList.reverse.takeWhile (· = '\\')).length % 2 = 1 then
        complain "warning: an unescaped backslash at end of string is not portable"
      return set
  | .error message => fail 1 message

-- The characters that the second set gives to those of the first.
def translationTable (first : List Char) (firstSet second : CharSet) (complemented truncated : Bool) :
    UtilityM (Array Char) := do
  if second.hasEquivalents then
    fail 1 "[=c=] expressions may not appear in string2 when translating"
  if second.hasClasses then
    fail 1 ("when translating, the only character classes that may appear in\n" ++
      "string2 are 'upper' and 'lower'")
  if !complemented && second.cases.any fun place => !firstSet.cases.contains place then
    fail 1 "misaligned [:upper:] and/or [:lower:] construct"
  let members := second.toSize first.length
  if members.isEmpty && !truncated then
    fail 1 "when not truncating set1, string2 must be non-empty"
  let padded :=
    if truncated then members
    else members ++ List.replicate (first.length - members.length) (members.getLastD '\x00')
  return (first.zip padded).foldl (fun table pair => table.set! pair.1.toNat pair.2)
    allBytes.toArray

def tr : Utility := do
  let call ← call 1
    { letters := "cCdst", strict := true
      words := [("complement", 'c'), ("delete", 'd'), ("squeeze-repeats", 's'),
        ("truncate-set1", 't')] }
  let deletes := call.has 'd'
  let squeezes := call.has 's'
  let complemented := call.has 'c' || call.has 'C'
  let needed := if deletes = squeezes then 2 else 1
  let allowed := if deletes && !squeezes then 1 else 2
  needOperand call 1
  if call.operands.length < needed then
    let only := Quoting.curly (call.operands.headD "")
    let purpose := if deletes then "both deleting and squeezing repeats" else "translating"
    refuse 1 s!"missing operand after {only}\nTwo strings must be given when {purpose}."
  if let some extra := call.operands[allowed]? then
    let shown := Quoting.curly extra
    let reason :=
      if allowed = 1 && call.operands.length = 2 then
        "\nOnly one string may be given when deleting without squeezing repeats."
      else ""
    refuse 1 s!"extra operand {shown}{reason}"
  let firstSet ← trSet (call.operands.headD "")
  let named := firstSet.toSize 0
  let first := if complemented then allBytes.filter fun c => !named.contains c else named
  let second ← (call.operands[1]?).mapM trSet
  let none_ := Translation.marks []
  let translation : Translation ←
    match second with
    | none =>
        let members := Translation.marks first
        pure ⟨if deletes then members else none_, #[], if squeezes then members else none_⟩
    | some set =>
        let squeezed := Translation.marks (if squeezes then set.toSize first.length else [])
        if deletes then pure ⟨Translation.marks first, #[], squeezed⟩
        else
          let table ← translationTable first firstSet set complemented (call.has 't')
          pure ⟨none_, table, squeezed⟩
  let result ← eachPortion 0 8192
    (fun last bytes => do
      let (shown, last) := translation.apply last [] bytes
      say shown
      return (true, last))
    ProcessM.patience none
  match result with
  | .ok _ => return 0
  | .error obstacle => fail 1 s!"read error: {obstacle.message}"

end JobScheduler.Shell.Utility
