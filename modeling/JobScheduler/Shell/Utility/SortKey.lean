import JobScheduler.Shell.Fraction
import JobScheduler.Shell.Utility.Count

namespace JobScheduler.Shell.Utility

-- What lines are sorted by.

def bytesOrder : List Char → List Char → Ordering
  | [], [] => .eq
  | [], _ :: _ => .lt
  | _ :: _, [] => .gt
  | a :: as, b :: bs => (compare a b).then (bytesOrder as bs)

-- A text seen as versions are: runs of digits count as numbers.
namespace Version

-- The place of a character that is no digit. A tilde comes before the end.
def place : Option Char → Int
  | none => -1
  | some c =>
      if c.isDigit then 0
      else if c.isAlpha then c.toNat
      else if c = '~' then -2
      else c.toNat + 256

def placesOrder : List Char → List Char → Ordering
  | [], [] => .eq
  | a :: as, [] => (compare (place (some a)) (place none)).then (placesOrder as [])
  | [], b :: bs => (compare (place none) (place (some b))).then (placesOrder [] bs)
  | a :: as, b :: bs => (compare (place (some a)) (place (some b))).then (placesOrder as bs)

def notDigit (c : Char) : Bool := !c.isDigit

def partsOrder : Nat → List Char → List Char → Ordering
  | 0, _, _ | _, [], [] => .eq
  | fuel + 1, a, b =>
      let size := max (a.takeWhile notDigit).length (b.takeWhile notDigit).length
      let words := fun (cs : List Char) => cs.takeWhile notDigit
      let pad := fun (cs rest : List Char) =>
        if cs.length < size && !rest.isEmpty then cs ++ ['0'] else cs
      let restA := a.dropWhile notDigit
      let restB := b.dropWhile notDigit
      let number := fun (cs : List Char) => digitsValue (cs.takeWhile Char.isDigit)
      (placesOrder (pad (words a) restA) (pad (words b) restB)).then
        ((compare (number restA) (number restB)).then
          (partsOrder fuel (restA.dropWhile Char.isDigit) (restB.dropWhile Char.isDigit)))

-- The length of a text without the endings that files have.
def isEnding : List Char → Bool
  | [] => true
  | '.' :: c :: rest =>
      (c.isAlpha || c = '~') &&
        isEnding (rest.dropWhile fun c => c.isAlphanum || c = '~')
  | _ => false
termination_by cs => cs.length
decreasing_by
  have := (List.dropWhile_sublist (fun c : Char => c.isAlphanum || c = '~') (l := rest)).length_le
  simp only [List.length_cons]
  omega

def stem (cs : List Char) : List Char :=
  let size := (List.range (cs.length + 1)).find? fun n => isEnding (cs.drop n)
  match size with
  | some 0 | none => cs
  | some n => cs.take n

def order (a b : List Char) : Ordering :=
  if a = b then .eq
  else
    let hidden := fun (cs : List Char) => cs.head? = some '.'
    (compare (!a.isEmpty) (!b.isEmpty)).then
      ((compare (!hidden a) (!hidden b)).then
        (let size := a.length + b.length + 1
        (partsOrder size (stem a) (stem b)).then (partsOrder size a b)))

end Version

-- A part of a line as it takes part in comparisons.
inductive Rank
  | bytes (text : List Char)
  -- A number with so many decimals. The unit counts first.
  | decimal (unit value : Int) (places : Nat)
  | fraction (level : Nat) (value : Fraction)
  | month (n : Nat)
  | version (text : List Char)

namespace Rank

def fractionOrder : Fraction → Fraction → Ordering
  | .finite negative n d, .finite other m e =>
      let signed := fun (negative : Bool) (n : Nat) => if negative then -(n : Int) else n
      compare (signed negative n * e) (signed other m * d)
  | .infinite negative, .infinite other => compare (!negative) (!other)
  | .infinite negative, _ => if negative then .lt else .gt
  | _, .infinite negative => if negative then .gt else .lt
  | _, _ => .eq

def order : Rank → Rank → Ordering
  | .bytes a, .bytes b => bytesOrder a b
  | .decimal unit value places, .decimal unit' value' places' =>
      (compare unit unit').then
        (compare (value * Nat.pow 10 places') (value' * Nat.pow 10 places))
  | .fraction level value, .fraction level' value' =>
      (compare level level').then (fractionOrder value value')
  | .month n, .month m => compare n m
  | .version a, .version b => Version.order a b
  | _, _ => .eq

def units : List Char := ['K', 'M', 'G', 'T', 'P', 'E', 'Z', 'Y', 'R', 'Q']

-- The number that a text begins with. A letter behind it may tell the unit.
def ofNumber (human : Bool) (text : List Char) : Rank :=
  let cs := text.dropWhile fun c => isBlank c || c = '\n'
  let (negative, cs) := if cs.head? = some '-' then (true, cs.drop 1) else (false, cs)
  let whole := cs.takeWhile Char.isDigit
  let (places, rest) :=
    match cs.dropWhile Char.isDigit with
    | '.' :: rest => (rest.takeWhile Char.isDigit, rest.dropWhile Char.isDigit)
    | rest => ([], rest)
  let size : Int := digitsValue (whole ++ places)
  let unit : Int :=
    match rest with
    | c :: _ =>
        let c := if c = 'k' then 'K' else c
        match units.idxOf? c with
        | some i => if human && size ≠ 0 then (i : Int) + 1 else 0
        | none => 0
    | [] => 0
  .decimal (if negative then -unit else unit) (if negative then -size else size) places.length

def ofFraction (text : List Char) : Rank :=
  match Fraction.read? (text.dropWhile isSpace) with
  | none => .fraction 0 .zero
  | some (.undefined _, _) => .fraction 1 .zero
  | some (value, _) => .fraction 2 (value.round .extended)

def months : List String :=
  ["JAN", "FEB", "MAR", "APR", "MAY", "JUN", "JUL", "AUG", "SEP", "OCT", "NOV", "DEC"]

def ofMonth (text : List Char) : Rank :=
  let name := String.ofList (((text.dropWhile isBlank).take 3).map Char.toUpper)
  .month (((months.idxOf? name).map (· + 1)).getD 0)

end Rank

-- Where a part of a line begins or ends: behind so many fields and characters.
structure Position where
  field : Nat
  character : Nat

-- A part of a line and how it is compared. No end means the end of the line.
structure SortKey where
  start : Position
  stop : Option Position
  skipsStart : Bool
  skipsStop : Bool
  letters : List Char

namespace SortKey

def whole : SortKey := ⟨⟨0, 0⟩, none, false, false, []⟩

def isDefault (key : SortKey) : Bool :=
  !key.skipsStart && !key.skipsStop && key.letters.all (· = 'r')

-- Where a field ends, given that it is followed by another one.
def skipFields (tab : Option Char) : Nat → List Char → List Char
  | 0, cs => cs
  | n + 1, cs =>
      match tab with
      | some tab => skipFields (some tab) n ((cs.dropWhile (· ≠ tab)).drop 1)
      | none =>
          skipFields none n ((cs.dropWhile fun c => isBlank c || c = '\n').dropWhile
            fun c => !(isBlank c || c = '\n'))

def skipBlanks (skips : Bool) (cs : List Char) : List Char :=
  if skips then cs.dropWhile fun c => isBlank c || c = '\n' else cs

-- What follows the end of the key in a line.
def behind (key : SortKey) (tab : Option Char) (line : List Char) : List Char :=
  match key.stop with
  | none => []
  | some ⟨field, 0⟩ =>
      match tab with
      | some tab => (skipFields (some tab) field line).dropWhile (· ≠ tab)
      | none => skipFields none (field + 1) line
  | some ⟨field, character⟩ =>
      (skipBlanks key.skipsStop (skipFields tab field line)).drop character

def part (key : SortKey) (tab : Option Char) (line : List Char) : List Char :=
  let begun :=
    (skipBlanks key.skipsStart (skipFields tab key.start.field line)).drop key.start.character
  begun.take (begun.length - (key.behind tab line).length)

def rank (key : SortKey) (tab : Option Char) (line : List Char) : Rank :=
  let part := key.part tab line
  let has := key.letters.contains
  if has 'n' then .ofNumber false part
  else if has 'h' then .ofNumber true part
  else if has 'g' then .ofFraction part
  else if has 'M' then .ofMonth part
  else if has 'V' then .version part
  else
    let kept :=
      if has 'd' then part.filter fun c => isBlank c || c.isAlphanum
      else if has 'i' then part.filter fun c => ' ' ≤ c && c ≤ '~'
      else part
    .bytes (if has 'f' then kept.map Char.toUpper else kept)

-- The letters that do not go together, if there are any.
def conflict? (key : SortKey) : Option (List Char) :=
  let has := key.letters.contains
  let kinds := ['g', 'h', 'M', 'n'].countP has
  let others := has 'V' || has 'R' || has 'd' || has 'i'
  if 1 < kinds + (if others then 1 else 0) then
    some (['d', 'f', 'g', 'h', 'i', 'M', 'n', 'R', 'V'].filter has)
  else none

def orderingLetters : List Char := ['b', 'd', 'f', 'g', 'h', 'i', 'M', 'n', 'R', 'r', 'V']

def readCount (spec : List Char) (purpose : String) : Except String (Nat × List Char) :=
  let digits := spec.takeWhile Char.isDigit
  let shown := Quoting.curly (String.ofList spec)
  if digits.isEmpty then .error s!"{purpose}: invalid count at start of {shown}"
  else .ok (digitsValue digits, spec.dropWhile Char.isDigit)

-- A key as it is written: its start, letters, and perhaps its end and more letters.
def read (text : String) : Except String SortKey := do
  let shown := Quoting.curly text
  let invalid := fun (cause : String) => s!"{cause}: invalid field specification {shown}"
  let (field, rest) ← readCount text.toList "invalid number at field start"
  if field = 0 then throw (invalid "field number is zero")
  let (character, rest) ←
    match rest with
    | '.' :: rest => do
        let (n, rest) ← readCount rest "invalid number after '.'"
        if n = 0 then throw (invalid "character offset is zero")
        pure (n - 1, rest)
    | rest => pure (0, rest)
  let letters := rest.takeWhile orderingLetters.contains
  let key : SortKey :=
    { start := ⟨field - 1, character⟩, stop := none, skipsStart := letters.contains 'b'
      skipsStop := false, letters := letters.filter (· ≠ 'b') }
  match rest.dropWhile orderingLetters.contains with
  | [] => return key
  | ',' :: rest => do
      let (field, rest) ← readCount rest "invalid number after ','"
      if field = 0 then throw (invalid "field number is zero")
      let (character, rest) ←
        match rest with
        | '.' :: rest => readCount rest "invalid number after '.'"
        | rest => pure (0, rest)
      let more := rest.takeWhile orderingLetters.contains
      if !(rest.dropWhile orderingLetters.contains).isEmpty then
        throw (invalid "stray character in field spec")
      return { key with
        stop := some ⟨field - 1, character⟩, skipsStop := more.contains 'b'
        letters := key.letters ++ more.filter (· ≠ 'b') }
  | _ => throw (invalid "stray character in field spec")

end SortKey

end JobScheduler.Shell.Utility
