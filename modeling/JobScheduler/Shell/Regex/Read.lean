import JobScheduler.Shell.Pattern
import JobScheduler.Shell.Regex

namespace JobScheduler.Shell.Regex

-- Patterns as they are written, in the basic or in the extended form.

inductive Mark
  | atom (regex : Regex)
  | opening
  | closing
  | bar
  | count (least : Nat) (most : Option Nat)

inductive Fault
  | unmatchedOpening | unmatchedClosing | unmatchedBracket | unmatchedBrace | invalidBrace
  | invalidPreceding | invalidReference | trailingBackslash | invalidClass | invalidRange | invalidPattern
deriving DecidableEq, Repr

def Fault.message : Fault → String
  | .unmatchedOpening => "Unmatched ( or \\("
  | .unmatchedClosing => "Unmatched ) or \\)"
  | .unmatchedBracket => "Unmatched [, [^, [:, [., or [="
  | .unmatchedBrace => "Unmatched \\\x7b"
  | .invalidBrace => "Invalid content of \\\x7b\\\x7d"
  | .invalidPreceding => "Invalid preceding regular expression"
  | .invalidReference => "Invalid back reference"
  | .trailingBackslash => "Trailing backslash"
  | .invalidClass => "Invalid character class name"
  | .invalidRange => "Invalid range end"
  | .invalidPattern => "Invalid regular expression"

def single (c : Char) : Letter := [c]

def classRanges? (name : String) : Option (List (Letter × Letter)) :=
  (Pattern.classRanges name).map fun ranges =>
    ranges.map fun range => (single range.1, single range.2)

-- What stands between two marks inside a bracket.
def bracketed? (mark : Letter) : List Letter → Option (List Letter × List Letter)
  | a :: b :: rest =>
      if a = mark && b = [']'] then some ([], rest)
      else (bracketed? mark (b :: rest)).map fun found => (a :: found.1, found.2)
  | _ => none

-- The members of a set up to its closing bracket. One that comes first is a member.
def readSet : Nat → Bool → List Letter → Except Fault (List (Letter × Letter) × List Letter)
  | 0, _, _ | _, _, [] => .error .unmatchedBracket
  | fuel + 1, first, c :: rest => do
      if c = [']'] && !first then return ([], rest)
      let add := fun (ranges : List (Letter × Letter)) (rest : List Letter) => do
        let (more, rest) ← readSet fuel false rest
        return (ranges ++ more, rest)
      let special := if c = ['['] then rest.head? else none
      match special with
      | some [':'] =>
          match bracketed? [':'] (rest.drop 1) with
          | none => throw .unmatchedBracket
          | some (name, rest) =>
              match classRanges? (String.ofList name.flatten) with
              | some ranges => add ranges rest
              | none => throw .invalidClass
      | some ['='] | some ['.'] =>
          match bracketed? (rest.headD []) (rest.drop 1) with
          | some ([only], rest) => add [(only, only)] rest
          | _ => throw .unmatchedBracket
      | _ =>
          match rest with
          | ['-'] :: d :: rest' =>
              if d = [']'] then add [(c, c)] rest
              else if notAbove c d then add [(c, d)] rest'
              else throw .invalidRange
          | rest => add [(c, c)] rest

def wordRanges : List (Letter × Letter) :=
  [(['0'], ['9']), (['A'], ['Z']), (['_'], ['_']), (['a'], ['z']), (['\x80'], ['\xff'])]

def spaceRanges : List (Letter × Letter) := [(['\t'], ['\r']), ([' '], [' '])]

-- What a backslash makes of a character that it does not quote.
def escapeMark? : Char → Option Regex
  | 'w' => some (.oneOf false wordRanges)
  | 'W' => some (.oneOf true wordRanges)
  | 's' => some (.oneOf false spaceRanges)
  | 'S' => some (.oneOf true spaceRanges)
  | 'b' => some .boundary
  | 'B' => some .inside
  | '<' => some .wordStart
  | '>' => some .wordStop
  | '\x60' => some .start
  | '\x27' => some .stop
  | 'n' => some (.exactly ['\n'])
  | _ => none

-- The numbers in braces, up to the closing one.
def readBraces (extended : Bool) (rest : List Letter) :
    Except Fault ((Nat × Option Nat) × List Letter) := do
  let cs := rest.map fun letter => letter.headD ' '
  let low := cs.takeWhile Char.isDigit
  let after := cs.drop low.length
  let (high, after) : Option (List Char) × List Char :=
    match after with
    | ',' :: more => (some (more.takeWhile Char.isDigit), more.dropWhile Char.isDigit)
    | after => (none, after)
  let closing := if extended then ['\x7d'] else ['\\', '\x7d']
  if !closing.isPrefixOf after then
    throw (if after.isEmpty then .unmatchedBrace else .invalidBrace)
  let rest := rest.drop (rest.length - after.length + closing.length)
  let least := digitsValue low
  match high with
  | none => if low.isEmpty then throw .invalidBrace else return ((least, some least), rest)
  | some [] => return ((least, none), rest)
  | some digits =>
      if digitsValue digits < least then throw .invalidBrace
      return ((least, some (digitsValue digits)), rest)

-- Whether there is nothing but numbers up to a closing brace.
def closesBraces (rest : List Letter) : Bool :=
  let isPart := fun (letter : Letter) => letter.all fun c => c.isDigit || c = ','
  !(rest.takeWhile isPart).isEmpty && (rest.dropWhile isPart).head? = some ['\x7d']

-- Whether an anchor or a count has something in front of it.
def isOpen : List Mark → Bool
  | [] | .opening :: _ | .bar :: _ => true
  | _ => false

-- Whether what follows ends a pattern or a branch of it.
def ends (extended : Bool) (rest : List Letter) : Bool :=
  match rest with
  | [] => true
  | ['\\'] :: [')'] :: _ | ['\\'] :: ['|'] :: _ => !extended
  | [')'] :: _ | ['|'] :: _ => extended
  | _ => false

def onlyStarts : List Mark → Bool
  | .atom .start :: rest => isOpen rest
  | marks => isOpen marks

-- The marks of a pattern, the last one first.
def readMarks (extended : Bool) : Nat → List Mark → List Letter → Except Fault (List Mark)
  | 0, marks, _ | _, marks, [] => .ok marks
  | fuel + 1, marks, letter :: rest => do
      let skip := fun (rest : List Letter) => readMarks extended fuel marks rest
      let go := fun (mark : Mark) (rest : List Letter) =>
        readMarks extended fuel (mark :: marks) rest
      let plain := fun (letter : Letter) (rest : List Letter) => go (.atom (.exactly letter)) rest
      let braces := fun (rest : List Letter) => do
        let ((least, most), rest) ← readBraces extended rest
        go (.count least most) rest
      match letter, rest with
      | ['\\'], [] => throw .trailingBackslash
      | ['\\'], next :: rest =>
          match next with
          | [c] =>
              if !extended && c = '(' then go .opening rest
              else if !extended && c = ')' then go .closing rest
              else if !extended && c = '|' then go .bar rest
              else if !extended && c = '\x7b' then
                if isOpen marks then throw .invalidPreceding else braces rest
              else if !extended && c = '+' && !isOpen marks then go (.count 1 none) rest
              else if !extended && c = '?' && !isOpen marks then go (.count 0 (some 1)) rest
              else if '1' ≤ c && c ≤ '9' then go (.atom (.again (c.toNat - 48))) rest
              else
                match escapeMark? c with
                | some regex => go (.atom regex) rest
                | none => plain next rest
          | next => plain next rest
      | ['.'], rest => go (.atom .any) rest
      | ['['], rest => do
          let negated := rest.head? = some ['^']
          let rest := if negated then rest.drop 1 else rest
          if rest.isEmpty then throw .invalidPattern
          let (ranges, rest) ← readSet (rest.length + 1) true rest
          go (.atom (.oneOf negated ranges)) rest
      | ['*'], rest =>
          if !onlyStarts marks then go (.count 0 none) rest
          else if extended then skip rest
          else plain ['*'] rest
      | ['^'], rest =>
          if extended || isOpen marks then go (.atom .start) rest else plain ['^'] rest
      | ['$'], rest =>
          if extended || ends extended rest then go (.atom .stop) rest else plain ['$'] rest
      | [c], rest =>
          if !extended then plain [c] rest
          else
            match c with
            | '(' => go .opening rest
            | ')' => go .closing rest
            | '|' => go .bar rest
            | '+' => if isOpen marks then skip rest else go (.count 1 none) rest
            | '?' => if isOpen marks then skip rest else go (.count 0 (some 1)) rest
            | '\x7b' =>
                if isOpen marks then plain [c] rest
                else
                  match readBraces true rest with
                  | .ok ((least, most), rest) => go (.count least most) rest
                  | .error fault => if closesBraces rest then throw fault else plain [c] rest
            | c => plain [c] rest
      | letter, rest => plain letter rest

def andThen : Regex → Regex → Regex
  | .empty, second => second
  | first, second => .both first second

-- What was read of a pattern, the number of groups in it, and what follows.
abbrev Parsed := Except Fault (Regex × Nat × List Mark)

mutual

def readAlternatives : Nat → Nat → List Mark → Parsed
  | 0, groups, marks => .ok (.empty, groups, marks)
  | fuel + 1, groups, marks => do
      let (first, groups, rest) ← readSequence fuel groups .empty marks
      match rest with
      | .bar :: rest => do
          let (second, groups, rest) ← readAlternatives fuel groups rest
          return (.either first second, groups, rest)
      | rest => return (first, groups, rest)

def readSequence : Nat → Nat → Regex → List Mark → Parsed
  | 0, groups, done, marks => .ok (done, groups, marks)
  | fuel + 1, groups, done, marks => do
      match marks with
      | [] | .bar :: _ | .closing :: _ => return (done, groups, marks)
      | .count .. :: rest => readSequence fuel groups done rest
      | .atom (.again number) :: rest => do
          if groups < number then throw .invalidReference
          readCounted fuel groups done (.again number) rest
      | .atom regex :: rest => readCounted fuel groups done regex rest
      | .opening :: rest => do
          let number := groups + 1
          let (inner, groups, rest) ← readAlternatives fuel number rest
          match rest with
          | .closing :: rest => readCounted fuel groups done (.group number inner) rest
          | _ => throw .unmatchedOpening

-- What follows an atom may say how often it is there.
def readCounted : Nat → Nat → Regex → Regex → List Mark → Parsed
  | 0, groups, done, regex, marks => .ok (.both done regex, groups, marks)
  | fuel + 1, groups, done, regex, marks =>
      match marks with
      | .count least most :: rest => readCounted fuel groups done (.repeated regex least most) rest
      | rest => readSequence fuel groups (done.andThen regex) rest

end

-- Lets a closing parenthesis that nothing has opened stand for itself.
def closeOpened : Nat → List Mark → List Mark
  | _, [] => []
  | depth, .opening :: rest => .opening :: closeOpened (depth + 1) rest
  | 0, .closing :: rest => .atom (.exactly [')']) :: closeOpened 0 rest
  | depth + 1, .closing :: rest => .closing :: closeOpened depth rest
  | depth, mark :: rest => mark :: closeOpened depth rest

-- The pattern that a text writes, and the number of its groups.
def read (extended : Bool) (text : List Char) : Except Fault (Regex × Nat) := do
  let letters := characters text
  let marks ← readMarks extended (letters.length + 1) [] letters
  let size := 4 * marks.length + 8
  let marks := if extended then closeOpened 0 marks.reverse else marks.reverse
  let (regex, groups, rest) ← readAlternatives size 0 marks
  if rest.isEmpty then return (regex, groups) else throw .unmatchedClosing

-- A pattern that fits a text and nothing else.
def literal (text : List Char) : Regex :=
  (characters text).foldr (fun letter rest => .both (.exactly letter) rest) .empty

end JobScheduler.Shell.Regex
