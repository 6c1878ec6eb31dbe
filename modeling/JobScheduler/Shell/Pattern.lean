namespace JobScheduler.Shell

-- One item of a pattern for names: a character itself, any character, any characters, or
-- one of a set.
inductive PatternItem
  | exactly (c : Char)
  | one
  | many
  | oneOf (negated : Bool) (ranges : List (Char × Char))
deriving DecidableEq, Repr

abbrev Pattern := List PatternItem

namespace Pattern

def inRanges (c : Char) (ranges : List (Char × Char)) : Bool :=
  ranges.any fun range => range.1 ≤ c && c ≤ range.2

-- The suffixes of a text, the longest first.
def suffixes : List Char → List (List Char)
  | [] => [[]]
  | c :: rest => (c :: rest) :: suffixes rest

def fits : Pattern → List Char → Bool
  | [], cs => cs.isEmpty
  | .many :: pattern, cs => (suffixes cs).any (fits pattern)
  | _ :: _, [] => false
  | .exactly d :: pattern, c :: cs => c == d && fits pattern cs
  | .one :: pattern, _ :: cs => fits pattern cs
  | .oneOf negated ranges :: pattern, c :: cs => inRanges c ranges != negated && fits pattern cs

-- Characters come with a mark that says whether they are quoted. Quoted ones stand for
-- themselves.
abbrev Marked := Char × Bool

def classRanges : String → Option (List (Char × Char))
  | "alpha" => some [('A', 'Z'), ('a', 'z')]
  | "digit" => some [('0', '9')]
  | "alnum" => some [('0', '9'), ('A', 'Z'), ('a', 'z')]
  | "upper" => some [('A', 'Z')]
  | "lower" => some [('a', 'z')]
  | "space" => some [('\t', '\x0d'), (' ', ' ')]
  | "blank" => some [('\t', '\t'), (' ', ' ')]
  | "punct" => some [('!', '/'), (':', '@'), ('[', '\x60'), ('\x7b', '~')]
  | "xdigit" => some [('0', '9'), ('A', 'F'), ('a', 'f')]
  | "cntrl" => some [('\x00', '\x1f'), ('\x7f', '\x7f')]
  | "print" => some [(' ', '~')]
  | "graph" => some [('!', '~')]
  | _ => none

-- A named class, after its opening bracket and colon.
def namedClass? (cs : List Marked) : Option (List (Char × Char) × List Marked) :=
  match cs.dropWhile (·.1.isAlpha) with
  | (':', _) :: (']', _) :: rest =>
      (classRanges (String.ofList ((cs.takeWhile (·.1.isAlpha)).map (·.1)))).map (·, rest)
  | _ => none

-- The ranges of a set up to its closing bracket. A bracket that comes first belongs to it.
def ranges? : Nat → Bool → List Marked → Option (List (Char × Char) × List Marked)
  | 0, _, _ => none
  | _, _, [] => none
  | fuel + 1, first, (c, quoted) :: rest =>
      if c == ']' && !quoted && !first then some ([], rest)
      else
        match (if c == '[' && !quoted && rest.head?.map (·.1) == some ':' then
            namedClass? (rest.drop 1) else none), rest with
        | some (ranges, rest), _ =>
            (ranges? fuel false rest).map fun more => (ranges ++ more.1, more.2)
        | none, ('-', false) :: (d, dQuoted) :: rest' =>
            if d == ']' && !dQuoted then
              (ranges? fuel false rest).map fun more => ((c, c) :: more.1, more.2)
            else (ranges? fuel false rest').map fun more => ((c, d) :: more.1, more.2)
        | none, _ => (ranges? fuel false rest).map fun more => ((c, c) :: more.1, more.2)

def set? (cs : List Marked) : Option (PatternItem × List Marked) :=
  match cs with
  | ('!', false) :: rest =>
      (ranges? (rest.length + 1) true rest).map fun (ranges, rest) => (.oneOf true ranges, rest)
  | rest =>
      (ranges? (rest.length + 1) true rest).map fun (ranges, rest) => (.oneOf false ranges, rest)

def readFrom : Nat → List Marked → Pattern
  | 0, _ => []
  | _, [] => []
  | fuel + 1, (c, quoted) :: rest =>
      if quoted then .exactly c :: readFrom fuel rest
      else
        match c with
        | '*' => .many :: readFrom fuel rest
        | '?' => .one :: readFrom fuel rest
        | '\\' =>
            match rest with
            | (d, _) :: rest => .exactly d :: readFrom fuel rest
            | [] => [.exactly '\\']
        | '[' =>
            match set? rest with
            | some (item, rest) => item :: readFrom fuel rest
            | none => .exactly '[' :: readFrom fuel rest
        | c => .exactly c :: readFrom fuel rest

def read (cs : List Marked) : Pattern := readFrom (cs.length + 1) cs

-- Whether a text has characters that make it a pattern.
def isWild (cs : List Marked) : Bool :=
  cs.any fun (c, quoted) => !quoted && (c == '*' || c == '?' || c == '[')

-- Cuts the shortest or the longest end off a text that fits.
def dropEnd (pattern : Pattern) (longest : Bool) (cs : List Char) : List Char :=
  let cuts := (List.range (cs.length + 1)).filter fun n => fits pattern (cs.drop n)
  match if longest then cuts.head? else cuts.getLast? with
  | some n => cs.take n
  | none => cs

def dropStart (pattern : Pattern) (longest : Bool) (cs : List Char) : List Char :=
  let cuts := (List.range (cs.length + 1)).filter fun n => fits pattern (cs.take n)
  match if longest then cuts.getLast? else cuts.head? with
  | some n => cs.drop n
  | none => cs

end Pattern

end JobScheduler.Shell
