import JobScheduler.Shell.Octets

namespace JobScheduler.Shell

-- The bytes of one character.
abbrev Letter := List Char

-- Patterns for parts of lines.
inductive Regex
  | empty
  | exactly (letter : Letter)
  | any
  | oneOf (negated : Bool) (ranges : List (Letter × Letter))
  | start
  | stop
  | wordStart
  | wordStop
  | boundary
  | inside
  | group (number : Nat) (inner : Regex)
  -- What a group has matched.
  | again (number : Nat)
  | both (first second : Regex)
  | either (first second : Regex)
  | repeated (inner : Regex) (least : Nat) (most : Option Nat)
deriving Repr

namespace Regex

-- What a pattern is held against.
structure Subject where
  letters : Array Letter
  ignoresCase : Bool

def Subject.ofBytes (ignoresCase : Bool) (bytes : List Char) : Subject :=
  ⟨(characters bytes).toArray, ignoresCase⟩

-- How far a match has come, and what its groups have matched, the last one first.
structure Reach where
  position : Nat
  groups : List (Nat × Nat × Nat)
deriving DecidableEq, Repr

def Reach.group? (reach : Reach) (number : Nat) : Option (Nat × Nat) := reach.groups.lookup number

def fold (subject : Subject) (letter : Letter) : Letter :=
  if subject.ignoresCase then letter.map Char.toLower else letter

def notAbove : Letter → Letter → Bool
  | [], _ => true
  | _ :: _, [] => false
  | a :: as, b :: bs => a < b || (a = b && notAbove as bs)

-- Whether bytes are a character and not one byte that belongs to none.
def isWhole : Letter → Bool
  | [c] => c.toNat < 128
  | _ => true

def inRanges (ranges : List (Letter × Letter)) (letter : Letter) : Bool :=
  ranges.any fun range => notAbove range.1 letter && notAbove letter range.2

def accepts (subject : Subject) (negated : Bool) (ranges : List (Letter × Letter))
    (letter : Letter) : Bool :=
  let found := inRanges ranges letter ||
    (subject.ignoresCase &&
      (inRanges ranges (letter.map Char.toLower) || inRanges ranges (letter.map Char.toUpper)))
  found != negated && isWhole letter

def isWord : Letter → Bool
  | [c] => isNamePart c
  | _ => true

def wordAt (subject : Subject) (position : Nat) : Bool :=
  (subject.letters[position]?).any isWord

def wordBefore (subject : Subject) (position : Nat) : Bool :=
  position ≠ 0 && wordAt subject (position - 1)

def Reach.step (reach : Reach) (ok : Bool) (size : Nat) : List Reach :=
  if ok then [{ reach with position := reach.position + size }] else []

-- The first of those that have come equally far.
def distinct : List Nat → List Reach → List Reach
  | _, [] => []
  | seen, reach :: rest =>
      if seen.contains reach.position then distinct seen rest
      else reach :: distinct (reach.position :: seen) rest

-- Those that have come farther first.
def farthestFirst (reaches : List Reach) : List Reach :=
  distinct [] (reaches.mergeSort fun a b => b.position ≤ a.position)

-- Takes a step as often as is allowed. A step that leads nowhere ends it.
def repeatedly (step : Reach → List Reach) (least : Nat) (most : Option Nat) :
    Nat → Nat → List Reach → List (List Reach)
  | 0, _, _ => []
  | fuel + 1, count, reaches =>
      let here := if least ≤ count then [reaches] else []
      if reaches.isEmpty || most = some count then here
      else
        let next := distinct [] (reaches.flatMap fun reach =>
          (step reach).filter fun next => count < least || reach.position < next.position)
        here ++ repeatedly step least most fuel (count + 1) next

-- Where a match can come to from a place, the better ones first.
def run (subject : Subject) : Regex → Reach → List Reach
  | .empty, reach => [reach]
  | .exactly letter, reach =>
      reach.step
        ((subject.letters[reach.position]?).any fun other =>
          other == letter || (subject.ignoresCase && fold subject other == fold subject letter)) 1
  | .any, reach => reach.step ((subject.letters[reach.position]?).any isWhole) 1
  | .oneOf negated ranges, reach =>
      reach.step ((subject.letters[reach.position]?).any (accepts subject negated ranges)) 1
  | .start, reach => reach.step (reach.position = 0) 0
  | .stop, reach => reach.step (reach.position = subject.letters.size) 0
  | .wordStart, reach =>
      reach.step (wordAt subject reach.position && !wordBefore subject reach.position) 0
  | .wordStop, reach =>
      reach.step (wordBefore subject reach.position && !wordAt subject reach.position) 0
  | .boundary, reach =>
      reach.step (wordBefore subject reach.position != wordAt subject reach.position) 0
  | .inside, reach =>
      reach.step (wordBefore subject reach.position == wordAt subject reach.position) 0
  | .group number inner, reach =>
      (run subject inner reach).map fun next =>
        { next with groups := (number, reach.position, next.position) :: next.groups }
  | .again number, reach =>
      match reach.group? number with
      | none => []
      | some (low, high) =>
          let size := high - low
          let ok := (List.range size).all fun i =>
            (subject.letters[low + i]?).map (fold subject) =
              (subject.letters[reach.position + i]?).map (fold subject)
          reach.step ok size
  | .both first second, reach =>
      distinct [] ((run subject first reach).flatMap (run subject second))
  | .either first second, reach =>
      farthestFirst (run subject first reach ++ run subject second reach)
  | .repeated inner least most, reach =>
      farthestFirst (repeatedly (run subject inner) least most
        (subject.letters.size + least + 2) 0 [reach]).flatten

structure Match where
  start : Nat
  stop : Nat
  groups : List (Nat × Nat × Nat)
deriving Repr

-- The longest match that begins at a place.
def matchAt? (regex : Regex) (subject : Subject) (start : Nat) : Option Match :=
  ((farthestFirst (regex.run subject ⟨start, []⟩)).head?).map fun reach =>
    ⟨start, reach.position, reach.groups⟩

-- The first match from a place on.
def find? (regex : Regex) (subject : Subject) (start : Nat) : Option Match :=
  (List.range (subject.letters.size + 1 - start)).findSome? fun i =>
    regex.matchAt? subject (start + i)

def Subject.slice (subject : Subject) (low high : Nat) : List Char :=
  (subject.letters.toList.drop low).take (high - low) |>.flatten

def Match.group? (found : Match) (number : Nat) : Option (Nat × Nat) :=
  if number = 0 then some (found.start, found.stop) else found.groups.lookup number

end Regex

end JobScheduler.Shell
