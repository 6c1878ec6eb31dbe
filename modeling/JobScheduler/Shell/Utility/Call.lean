import JobScheduler.Shell.Utility.Basic

namespace JobScheduler.Shell

-- The options that a utility knows. A letter stands with one colon if it takes a value and
-- with two if it can have one attached. Words stand for letters.
structure Manual where
  letters : String
  words : List (String × Char) := []
  -- Options end with the first operand.
  strict : Bool := false
  -- A negative number is an operand.
  numbers : Bool := false

-- Options with their values, in order, and operands.
structure Call where
  options : List (Char × String)
  operands : List String

namespace Call

inductive Arity
  | bare | valued | attached
deriving DecidableEq, Repr

def arityIn (letter : Char) : List Char → Option Arity
  | [] => none
  | c :: ':' :: ':' :: rest => if c = letter then some .attached else arityIn letter rest
  | c :: ':' :: rest => if c = letter then some .valued else arityIn letter rest
  | c :: rest => if c = letter then some .bare else arityIn letter rest

def arity? (manual : Manual) (letter : Char) : Option Arity :=
  arityIn letter manual.letters.toList

-- The letters of one argument. The value of the last one may be the next argument.
def readLetters (manual : Manual) :
    List Char → List String → Except String (List (Char × String) × List String)
  | [], rest => .ok ([], rest)
  | c :: more, rest =>
      match arity? manual c, more, rest with
      | none, _, _ => .error s!"invalid option -- '{c}'"
      | some .bare, more, rest => do
          let (found, rest) ← readLetters manual more rest
          return ((c, "") :: found, rest)
      | some .attached, more, rest => .ok ([(c, String.ofList more)], rest)
      | some .valued, [], [] => .error s!"option requires an argument -- '{c}'"
      | some .valued, [], value :: rest => .ok ([(c, value)], rest)
      | some .valued, more, rest => .ok ([(c, String.ofList more)], rest)

-- Stands for the words that ask about the utility and not for what it does.
def about : Char := '?'

-- A word may be cut short as long as it is clear which one is meant.
def findWord (manual : Manual) (word : String) : Except String (String × Char) :=
  let known := manual.words ++ [("help", about), ("version", about)]
  match known.find? fun entry => entry.1 == word with
  | some entry => .ok entry
  | none =>
      match known.filter fun entry => entry.1.startsWith word with
      | [] => .error s!"unrecognized option '--{word}'"
      | first :: rest =>
          if rest.all fun entry => entry.2 = first.2 then .ok first
          else
            let shown := (first :: rest).map fun entry => s!" '--{entry.1}'"
            .error s!"option '--{word}' is ambiguous; possibilities:{String.join shown}"

def readWord (manual : Manual) (text : List Char) (rest : List String) :
    Except String ((Char × String) × List String) := do
  let name := String.ofList (text.takeWhile (· ≠ '='))
  let attached : Option String :=
    match text.dropWhile (· ≠ '=') with
    | [] => none
    | _ :: value => some (String.ofList value)
  match findWord manual name with
  | .error message =>
      throw (if message.startsWith "unrecognized" then
        s!"unrecognized option '--{String.ofList text}'" else message)
  | .ok (word, letter) =>
      match arity? manual letter, attached, rest with
      | some .valued, some value, rest => return ((letter, value), rest)
      | some .valued, none, value :: rest => return ((letter, value), rest)
      | some .valued, none, [] => throw s!"option '--{word}' requires an argument"
      | some .attached, value, rest => return ((letter, value.getD ""), rest)
      | _, some _, _ => throw s!"option '--{word}' doesn't allow an argument"
      | _, none, rest => return ((letter, ""), rest)

def readFrom (manual : Manual) : Nat → List String → Except String Call
  | 0, arguments => .ok ⟨[], arguments⟩
  | _, [] => .ok ⟨[], []⟩
  | fuel + 1, first :: rest =>
      match first.toList with
      | ['-', '-'] => .ok ⟨[], rest⟩
      | '-' :: '-' :: word => do
          let (option, rest) ← readWord manual word rest
          let call ← readFrom manual fuel rest
          return { call with options := option :: call.options }
      | '-' :: c :: letters => do
          if manual.numbers && (c.isDigit || c = '.') then return ⟨[], first :: rest⟩
          let (options, rest) ← readLetters manual (c :: letters) rest
          let call ← readFrom manual fuel rest
          return { call with options := options ++ call.options }
      | _ => do
          if manual.strict then return ⟨[], first :: rest⟩
          let call ← readFrom manual fuel rest
          return { call with operands := first :: call.operands }

def has (call : Call) (letter : Char) : Bool :=
  call.options.any fun option => option.1 == letter

def count (call : Call) (letter : Char) : Nat :=
  (call.options.filter fun option => option.1 == letter).length

-- The value of the last option with a letter.
def value? (call : Call) (letter : Char) : Option String :=
  (call.options.reverse.find? fun option => option.1 == letter).map (·.2)

def values (call : Call) (letter : Char) : List String :=
  (call.options.filter fun option => option.1 == letter).map (·.2)

-- The last option that is one of the letters.
def last? (call : Call) (letters : List Char) : Option Char :=
  (call.options.reverse.find? fun option => letters.contains option.1).map (·.1)

end Call

namespace UtilityM

def call (status : Nat) (manual : Manual) : UtilityM Call := do
  let arguments := (← read).arguments
  match Call.readFrom manual (arguments.length + 1) arguments with
  | .ok call => if call.has Call.about then leave 0 else return call
  | .error message => refuse status message

-- Refuses to go on without an operand.
def needOperand (call : Call) (status : Nat) : UtilityM Unit := do
  if call.operands.isEmpty then refuse status "missing operand"

def extraOperand (status : Nat) (operand : String) : UtilityM α :=
  refuse status s!"extra operand {Quoting.curly operand}"

end UtilityM

end JobScheduler.Shell

namespace JobScheduler.Shell.Utility

-- Numbers with a letter behind them that multiplies them.

inductive Amount
  | exactly (value : Nat)
  | tooLarge
  | wrong
deriving DecidableEq, Repr

namespace Amount

def powers : List Char := ['K', 'M', 'G', 'T', 'P', 'E', 'Z', 'Y', 'R', 'Q']

def scale? (suffix : List Char) : Option Nat :=
  match suffix with
  | [] => some 1
  | ['b'] => some 512
  | letter :: rest =>
      let letter := if letter = 'k' || letter = 'm' then letter.toUpper else letter
      match powers.idxOf? letter, rest with
      | some i, [] | some i, ['i', 'B'] => some (Nat.pow 1024 (i + 1))
      | some i, ['B'] => some (Nat.pow 1000 (i + 1))
      | _, _ => none

-- A number below the limit that words have.
def read (text : String) : Amount :=
  let cs := text.toList
  let cs := if cs.head? = some '+' then cs.drop 1 else cs
  let digits := cs.takeWhile Char.isDigit
  match scale? (cs.dropWhile Char.isDigit) with
  | none => .wrong
  | some scale =>
      if digits.isEmpty then .wrong
      else
        let value := digitsValue digits * scale
        if value < Nat.pow 2 64 then .exactly value else .tooLarge

end Amount

end JobScheduler.Shell.Utility
