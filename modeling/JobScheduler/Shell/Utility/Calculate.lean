import JobScheduler.Shell.Regex.Read
import JobScheduler.Shell.Utility.Call

namespace JobScheduler.Shell.Utility

open UtilityM

-- The utility that works out expressions whose parts are its arguments.

namespace Calculation

inductive Value
  | number (n : Int)
  | text (cs : List Char)

namespace Value

def cs : Value → List Char
  | .number n => (toString n).toList
  | .text cs => cs

-- A text that is a number counts as one.
def number? : Value → Option Int
  | .number n => some n
  | .text cs =>
      match cs with
      | '-' :: rest => if isDigits rest then some (-(digitsValue rest : Int)) else none
      | rest => if isDigits rest then some (digitsValue rest) else none

-- Whether a value is nothing or zero.
def isNull (value : Value) : Bool :=
  match value.cs with
  | [] => true
  | ['-'] => false
  | '-' :: rest | rest => rest.all (· = '0')

end Value

structure Fault where
  status : Nat
  message : String

-- The arguments that are left, and the one before them.
structure Words where
  rest : List String
  before : String

abbrev Reading := StateT Words (Except Fault)

def syntaxFault (message : String) : Reading α := throw ⟨2, "syntax error: " ++ message⟩

def next : Reading String := do
  match ← get with
  | ⟨[], before⟩ => syntaxFault ("missing argument after " ++ Quoting.curly before)
  | ⟨word :: rest, _⟩ => do
      set (⟨rest, word⟩ : Words)
      return word

-- Takes the next argument if it is one of the words.
def accept? (words : List String) : Reading (Option String) := do
  match ← get with
  | ⟨word :: rest, _⟩ =>
      if words.contains word then
        set (⟨rest, word⟩ : Words)
        return some word
      else return none
  | _ => return none

def nonInteger : Fault := ⟨2, "non-integer argument"⟩

def whole (value : Value) : Reading Int := do
  match value.number? with
  | some n => return n
  | none => throw nonInteger

-- What a pattern that fits the beginning of a text gives: its first group, or its length.
def matched (text pattern : List Char) : Reading Value := do
  match Regex.read false pattern with
  | .error fault => throw ⟨2, fault.message⟩
  | .ok (regex, groups) =>
      let subject := Regex.Subject.ofBytes false text
      match regex.matchAt? subject 0, groups with
      | none, 0 => return .number 0
      | none, _ => return .text []
      | some found, 0 => return .number found.stop
      | some found, _ =>
          match found.group? 1 with
          | some (low, high) => return .text (subject.slice low high)
          | none => return .text []

def compared (word : String) (a b : Value) : Value :=
  let order :=
    match a.number?, b.number? with
    | some x, some y => compare x y
    | _, _ => compare (String.ofList a.cs) (String.ofList b.cs)
  let holds :=
    match word with
    | "<" => order.isLT
    | "<=" => order.isLE
    | "=" | "==" => order.isEq
    | "!=" => order.isNe
    | ">=" => order.isGE
    | _ => order.isGT
  .number (if holds then 1 else 0)

def scaled (word : String) (x y : Int) : Reading Value := do
  if word == "*" then return .number (x * y)
  if y = 0 then throw ⟨2, "division by zero"⟩
  return .number (if word == "/" then x.tdiv y else x.tmod y)

def positionOf (text members : List Char) : Nat :=
  match (characters text).findIdx? fun c => (characters members).contains c with
  | some i => i + 1
  | none => 0

def part (text : List Char) (start size : Value) : List Char :=
  match start.number?, size.number? with
  | some start, some size =>
      if start ≤ 0 || size ≤ 0 then []
      else (((characters text).drop (start.toNat - 1)).take size.toNat).flatten
  | _, _ => []

-- The operators that bind more and more strongly, up to the one for patterns.
inductive Level
  | comparison | sum | product | pattern

def Level.operators : Level → List String
  | .comparison => ["<", "<=", "=", "==", "!=", ">=", ">"]
  | .sum => ["+", "-"]
  | .product => ["*", "/", "%"]
  | .pattern => [":"]

def Level.apply (level : Level) (works : Bool) (word : String) (a b : Value) : Reading Value := do
  match level with
  | .comparison => return compared word a b
  | .sum => do
      if !works then return .number 0
      let x ← whole a
      let y ← whole b
      return .number (if word == "+" then x + y else x - y)
  | .product => do
      if !works then return .number 0
      scaled word (← whole a) (← whole b)
  | .pattern => if works then matched a.cs b.cs else return .number 0

mutual

-- The value of alternatives. What cannot count any more is not worked out.
def disjunction : Nat → Bool → Reading Value
  | 0, _ => syntaxFault "too many words"
  | fuel + 1, works => do moreOr fuel works (← conjunction fuel works)

def moreOr : Nat → Bool → Value → Reading Value
  | 0, _, value => return value
  | fuel + 1, works, value => do
      match ← accept? ["|"] with
      | none => return value
      | some _ => do
          let other ← conjunction fuel (works && value.isNull)
          let other := if other.isNull then .number 0 else other
          moreOr fuel works (if value.isNull then other else value)

def conjunction : Nat → Bool → Reading Value
  | 0, _ => syntaxFault "too many words"
  | fuel + 1, works => do moreAnd fuel works (← binary fuel works .comparison)

def moreAnd : Nat → Bool → Value → Reading Value
  | 0, _, value => return value
  | fuel + 1, works, value => do
      match ← accept? ["&"] with
      | none => return value
      | some _ => do
          let other ← binary fuel (works && !value.isNull) .comparison
          moreAnd fuel works (if value.isNull || other.isNull then .number 0 else value)

def binary : Nat → Bool → Level → Reading Value
  | 0, _, _ => syntaxFault "too many words"
  | fuel + 1, works, level => do moreBinary fuel works level (← stronger fuel works level)

def moreBinary : Nat → Bool → Level → Value → Reading Value
  | 0, _, _, value => return value
  | fuel + 1, works, level, value => do
      match ← accept? level.operators with
      | none => return value
      | some word => do
          let other ← stronger fuel works level
          moreBinary fuel works level (← level.apply works word value other)

def stronger : Nat → Bool → Level → Reading Value
  | 0, _, _ => syntaxFault "too many words"
  | fuel + 1, works, level =>
      match level with
      | .comparison => binary fuel works .sum
      | .sum => binary fuel works .product
      | .product => binary fuel works .pattern
      | .pattern => prefixed fuel works

-- A word that says what to do with the values that follow it.
def prefixed : Nat → Bool → Reading Value
  | 0, _ => syntaxFault "too many words"
  | fuel + 1, works => do
      match ← accept? ["+", "length", "match", "index", "substr"] with
      | some "+" => return .text (← next).toList
      | some "length" =>
          return .number (characters (← prefixed fuel works).cs).length
      | some "match" => do
          let text ← prefixed fuel works
          let pattern ← prefixed fuel works
          if works then matched text.cs pattern.cs else return .number 0
      | some "index" => do
          let text ← prefixed fuel works
          let members ← prefixed fuel works
          return .number (positionOf text.cs members.cs)
      | some _ => do
          let text ← prefixed fuel works
          let start ← prefixed fuel works
          let size ← prefixed fuel works
          return .text (part text.cs start size)
      | none => primary fuel works

def primary : Nat → Bool → Reading Value
  | 0, _ => syntaxFault "too many words"
  | fuel + 1, works => do
      match ← next with
      | "(" => do
          let value ← disjunction fuel works
          match ← get with
          | ⟨")" :: rest, _⟩ => do
              set (⟨rest, ")"⟩ : Words)
              return value
          | ⟨word :: _, _⟩ => syntaxFault ("expecting ')' instead of " ++ Quoting.curly word)
          | ⟨[], before⟩ => syntaxFault ("expecting ')' after " ++ Quoting.curly before)
      | ")" => syntaxFault "unexpected ')'"
      | word => return .text word.toList

end

def value (words : List String) : Except Fault Value := do
  let (value, left) ← (disjunction (16 * words.length + 16) true).run ⟨words, ""⟩
  match left.rest with
  | [] => return value
  | word :: _ => throw ⟨2, "syntax error: unexpected argument " ++ Quoting.curly word⟩

end Calculation

def expr : Utility := do
  let arguments := (← read).arguments
  if arguments = ["--help"] || arguments = ["--version"] then leave 0
  let words := if arguments.head? = some "--" then arguments.drop 1 else arguments
  if words.isEmpty then refuse 2 "missing operand"
  match Calculation.value words with
  | .error fault => fail fault.status fault.message
  | .ok value => do
      say (value.cs ++ ['\n'])
      return if value.isNull then 1 else 0

end JobScheduler.Shell.Utility
