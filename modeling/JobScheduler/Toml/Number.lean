import JobScheduler.Document.Basic
import JobScheduler.Toml.Quote

namespace JobScheduler.Toml.Number

def isDecimal (c : Char) : Bool := '0' ≤ c && c ≤ '9'

-- Digits of a class with single underscores between them, without the underscores.
def grouped? (isDigit : Char → Bool) : List Char → Option (List Char)
  | [c] => if isDigit c then some [c] else none
  | c :: '_' :: rest =>
      if isDigit c then (grouped? isDigit rest).map (c :: ·) else none
  | c :: rest => if isDigit c then (grouped? isDigit rest).map (c :: ·) else none
  | [] => none

def valueIn (base : Nat) (digits : List Char) : Nat :=
  digits.foldl (fun value c => value * base + (Quote.hexDigit? c).getD 0) 0

def hasDigit (base : Nat) (c : Char) : Bool := (Quote.hexDigit? c).any (· < base)

-- Splits off a sign. The flag tells whether it was a minus.
def sign : List Char → Bool × List Char
  | '-' :: rest => (true, rest)
  | '+' :: rest => (false, rest)
  | text => (false, text)

-- A whole number in decimal does not begin with a zero unless it is zero.
def whole? (text : List Char) : Option (List Char) := do
  let digits ← grouped? isDecimal text
  match digits with
  | '0' :: _ :: _ => none
  | _ => some digits

-- Whole numbers lie between those of 128 bits, with a sign or without.
def inRange (value : Int) : Bool :=
  Int.negOfNat (Nat.pow 2 127) ≤ value && value < Int.ofNat (Nat.pow 2 128)

def integer? (text : List Char) : Option Int :=
  match text with
  | '0' :: 'x' :: rest => (grouped? (hasDigit 16) rest).map (valueIn 16 ·)
  | '0' :: 'o' :: rest => (grouped? (hasDigit 8) rest).map (valueIn 8 ·)
  | '0' :: 'b' :: rest => (grouped? (hasDigit 2) rest).map (valueIn 2 ·)
  | text =>
      let (negative, rest) := sign text
      (whole? rest).map fun digits =>
        let value : Int := valueIn 10 digits
        if negative then -value else value

-- The digits of a number with a fraction or an exponent, as one whole number, and the
-- power of ten that scales it.
structure Scaled where
  digits : List Char
  power : Int

def exponent? (text : List Char) : Option Int := do
  let (negative, rest) := sign text
  let value : Int := valueIn 10 (← grouped? isDecimal rest)
  return if negative then -value else value

def scaled? (text : List Char) : Option Scaled := do
  let isExponent := fun c : Char => c = 'e' || c = 'E'
  let mantissa := text.takeWhile fun c => !isExponent c
  let power ←
    match text.dropWhile fun c => !isExponent c with
    | [] => some 0
    | _ :: rest => exponent? rest
  let front := mantissa.takeWhile (· ≠ '.')
  match mantissa.dropWhile (· ≠ '.') with
  | [] => return ⟨← whole? front, power⟩
  | _ :: fraction => do
      let front ← whole? front
      let fraction ← grouped? isDecimal fraction
      return ⟨front ++ fraction, power - fraction.length⟩

-- Whether the number is below the least one that rounds to infinity in 64 bits. The
-- position of the first digit settles all but a few cases.
def Scaled.isFinite (number : Scaled) : Bool :=
  let digits := number.digits.dropWhile (· = '0')
  let magnitude : Int := digits.length + number.power
  if digits.isEmpty || magnitude < 309 then true
  else if 309 < magnitude then false
  else
    let value := valueIn 10 digits
    let bound := Nat.pow 2 1024 - Nat.pow 2 970
    if 0 ≤ number.power then value * Nat.pow 10 number.power.toNat < bound
    else value < bound * Nat.pow 10 (-number.power).toNat

def isSpecial (text : List Char) : Bool :=
  let name := (sign text).2
  name = ['i', 'n', 'f'] || name = ['n', 'a', 'n']

def float? (text : List Char) : Option String := do
  if isSpecial text then
    return String.ofList text
  let number ← scaled? (sign text).2
  if number.isFinite then some (String.ofList text) else none

end JobScheduler.Toml.Number
