import JobScheduler.Shell.Octets

namespace JobScheduler.Shell

-- A number of limited precision: a fraction of two whole numbers with a sign, or beyond all
-- of them, or no number.
inductive Fraction
  | finite (negative : Bool) (numerator denominator : Nat)
  | infinite (negative : Bool)
  | undefined (negative : Bool)
deriving DecidableEq, Repr

-- How many binary digits are kept, and the exponents of two between which they stand.
structure Precision where
  digits : Nat
  least : Int
  greatest : Int

namespace Precision

def double : Precision := ⟨53, -1074, 971⟩

def extended : Precision := ⟨64, -16445, 16320⟩

end Precision

namespace Fraction

def zero : Fraction := .finite false 0 1

def ofInt (value : Int) : Fraction := .finite (value < 0) value.natAbs 1

def isNegative : Fraction → Bool
  | .finite negative _ _ | .infinite negative | .undefined negative => negative

-- A quotient rounded to the nearest whole number, a half to the even neighbour.
def roundDiv (numerator denominator : Nat) : Nat :=
  let quotient := numerator / denominator
  let twice := 2 * (numerator % denominator)
  if denominator < twice || (twice = denominator && quotient % 2 = 1) then quotient + 1
  else quotient

def scaled (numerator denominator : Nat) (exponent : Int) : Nat × Nat :=
  if 0 ≤ exponent then (numerator, denominator * Nat.pow 2 exponent.toNat)
  else (numerator * Nat.pow 2 (-exponent).toNat, denominator)

-- The nearest number of a precision.
def round (precision : Precision) : Fraction → Fraction
  | .finite negative numerator denominator =>
      if numerator = 0 then .finite negative 0 1
      else
        let guess : Int := Int.ofNat numerator.log2 - Int.ofNat denominator.log2 -
          Int.ofNat precision.digits
        let (n, d) := scaled numerator denominator guess
        -- The quotient at the guess has one or two digits more than are kept.
        let exponent :=
          if n / d < Nat.pow 2 precision.digits then guess
          else if n / d < Nat.pow 2 (precision.digits + 1) then guess + 1
          else guess + 2
        let exponent := max exponent precision.least
        let (n, d) := scaled numerator denominator exponent
        let mantissa := roundDiv n d
        let carried := mantissa = Nat.pow 2 precision.digits
        if precision.greatest < exponent + (if carried then 1 else 0) then .infinite negative
        else if 0 ≤ exponent then .finite negative (mantissa * Nat.pow 2 exponent.toNat) 1
        else .finite negative mantissa (Nat.pow 2 (-exponent).toNat)
  | other => other

-- A sign, if there is one, and what follows.
def splitSign : List Char → Bool × List Char
  | '-' :: rest => (true, rest)
  | '+' :: rest => (false, rest)
  | rest => (false, rest)

-- The exponent behind a mark such as `e`, if there is one.
def exponent? (mark : Char) (cs : List Char) : Option (Int × List Char) :=
  match cs with
  | c :: rest =>
      if c.toLower = mark then
        let (negative, digits) := splitSign rest
        let value := digits.takeWhile Char.isDigit
        if value.isEmpty then none
        else
          let size := min (digitsValue value) 100000
          some (if negative then -(size : Int) else size, digits.dropWhile Char.isDigit)
      else none
  | [] => none

def digitsBefore (isDigit : Char → Bool) (cs : List Char) : List Char × List Char × List Char :=
  let whole := cs.takeWhile isDigit
  match cs.dropWhile isDigit with
  | '.' :: rest =>
      if whole.isEmpty && !(rest.head?.any isDigit) then ([], [], cs)
      else (whole, rest.takeWhile isDigit, rest.dropWhile isDigit)
  | rest => (whole, [], rest)

def hexValue (c : Char) : Nat :=
  if c.isDigit then c.toNat - 48 else if c.isUpper then c.toNat - 55 else c.toNat - 87

def isHex (c : Char) : Bool := c.isDigit || ('a' ≤ c && c ≤ 'f') || ('A' ≤ c && c ≤ 'F')

-- A number times a power of a base. Powers beyond all precisions are not worked out.
def scaledBy (negative : Bool) (digits base : Nat) (power : Int) : Fraction :=
  if digits = 0 then .finite negative 0 1
  else if 40000 < power then .infinite negative
  else if power < -40000 then .finite negative 0 1
  else if 0 ≤ power then .finite negative (digits * Nat.pow base power.toNat) 1
  else .finite negative digits (Nat.pow base (-power).toNat)

def words : List (String × (Bool → Fraction)) :=
  [("infinity", .infinite), ("inf", .infinite), ("nan", .undefined)]

-- The number that a text begins with, and what follows it.
def read? (cs : List Char) : Option (Fraction × List Char) :=
  let (negative, cs) := splitSign cs
  let lower := cs.map Char.toLower
  match words.find? fun word => word.1.toList.isPrefixOf lower with
  | some word => some (word.2 negative, cs.drop word.1.length)
  | none =>
      match cs with
      | '0' :: x :: rest =>
          if x.toLower = 'x' then
            match digitsBefore isHex rest with
            | ([], [], _) => some (.finite negative 0 1, x :: rest)
            | (whole, places, rest) =>
                let digits := (whole ++ places).foldl (fun n c => n * 16 + hexValue c) 0
                let (power, rest) := (exponent? 'p' rest).getD (0, rest)
                some (scaledBy negative digits 2 (power - 4 * places.length), rest)
          else decimal negative cs
      | cs => decimal negative cs
where
  decimal (negative : Bool) (cs : List Char) : Option (Fraction × List Char) :=
    match digitsBefore Char.isDigit cs with
    | ([], [], _) => none
    | (whole, places, rest) =>
        let (power, rest) := (exponent? 'e' rest).getD (0, rest)
        some (scaledBy negative (digitsValue (whole ++ places)) 10 (power - places.length), rest)

def padZeros (width : Nat) (digits : List Char) : List Char :=
  List.replicate (width - digits.length) '0' ++ digits

-- The digits with so many places behind the point. `always` asks for the point in any case.
def fixed (places : Nat) (always : Bool) (numerator denominator : Nat) : List Char :=
  let digits := Nat.toDigits 10 (roundDiv (numerator * Nat.pow 10 places) denominator)
  let digits := padZeros (places + 1) digits
  let whole := digits.take (digits.length - places)
  let point := if places = 0 && !always then [] else ['.']
  whole ++ point ++ digits.drop (digits.length - places)

-- The quotient of a fraction and a power of ten, rounded.
def overPower (numerator denominator : Nat) (power : Int) : Nat :=
  if 0 ≤ power then roundDiv numerator (denominator * Nat.pow 10 power.toNat)
  else roundDiv (numerator * Nat.pow 10 (-power).toNat) denominator

-- The power of ten of the first digit that is not zero.
def leadingPower (numerator denominator : Nat) : Int :=
  if numerator = 0 then 0
  else
    let guess := Int.ofNat (Nat.toDigits 10 numerator).length -
      Int.ofNat (Nat.toDigits 10 denominator).length
    let reaches :=
      if 0 ≤ guess then denominator * Nat.pow 10 guess.toNat ≤ numerator
      else denominator ≤ numerator * Nat.pow 10 (-guess).toNat
    if reaches then guess else guess - 1

-- The digits in front of a power of ten, so many of them behind the point, and the power.
def significant (places : Nat) (numerator denominator : Nat) : List Char × Int :=
  let power := leadingPower numerator denominator
  let digits := Nat.toDigits 10 (overPower numerator denominator (power - places))
  if places + 1 < digits.length then (digits.dropLast, power + 1)
  else (padZeros (places + 1) digits, power)

def exponentText (power : Int) : List Char :=
  (if power < 0 then '-' else '+') :: padZeros 2 (Nat.toDigits 10 power.natAbs)

def exponential (places : Nat) (always : Bool) (numerator denominator : Nat) : List Char :=
  let (digits, power) := significant places numerator denominator
  let point := if places = 0 && !always then [] else ['.']
  digits.take 1 ++ point ++ digits.drop 1 ++ 'e' :: exponentText power

def withoutEndZeros (cs : List Char) : List Char :=
  if cs.contains '.' then
    match cs.reverse.dropWhile (· = '0') with
    | '.' :: rest => rest.reverse
    | rest => rest.reverse
  else cs

-- The shorter of both forms, with so many digits that count.
def general (digits : Nat) (always : Bool) (numerator denominator : Nat) : List Char :=
  let digits := max digits 1
  let power := (significant (digits - 1) numerator denominator).2
  let trim := fun cs => if always then cs else withoutEndZeros cs
  if -4 ≤ power && power < digits then
    trim (fixed (Int.toNat (digits - 1 - power)) always numerator denominator)
  else
    let (shown, power) := significant (digits - 1) numerator denominator
    let point := if digits = 1 && !always then [] else ['.']
    trim (shown.take 1 ++ point ++ shown.drop 1) ++ 'e' :: exponentText power

-- The digits to base 16, with so many binary digits in front of the point. The rest has as
-- many as it needs, or so many as are asked for.
def hexadecimal (lead : Nat) (places : Option Nat) (always : Bool) (numerator denominator : Nat) :
    List Char :=
  if numerator = 0 then "0x0p+0".toList
  else
    let power : Int := Int.ofNat numerator.log2 - Int.ofNat denominator.log2
    let (n, d) := scaled numerator denominator power
    let power := if n < d then power - 1 else power
    let kept := 16
    let shift := power + 1 - lead - 4 * (places.getD kept : Nat)
    let (n, d) := scaled numerator denominator shift
    let digits := Nat.toDigits 16 (roundDiv n d)
    let rest := digits.drop (digits.length - places.getD kept)
    let rest := if places.isNone then (rest.reverse.dropWhile (· = '0')).reverse else rest
    let point := if rest.isEmpty && !always then [] else ['.']
    let power := power + 1 - lead
    ['0', 'x'] ++ digits.take (digits.length - places.getD kept) ++ point ++ rest ++
      'p' :: (if power < 0 then '-' else '+') :: Nat.toDigits 10 power.natAbs

-- A number as a directive with one of the letters a, e, f and g writes it, without its sign.
-- The answer tells whether it has digits.
def write (kind : Char) (lead : Nat) (precision : Option Nat) (always : Bool) :
    Fraction → List Char × Bool
  | .infinite _ => (['i', 'n', 'f'], false)
  | .undefined _ => (['n', 'a', 'n'], false)
  | .finite _ numerator denominator =>
      let places := precision.getD 6
      match kind with
      | 'a' => (hexadecimal lead precision always numerator denominator, true)
      | 'e' => (exponential places always numerator denominator, true)
      | 'g' => (general places always numerator denominator, true)
      | _ => (fixed places always numerator denominator, true)

end Fraction

end JobScheduler.Shell
