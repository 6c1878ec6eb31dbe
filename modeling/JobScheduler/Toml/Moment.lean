import JobScheduler.Toml.Number

namespace JobScheduler.Toml.Moment

open Number

def two? (a b : Char) : Option Nat :=
  if isDecimal a && isDecimal b then some (valueIn 10 [a, b]) else none

def isLeap (year : Nat) : Bool := year % 4 = 0 && (year % 100 ≠ 0 || year % 400 = 0)

def daysIn (year month : Nat) : Nat :=
  if month = 2 then (if isLeap year then 29 else 28)
  else if month ∈ [4, 6, 9, 11] then 30
  else 31

def isDate (y₁ y₂ y₃ y₄ m₁ m₂ d₁ d₂ : Char) : Bool :=
  match two? y₁ y₂, two? y₃ y₄, two? m₁ m₂, two? d₁ d₂ with
  | some century, some year, some month, some day =>
      1 ≤ month && month ≤ 12 && 1 ≤ day && day ≤ daysIn (century * 100 + year) month
  | _, _, _, _ => false

-- What may follow the time of day: nothing, the zone of world time, or a distance from it.
def isZone : List Char → Bool
  | [] | ['Z'] | ['z'] => true
  | [s, h₁, h₂, ':', m₁, m₂] =>
      (s = '+' || s = '-') && (two? h₁ h₂).any (· ≤ 23) && (two? m₁ m₂).any (· ≤ 59)
  | _ => false

-- The seconds of a time and their fraction, which may be left out. A leap second may be
-- counted as the sixtieth.
def seconds? : List Char → Option (List Char)
  | ':' :: s₁ :: s₂ :: rest => do
      let second ← two? s₁ s₂
      if 60 < second then
        none
      match rest with
      | '.' :: fraction =>
          if fraction.takeWhile isDecimal = [] then none
          else some (fraction.dropWhile isDecimal)
      | rest => some rest
  | rest => some rest

def time? : List Char → Option (List Char)
  | h₁ :: h₂ :: ':' :: m₁ :: m₂ :: rest => do
      let hour ← two? h₁ h₂
      let minute ← two? m₁ m₂
      if 23 < hour ∨ 59 < minute then none else seconds? rest
  | _ => none

def isTime (text : List Char) : Bool :=
  match time? text with
  | some rest => isZone rest
  | none => false

-- A date, a time of day, or both with a letter or a blank between them.
def isMoment : List Char → Bool
  | y₁ :: y₂ :: y₃ :: y₄ :: '-' :: m₁ :: m₂ :: '-' :: d₁ :: d₂ :: rest =>
      isDate y₁ y₂ y₃ y₄ m₁ m₂ d₁ d₂ &&
        match rest with
        | [] => true
        | c :: rest => (c = 'T' || c = 't' || c = ' ') && isTime rest
  | text => time? text = some []

-- Whether a blank after this text goes on with a time of day.
def isBareDate : List Char → Bool
  | [y₁, y₂, y₃, y₄, '-', m₁, m₂, '-', d₁, d₂] => isDate y₁ y₂ y₃ y₄ m₁ m₂ d₁ d₂
  | _ => false

end JobScheduler.Toml.Moment
