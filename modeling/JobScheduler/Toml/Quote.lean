import JobScheduler.Toml.Scan

namespace JobScheduler.Toml

open Scan

namespace Quote

def hexDigit? (c : Char) : Option Nat :=
  if '0' ≤ c ∧ c ≤ '9' then some (c.toNat - '0'.toNat)
  else if 'a' ≤ c ∧ c ≤ 'f' then some (c.toNat - 'a'.toNat + 10)
  else if 'A' ≤ c ∧ c ≤ 'F' then some (c.toNat - 'A'.toNat + 10)
  else none

def hexValue? (digits : List Char) : Option Nat :=
  digits.foldlM (fun value c => return value * 16 + (← hexDigit? c)) 0

-- The character with the given number. Surrogates are none.
def charOf? (point : Nat) : Option Char :=
  if h : point.isValidChar then some ⟨point.toUInt32, by
    have : point < 2 ^ 32 := by rcases h with h | h <;> omega
    simpa [UInt32.isValidChar, Nat.toUInt32, UInt32.toNat_ofNat_of_lt' this] using h⟩
  else none

def numbered? (digits : List Char) : Option Char := do charOf? (← hexValue? digits)

-- What a backslash and the next character stand for.
def named? : Char → Option Char
  | 'b' => some '\x08'
  | 't' => some '\t'
  | 'n' => some '\n'
  | 'e' => some '\x1b'
  | 'f' => some '\x0c'
  | 'r' => some '\r'
  | '"' => some '"'
  | '\\' => some '\\'
  | _ => none

-- The inside of a quoted text up to its closing quote, read back to front into `done`.
def basic (done : List Char) : List Char → Option (List Char × List Char)
  | '"' :: rest => some (done.reverse, rest)
  | '\\' :: 'x' :: a :: b :: rest =>
      match numbered? [a, b] with
      | some c => basic (c :: done) rest
      | none => none
  | '\\' :: 'u' :: a :: b :: c :: d :: rest =>
      match numbered? [a, b, c, d] with
      | some c => basic (c :: done) rest
      | none => none
  | '\\' :: 'U' :: a :: b :: c :: d :: e :: f :: g :: h :: rest =>
      match numbered? [a, b, c, d, e, f, g, h] with
      | some c => basic (c :: done) rest
      | none => none
  | '\\' :: c :: rest =>
      match named? c with
      | some c => basic (c :: done) rest
      | none => none
  | c :: rest => if isPlain c && c ≠ '\\' then basic (c :: done) rest else none
  | [] => none

def literal (done : List Char) : List Char → Option (List Char × List Char)
  | '\'' :: rest => some (done.reverse, rest)
  | c :: rest => if isPlain c then literal (c :: done) rest else none
  | [] => none

def startsLine (text : List Char) : Bool :=
  match text.dropWhile isSpace with
  | '\n' :: _ | '\r' :: '\n' :: _ => true
  | _ => false

-- The inside of a quoted text of several lines. After a backslash at the end of a line
-- everything up to the next visible character is left out; `skipping` is set meanwhile.
-- Up to two quotes may stand before the three that close the text.
def basicLines (skipping : Bool) (done : List Char) : List Char → Option (List Char × List Char)
  | '"' :: '"' :: '"' :: '"' :: '"' :: rest => some (('"' :: '"' :: done).reverse, rest)
  | '"' :: '"' :: '"' :: '"' :: rest => some (('"' :: done).reverse, rest)
  | '"' :: '"' :: '"' :: rest => some (done.reverse, rest)
  | '"' :: rest => basicLines false ('"' :: done) rest
  | '\r' :: '\n' :: rest =>
      if skipping then basicLines true done rest else basicLines false ('\n' :: '\r' :: done) rest
  | '\n' :: rest =>
      if skipping then basicLines true done rest else basicLines false ('\n' :: done) rest
  | '\\' :: 'x' :: a :: b :: rest =>
      match numbered? [a, b] with
      | some c => basicLines false (c :: done) rest
      | none => none
  | '\\' :: 'u' :: a :: b :: c :: d :: rest =>
      match numbered? [a, b, c, d] with
      | some c => basicLines false (c :: done) rest
      | none => none
  | '\\' :: 'U' :: a :: b :: c :: d :: e :: f :: g :: h :: rest =>
      match numbered? [a, b, c, d, e, f, g, h] with
      | some c => basicLines false (c :: done) rest
      | none => none
  | '\\' :: c :: rest =>
      if startsLine (c :: rest) then
        if c = '\r' then basicLines true done rest.tail else basicLines true done rest
      else
        match named? c with
        | some c => basicLines false (c :: done) rest
        | none => none
  | c :: rest =>
      if skipping && isSpace c then basicLines true done rest
      else if isPlain c && c ≠ '\\' then basicLines false (c :: done) rest
      else none
  | [] => none
termination_by text => text.length
decreasing_by all_goals simp [List.length_tail]; try omega

def literalLines (done : List Char) : List Char → Option (List Char × List Char)
  | '\'' :: '\'' :: '\'' :: '\'' :: '\'' :: rest => some (('\'' :: '\'' :: done).reverse, rest)
  | '\'' :: '\'' :: '\'' :: '\'' :: rest => some (('\'' :: done).reverse, rest)
  | '\'' :: '\'' :: '\'' :: rest => some (done.reverse, rest)
  | '\r' :: '\n' :: rest => literalLines ('\n' :: '\r' :: done) rest
  | '\n' :: rest => literalLines ('\n' :: done) rest
  | c :: rest => if isPlain c then literalLines (c :: done) rest else none
  | [] => none

-- A line end right after the opening quotes does not count.
def dropFirstLineEnd : List Char → List Char
  | '\n' :: rest | '\r' :: '\n' :: rest => rest
  | text => text

def text? (read : List Char → Option (List Char × List Char)) : Scan String := do
  match read (← get) with
  | some (text, rest) =>
      set rest
      return String.ofList text
  | none => failure

-- A quoted text on one line, as a key or a value.
def short : Scan String := do
  if ← accept '"' then text? (basic [])
  else
    expect '\''
    text? (literal [])

-- A quoted text as a value, which may run over several lines.
def any : Scan String := do
  match ← get with
  | '"' :: '"' :: '"' :: rest =>
      set (dropFirstLineEnd rest)
      text? (basicLines false [])
  | '\'' :: '\'' :: '\'' :: rest =>
      set (dropFirstLineEnd rest)
      text? (literalLines [])
  | _ => short

end Quote

end JobScheduler.Toml
