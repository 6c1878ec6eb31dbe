import JobScheduler.Text.Utf8

namespace JobScheduler.Shell

-- Commands work on bytes. A text that they handle is a string of characters below 256,
-- each of which stands for the byte of its number.

-- The bytes of the encoding of a text.
def narrow (text : String) : String :=
  String.ofList ((Text.Utf8.encode text).map fun octet => Char.ofNat octet.toNat)

def octets (bytes : List Char) : List UInt8 := bytes.map fun c => UInt8.ofNat c.toNat

-- The length of the sequence that a text begins with if that is the encoding of a character.
def sequenceLength? (bytes : List UInt8) : Option Nat :=
  match bytes with
  | [] => none
  | first :: rest =>
      if first < 0x80 then some 1
      else
        match Text.Utf8.lead? first, rest with
        | some (length, low, high), second :: rest =>
            if low ≤ second && second ≤ high && rest.length + 2 ≥ length &&
                (rest.take (length - 2)).all Text.Utf8.isContinuation then
              some length
            else none
        | _, _ => none

-- The bytes of each character. A byte that belongs to none stands alone.
def charactersFrom : Nat → List Char → List (List Char)
  | 0, _ | _, [] => []
  | fuel + 1, bytes@(c :: rest) =>
      if c.toNat < 128 then [c] :: charactersFrom fuel rest
      else
        let length := (sequenceLength? (octets (bytes.take 4))).getD 1
        bytes.take length :: charactersFrom fuel (bytes.drop length)

def characters (bytes : List Char) : List (List Char) := charactersFrom bytes.length bytes

def isBlank (c : Char) : Bool := c == ' ' || c == '\t'

def isNameStart (c : Char) : Bool := c.isAlpha || c == '_'

def isNamePart (c : Char) : Bool := c.isAlphanum || c == '_'

-- A name that a variable can have.
def isName (text : String) : Bool :=
  match text.toList with
  | [] => false
  | c :: rest => isNameStart c && rest.all isNamePart

def isDigits (cs : List Char) : Bool := !cs.isEmpty && cs.all Char.isDigit

def digitsValue (cs : List Char) : Nat := cs.foldl (fun n c => n * 10 + (c.toNat - 48)) 0

def natural? (text : String) : Option Nat :=
  if isDigits text.toList then some (digitsValue text.toList) else none

-- A whole number with an optional sign.
def integer? (text : String) : Option Int :=
  match text.toList with
  | '-' :: rest => if isDigits rest then some (-(digitsValue rest : Int)) else none
  | '+' :: rest => if isDigits rest then some (digitsValue rest) else none
  | rest => if isDigits rest then some (digitsValue rest) else none

-- The parts of a text between the occurrences of a character.
def splitAt (separator : Char) : List Char → List (List Char)
  | [] => [[]]
  | c :: rest =>
      if c = separator then [] :: splitAt separator rest
      else
        match splitAt separator rest with
        | part :: parts => (c :: part) :: parts
        | [] => [[c]]

-- The lines of a text without their ends. What follows the last end counts if it is not empty.
def lines (cs : List Char) : List (List Char) :=
  let parts := splitAt '\n' cs
  if parts.getLast? = some [] then parts.dropLast else parts

def unlines (lines : List (List Char)) : List Char := lines.flatMap (· ++ ['\n'])

end JobScheduler.Shell
