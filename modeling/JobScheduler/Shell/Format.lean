import JobScheduler.Shell.Format.Escape
import JobScheduler.Shell.Fraction

namespace JobScheduler.Shell.Format

-- How a directive lays out what it writes.
structure Directive where
  alternative : Bool
  left : Bool
  plus : Bool
  space : Bool
  zeros : Bool
  width : Nat
  precision : Option Nat

namespace Directive

def plain : Directive := ⟨false, false, false, false, false, 0, none⟩

def setFlag (directive : Directive) : Char → Directive
  | '#' => { directive with alternative := true }
  | '-' => { directive with left := true }
  | '+' => { directive with plus := true }
  | ' ' => { directive with space := true }
  | '0' => { directive with zeros := true }
  | _ => directive

-- Fills a text up to the width. Zeros go between the sign and the digits.
def fill (directive : Directive) (zeros : Bool) (sign digits : List Char) : List Char :=
  let missing := directive.width - (sign.length + digits.length)
  if directive.left then sign ++ digits ++ List.replicate missing ' '
  else if zeros then sign ++ List.replicate missing '0' ++ digits
  else List.replicate missing ' ' ++ sign ++ digits

def sign (directive : Directive) (negative : Bool) : List Char :=
  if negative then ['-']
  else if directive.plus then ['+']
  else if directive.space then [' ']
  else []

def digits (directive : Directive) (digits : List Char) : List Char :=
  match directive.precision with
  | none => digits
  | some precision =>
      if precision = 0 ∧ digits = ['0'] then []
      else List.replicate (precision - digits.length) '0' ++ digits

def integer (directive : Directive) (value : Int) : List Char :=
  directive.fill (directive.zeros && directive.precision.isNone) (directive.sign (value < 0))
    (directive.digits (Nat.toDigits 10 value.natAbs))

def natural (directive : Directive) (base : Nat) (upper : Bool) (value : Nat) : List Char :=
  let digits := Nat.toDigits base value
  let digits := directive.digits (if upper then digits.map Char.toUpper else digits)
  let digits :=
    if directive.alternative && base = 8 && digits.head? != some '0' then '0' :: digits
    else digits
  let mark :=
    if !directive.alternative || base != 16 || value = 0 then []
    else if upper then ['0', 'X']
    else ['0', 'x']
  directive.fill (directive.zeros && directive.precision.isNone) mark digits

def text (directive : Directive) (text : List Char) : List Char :=
  directive.fill false [] (match directive.precision with
    | some precision => text.take precision
    | none => text)

-- A fraction as one of the letters a, e, f and g and their capitals ask for it.
def fraction (directive : Directive) (letter : Char) (lead : Nat) (value : Fraction) :
    List Char :=
  let (shown, hasDigits) :=
    value.write letter.toLower lead directive.precision directive.alternative
  let shown := if letter.isUpper then shown.map Char.toUpper else shown
  directive.fill (directive.zeros && hasDigits) (directive.sign value.isNegative) shown

end Directive

-- Texts with directives, as `printf` writes them.

-- A text read as a number as far as it goes: the value and what follows. A number may begin
-- with its base, 0x for 16 and 0 for 8.
def readNumber (text : String) : Int × List Char :=
  let cs := text.toList.dropWhile fun c => c == ' ' || ('\t' ≤ c && c ≤ '\r')
  let (negative, cs) := Fraction.splitSign cs
  let (value, rest) : Nat × List Char :=
    match cs with
    | '0' :: 'x' :: c :: rest | '0' :: 'X' :: c :: rest =>
        if isHex c then
          (((c :: rest).takeWhile isHex).foldl (fun n c => n * 16 + hexValue c) 0,
            (c :: rest).dropWhile isHex)
        else (0, cs.drop 1)
    | '0' :: rest =>
        ((rest.takeWhile fun c => (octal? c).isSome).foldl (fun n c => n * 8 + (c.toNat - 48)) 0,
          rest.dropWhile fun c => (octal? c).isSome)
    | c :: rest =>
        if c.isDigit then
          (digitsValue ((c :: rest).takeWhile Char.isDigit), (c :: rest).dropWhile Char.isDigit)
        else (0, text.toList)
    | [] => (0, text.toList)
  (if negative then -(value : Int) else value, rest)

inductive Complaint
  | notNumeric (text : String)
  | trailing (text : String)
  | outOfRange (text : String)
  | ignored (text : String)
  | surplus (text : String)
  | invalidDirective (text : String)
  | missingCharacter
  | incompleteEscape
deriving DecidableEq, Repr

def Complaint.message : Complaint → String
  | .notNumeric text => s!"{text}: expected numeric value"
  | .trailing text => s!"{text}: not completely converted"
  | .outOfRange text => s!"{text}: Numerical result out of range"
  | .invalidDirective text => s!"{text}: invalid directive"
  | .missingCharacter => "missing format character"
  | .ignored _ | .surplus _ | .incompleteEscape => ""

-- What was written, with the last of it first, what was found wrong, and the arguments that
-- are left. `stopped` tells that nothing more is to be written.
structure Printed where
  dialect : Dialect
  written : List Char
  complaints : List Complaint
  arguments : List String
  stopped : Bool

namespace Printed

def start (dialect : Dialect) (arguments : List String) : Printed :=
  ⟨dialect, [], [], arguments, false⟩

def text (printed : Printed) : List Char := printed.written.reverse

def add (printed : Printed) (text : List Char) : Printed :=
  { printed with written := text.reverse ++ printed.written }

def complain (printed : Printed) (complaints : List Complaint) : Printed :=
  { printed with complaints := printed.complaints ++ complaints }

def argument (printed : Printed) : Option String × Printed :=
  match printed.arguments with
  | [] => (none, printed)
  | first :: rest => (some first, { printed with arguments := rest })

-- The number of the character behind a quote, if a text begins with one.
def character? (dialect : Dialect) (text : String) : Option (Nat × List Complaint) :=
  match text.toList, dialect with
  | '"' :: c :: rest, .program | '\x27' :: c :: rest, .program =>
      some (c.toNat, if rest.isEmpty then [] else [.ignored (String.ofList rest)])
  | '"' :: rest, .builtin | '\x27' :: rest, .builtin => some ((rest.head?.map Char.toNat).getD 0, [])
  | _, _ => none

-- The next argument as a number between two limits.
def number (printed : Printed) (low high : Int) : Int × Printed :=
  match printed.argument with
  | (none, printed) => (0, printed)
  | (some text, printed) =>
      match character? printed.dialect text with
      | some (value, complaints) => (value, printed.complain complaints)
      | none =>
          let (value, rest) := readNumber text
          let complaints :=
            if text == "" then []
            else if value < low ∨ high < value then [Complaint.outOfRange text]
            else if !rest.isEmpty then
              if rest.length = text.length then [Complaint.notNumeric text]
              else [Complaint.trailing text]
            else []
          (max low (min high value), printed.complain complaints)

def precision : Dialect → Precision
  | .builtin => .double
  | .program => .extended

-- The next argument as a fraction.
def fraction (printed : Printed) : Fraction × Printed :=
  match printed.argument with
  | (none, printed) => (.zero, printed)
  | (some text, printed) =>
      match character? printed.dialect text with
      | some (value, complaints) => (.ofInt value, printed.complain complaints)
      | none =>
          let cs := text.toList.dropWhile fun c => c == ' ' || ('\t' ≤ c && c ≤ '\r')
          match Fraction.read? cs with
          | none => (.zero, printed.complain (if text == "" then [] else [.notNumeric text]))
          | some (value, rest) =>
              let rounded := value.round (precision printed.dialect)
              let overflows :=
                match value, rounded with
                | .finite .., .infinite _ => true
                | .finite _ numerator _, .finite _ kept _ => numerator ≠ 0 && kept = 0
                | _, _ => false
              let complaints :=
                if overflows then [Complaint.outOfRange text]
                else if rest.isEmpty then [] else [.trailing text]
              (rounded, printed.complain complaints)

-- The number of values of a word of so many bits.
def wordSize (bits : Nat) : Int := Int.ofNat (Nat.pow 2 bits)

def fail (printed : Printed) (complaint : Complaint) : Printed :=
  { printed.complain [complaint] with stopped := true }

-- Writes what a directive with a letter asks for. `shown` is the directive as it was given.
def direct (printed : Printed) (directive : Directive) (shown : List Char) (letter : Char) :
    Printed :=
  if letter = 's' then
    let (argument, printed) := printed.argument
    printed.add (directive.text (argument.getD "").toList)
  else if letter = 'b' then
    let (argument, printed) := printed.argument
    let (text, stops) := unescape printed.dialect (argument.getD "")
    { printed.add (directive.text text) with stopped := stops }
  else if letter = 'c' then
    let (argument, printed) := printed.argument
    printed.add (directive.fill false [] [((argument.getD "").toList.head?).getD '\x00'])
  else if ['a', 'e', 'f', 'g'].contains letter.toLower then
    let (value, printed) := printed.fraction
    printed.add (directive.fraction letter (if printed.dialect = .builtin then 1 else 4) value)
  else if letter = 'd' || letter = 'i' then
    let (value, printed) := printed.number (-wordSize 63) (wordSize 63 - 1)
    printed.add (directive.integer value)
  else
    match [('o', 8), ('u', 10), ('x', 16), ('X', 16)].lookup letter with
    | some base =>
        let (value, printed) := printed.number (-wordSize 64 + 1) (wordSize 64 - 1)
        printed.add (directive.natural base (letter = 'X') (value % wordSize 64).toNat)
    | none => printed.fail (.invalidDirective (String.ofList shown))

-- A width or a precision, written out or taken from the arguments.
def measure (printed : Printed) (cs : List Char) : Int × Printed × List Char :=
  match cs with
  | '*' :: rest =>
      let (value, printed) := printed.number (-wordSize 31) (wordSize 31 - 1)
      (value, printed, rest)
  | cs => (digitsValue (cs.takeWhile Char.isDigit), printed, cs.dropWhile Char.isDigit)

def isFlag (dialect : Dialect) (c : Char) : Bool :=
  ['#', '-', '+', ' ', '0'].contains c || (dialect = .program && (c = '\x27' || c = 'I'))

-- Whether a program refuses a letter because of what stands before it.
def isRefused (flags : List Char) (precise bare : Bool) (letter : Char) : Bool :=
  (letter = 'b' && !bare) ||
    (flags.contains '#' && ['c', 'd', 'i', 's', 'u'].contains letter) ||
    (flags.contains '0' && ['c', 's'].contains letter) || (precise && letter = 'c') ||
    (flags.contains '\x27' && ['a', 'A', 'c', 'e', 'E', 'o', 's', 'x', 'X'].contains letter)

-- A directive after its percent sign.
def convert (printed : Printed) (cs : List Char) : Printed × List Char :=
  let isFlag := isFlag printed.dialect
  let flags := cs.takeWhile isFlag
  let directive := flags.foldl Directive.setFlag .plain
  let (width, printed, rest) := printed.measure (cs.dropWhile isFlag)
  let directive := { directive with width := width.natAbs, left := directive.left || width < 0 }
  let (directive, printed, rest, precise) :=
    match rest with
    | '.' :: rest =>
        let (precision, printed, rest) := printed.measure rest
        ({ directive with precision := if precision < 0 then none else some precision.toNat },
          printed, rest, true)
    | rest => (directive, printed, rest, false)
  let rest :=
    if printed.dialect = .program then
      rest.dropWhile ['l', 'L', 'h', 'j', 't', 'z'].contains
    else rest
  let before := '%' :: cs.take (cs.length - rest.length)
  match rest with
  | [] =>
      if printed.dialect = .program then
        (printed.fail (.invalidDirective (String.ofList before)), [])
      else (printed.fail .missingCharacter, [])
  | c :: rest =>
      let shown := before ++ [c]
      if printed.dialect = .program && isRefused flags precise (before.length = 1) c then
        (printed.fail (.invalidDirective (String.ofList shown)), [])
      else (printed.direct directive shown c, rest)

-- Goes through a format once.
def pass : Nat → List Char → Printed → Printed
  | 0, _, printed => printed
  | _, [], printed => printed
  | fuel + 1, c :: rest, printed =>
      if printed.stopped then printed
      else if c = '\\' then
        match formatEscape printed.dialect rest with
        | (.bytes bytes, rest) => pass fuel rest (printed.add bytes)
        | (.stop, _) => { printed with stopped := true }
        | (.incomplete, _) => printed.fail .incompleteEscape
      else if c = '%' then
        match rest with
        | '%' :: rest => pass fuel rest (printed.add ['%'])
        | rest =>
            let (printed, rest) := printed.convert rest
            pass fuel rest printed
      else pass fuel rest (printed.add [c])

-- Goes through a format again while that uses arguments up and some are left.
def passes (format : List Char) : Nat → Printed → Printed
  | 0, printed => printed
  | fuel + 1, printed =>
      let next := printed.pass (format.length + 1) format
      if next.stopped || next.arguments.isEmpty then next
      else if next.arguments.length = printed.arguments.length then
        if next.dialect = .program then
          next.complain ((next.arguments.take 1).map .surplus)
        else next
      else next.passes format fuel
termination_by structural fuel => fuel

end Printed

def print (dialect : Dialect) (format : String) (arguments : List String) : Printed :=
  (Printed.start dialect arguments).passes format.toList (arguments.length + 1)

end JobScheduler.Shell.Format
