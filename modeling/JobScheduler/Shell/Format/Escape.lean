import JobScheduler.Shell.Octets

namespace JobScheduler.Shell.Format

-- Escapes in texts, as `echo` and `printf` replace them.

-- Who replaces the escapes: the shell itself, or a program.
inductive Dialect
  | builtin | program
deriving DecidableEq, Repr

def octal? (c : Char) : Option Nat :=
  if '0' ≤ c ∧ c ≤ '7' then some (c.toNat - 48) else none

-- Up to so many octal digits: their value and what follows.
def octal (value : Nat) : Nat → List Char → Nat × List Char
  | 0, cs => (value, cs)
  | _, [] => (value, [])
  | count + 1, c :: rest =>
      match octal? c with
      | some digit => octal (value * 8 + digit) count rest
      | none => (value, c :: rest)

def isHex (c : Char) : Bool := c.isDigit || ('a' ≤ c && c ≤ 'f') || ('A' ≤ c && c ≤ 'F')

def hexValue (c : Char) : Nat :=
  if c.isDigit then c.toNat - 48 else if c.isUpper then c.toNat - 55 else c.toNat - 87

-- Up to so many digits to base 16, if there are any.
def hex? (count : Nat) (cs : List Char) : Option (Nat × List Char) :=
  let digits := (cs.take count).takeWhile isHex
  if digits.isEmpty then none
  else some (digits.foldl (fun n c => n * 16 + hexValue c) 0, cs.drop digits.length)

def byte (n : Nat) : Char := Char.ofNat (n % 256)

def letterEscape? : Char → Option Char
  | '\\' => some '\\'
  | 'a' => some '\x07'
  | 'b' => some '\x08'
  | 'e' => some '\x1b'
  | 'f' => some '\x0c'
  | 'n' => some '\n'
  | 'r' => some '\r'
  | 't' => some '\t'
  | 'v' => some '\x0b'
  | _ => none

-- What an escape comes to: bytes, or that nothing more is to be written, or that it is not
-- complete.
inductive Escaped
  | bytes (bytes : List Char)
  | stop
  | incomplete

def unicode (count : Nat) (rest : List Char) : Escaped × List Char :=
  let digits := (rest.take count).takeWhile isHex
  if digits.length < count then (.incomplete, rest)
  else
    let code := digits.foldl (fun n c => n * 16 + hexValue c) 0
    let encoded := (Text.Utf8.encode (String.singleton (Char.ofNat code))).map fun octet =>
      Char.ofNat octet.toNat
    (.bytes encoded, rest.drop count)

-- What follows a backslash in a format. If it makes no escape the backslash stands for itself.
def formatEscape (dialect : Dialect) (cs : List Char) : Escaped × List Char :=
  match cs with
  | [] => (.bytes ['\\'], [])
  | c :: rest =>
      match letterEscape? c, dialect, c with
      | some c, _, _ => (.bytes [c], rest)
      | none, .program, '"' => (.bytes ['"'], rest)
      | none, .program, 'c' => (.stop, rest)
      | none, .program, 'x' =>
          match hex? 2 rest with
          | some (value, rest) => (.bytes [byte value], rest)
          | none => (.incomplete, rest)
      | none, .program, 'u' => unicode 4 rest
      | none, .program, 'U' => unicode 8 rest
      | none, _, c =>
          if (octal? c).isSome then
            let (value, rest) := octal 0 3 (c :: rest)
            (.bytes [byte value], rest)
          else (.bytes ['\\'], c :: rest)

-- What follows a backslash in a text that is written with `%b` or by an `echo` that replaces
-- escapes. The octal digits come after a zero.
def textEscape (dialect : Dialect) (cs : List Char) : Escaped × List Char :=
  match cs with
  | '0' :: rest =>
      let (value, rest) := octal 0 3 rest
      (.bytes [byte value], rest)
  | 'c' :: rest => (.stop, rest)
  | cs => formatEscape dialect cs

-- A text with its escapes replaced, and whether it asks that nothing more be written.
def unescapeWith (escape : List Char → Escaped × List Char) : Nat → List Char → List Char × Bool
  | 0, cs => (cs, false)
  | _, [] => ([], false)
  | fuel + 1, '\\' :: rest =>
      match escape rest with
      | (.stop, _) | (.incomplete, _) => ([], true)
      | (.bytes bytes, rest) =>
          let (more, stops) := unescapeWith escape fuel rest
          (bytes ++ more, stops)
  | fuel + 1, c :: rest =>
      let (more, stops) := unescapeWith escape fuel rest
      (c :: more, stops)

def unescape (dialect : Dialect) (text : String) : List Char × Bool :=
  unescapeWith (textEscape dialect) (text.length + 1) text.toList

def echoWords : List String → List Char × Bool
  | [] => ([], false)
  | [word] => unescape .builtin word
  | word :: rest =>
      let (text, stops) := unescape .builtin word
      if stops then (text, true)
      else
        let (more, stops) := echoWords rest
        (text ++ ' ' :: more, stops)

-- What the `echo` of the shell writes.
def echo (words : List String) : List Char :=
  let (silent, words) :=
    match words with
    | "-n" :: rest => (true, rest)
    | words => (false, words)
  let (text, stops) := echoWords words
  if silent || stops then text else text ++ ['\n']

structure EchoOptions where
  silent : Bool
  escapes : Bool

-- Options of the program `echo`: a word of known letters. Anything else is to be written.
def echoOptions (options : EchoOptions) : List String → EchoOptions × List String
  | [] => (options, [])
  | word :: rest =>
      match word.toList with
      | '-' :: c :: letters =>
          if (c :: letters).all ['n', 'e', 'E'].contains then
            echoOptions
              ((c :: letters).foldl
                (fun options letter =>
                  if letter = 'n' then { options with silent := true }
                  else { options with escapes := letter = 'e' })
                options)
              rest
          else (options, word :: rest)
      | _ => (options, word :: rest)

-- The escape of the program `echo`, which leaves an incomplete one as it is.
def echoEscape (cs : List Char) : Escaped × List Char :=
  match cs with
  | 'x' :: rest =>
      match hex? 2 rest with
      | some (value, rest) => (.bytes [byte value], rest)
      | none => (.bytes ['\\', 'x'], rest)
  | '"' :: _ | 'u' :: _ | 'U' :: _ => (.bytes ['\\'], cs)
  | cs => textEscape .program cs

-- What the program `echo` writes.
def programEcho (words : List String) : List Char :=
  let (options, words) := echoOptions ⟨false, false⟩ words
  let text := (" ".intercalate words).toList
  let (text, stops) :=
    if options.escapes then unescapeWith echoEscape (text.length + 1) text else (text, false)
  if options.silent || stops then text else text ++ ['\n']

end JobScheduler.Shell.Format
