import JobScheduler.Shell.Grammar
import JobScheduler.Shell.Octets
import JobScheduler.SortedMap

namespace JobScheduler.Shell

inductive Token
  | word (parts : Word)
  | redirect (number : Nat) (kind : RedirectKind)
  | here (number : Nat) (stripped : Bool)
  | newline | semicolon | ampersand | both | either | pipe | opening | closing | armEnd | finish

-- A text that is still to come below the command that takes it as input.
structure Here where
  ending : List Char
  stripped : Bool
  verbatim : Bool
  index : Nat

def keywords : List String :=
  ["!", "case", "do", "done", "elif", "else", "esac", "fi", "for", "if", "in", "then", "until",
    "while", "\x7b", "\x7d"]

-- The text of a word without quotes and substitutions.
def plainText? : Word → Option (List Char)
  | [] => some []
  | .plain c :: rest => (plainText? rest).map (c :: ·)
  | _ => none

-- The part of the text that came from a short name for it, up to the given number of
-- characters before the end of the text.
structure Region where
  name : String
  left : Nat
  endsBlank : Bool

-- Where the reading of a text stands. `origin` is how much text was left where the reading
-- of the last token began, and `start` where the word in it began. `passed` tells whether a
-- region that ends in a blank ended between the two.
structure Cursor where
  rest : List Char
  line : Nat
  held : Option Token
  awaited : List Here
  heres : Array Word
  aliases : SortedMap String String
  regions : List Region
  origin : Nat
  start : Nat
  passed : Bool

abbrev Reading := StateT Cursor (Except (Nat × Misreading))

namespace Reading

def fail (misreading : Misreading) : Reading α := do throw ((← get).line, misreading)

-- A line end after a backslash is nothing. The rest of the text behind all such that come
-- first, and how many there are.
def afterJoints : List Char → Nat × List Char
  | '\\' :: '\n' :: rest =>
      let (count, rest) := afterJoints rest
      (count + 1, rest)
  | rest => (0, rest)

def peekChar : Reading (Option Char) := do
  let cursor ← get
  let (count, rest) := afterJoints cursor.rest
  set { cursor with rest, line := cursor.line + count }
  return rest.head?

def skipChar : Reading Unit := modify fun cursor =>
  { cursor with
    rest := cursor.rest.tail
    line := if cursor.rest.head? = some '\n' then cursor.line + 1 else cursor.line }

-- The next character as it stands.
def nextChar : Reading (Option Char) := do
  let c := (← get).rest.head?
  skipChar
  return c

def takeWhile (keep : Char → Bool) : Reading (List Char) := do
  let cursor ← get
  set { cursor with rest := cursor.rest.dropWhile keep }
  return cursor.rest.takeWhile keep

-- Puts the text that a word is short for in its place, unless the word is itself part of
-- that text. Tells whether that was done.
def replaceAlias (word : Word) : Reading Bool := do
  let cursor ← get
  match plainText? word with
  | none => return false
  | some cs =>
      let name := String.ofList cs
      match cursor.aliases.find? name with
      | none => return false
      | some value =>
          let isInside := fun (region : Region) => region.name == name && region.left < cursor.start
          if cursor.regions.any isInside then return false
          let value := value.toList
          let endsBlank := value.getLast?.any isBlank
          let region : Region := ⟨name, cursor.rest.length, endsBlank⟩
          set { cursor with
            rest := value ++ cursor.rest
            held := none
            regions := if value.isEmpty then cursor.regions else region :: cursor.regions }
          return true

-- Notes that a word begins here.
def noteStart : Reading Unit := do
  let cursor ← get
  if !cursor.aliases.isEmpty then
    let start := cursor.rest.length
    let ended := fun (region : Region) =>
      region.endsBlank && region.left < cursor.origin && start ≤ region.left
    set { cursor with
      start
      passed := cursor.regions.any ended
      regions := cursor.regions.filter fun region => region.left < start }

-- The text before the next closing mark, which is passed as well.
def through (closing : Char) : Reading (Option (List Char)) := do
  let cursor ← get
  match cursor.rest.dropWhile (· ≠ closing) with
  | [] => do
      set { cursor with rest := [], line := cursor.line + cursor.rest.count '\n' }
      return none
  | _ :: rest => do
      let text := cursor.rest.takeWhile (· ≠ closing)
      set { cursor with rest, line := cursor.line + text.count '\n' }
      return some text

end Reading

def Token.keyword? : Token → Option String
  | .word parts => ((plainText? parts).map String.ofList).filter keywords.contains
  | _ => none

def Token.shown : Token → String
  | .newline => "newline"
  | .finish => "end of file"
  | .semicolon => "\";\""
  | .ampersand => "\"&\""
  | .both => "\"&&\""
  | .either => "\"||\""
  | .pipe => "\"|\""
  | .opening => "\"(\""
  | .closing => "\")\""
  | .armEnd => "\";;\""
  | .redirect .. | .here .. => "redirection"
  | .word parts =>
      match (Token.word parts).keyword? with
      | some keyword => "\"" ++ keyword ++ "\""
      | none => "word"

-- Whether a list of commands inside another command ends before the token.
def Token.endsList (token : Token) : Bool :=
  match token with
  | .closing | .armEnd | .finish => true
  | token =>
      match token.keyword? with
      | some keyword =>
          ["do", "done", "elif", "else", "esac", "fi", "then", "\x7d"].contains keyword
      | none => false

-- The name and the value of a word that sets a variable.
def assignment? (parts : Word) : Option (String × Word) :=
  let isNamePlain : Part → Bool := fun part =>
    match part with
    | .plain c => c != '='
    | _ => false
  match plainText? (parts.takeWhile isNamePlain), parts.dropWhile isNamePlain with
  | some name, .plain '=' :: value =>
      if isName (String.ofList name) then some (String.ofList name, value) else none
  | _, _ => none

-- The text of a word with its quotes taken off, and whether it had any.
def unquoted : Word → List Char × Bool
  | [] => ([], false)
  | .plain c :: rest => ((unquoted rest).1.cons c, (unquoted rest).2)
  | .literal text :: rest => (text ++ (unquoted rest).1, true)
  | _ :: rest => unquoted rest

def isSpecial (c : Char) : Bool := ['@', '*', '#', '?', '$', '!', '-'].contains c

def endsWord (c : Char) : Bool :=
  [' ', '\t', '\n', ';', '&', '|', '<', '>', '(', ')'].contains c

end JobScheduler.Shell
