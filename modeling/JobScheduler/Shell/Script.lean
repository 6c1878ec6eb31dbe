import JobScheduler.Shell.Cursor

namespace JobScheduler.Shell

namespace Reading

-- A set of characters that a backslash escapes between double quotes.
def isEscapable (c : Char) : Bool := ['$', '\x60', '"', '\\'].contains c

-- The text between backquotes, where a backslash stands before what would end it early.
def backquoted (quoted : Bool) : Nat → List Char → Reading (List Char)
  | 0, _ => fail .tooDeep
  | fuel + 1, text => do
      match ← nextChar with
      | none => fail .endInBackquotes
      | some '\x60' => return text.reverse
      | some '\\' => do
          match ← nextChar with
          | none => fail .endInBackquotes
          | some '\n' => backquoted quoted fuel text
          | some c =>
              if c == '$' || c == '\x60' || c == '\\' || (quoted && c == '"') then
                backquoted quoted fuel (c :: text)
              else backquoted quoted fuel (c :: '\\' :: text)
      | some c => backquoted quoted fuel (c :: text)

-- The lines up to the one that ends a text below a command.
def hereLines (here : Here) : Nat → List Char → Reading (List Char)
  | 0, text => return text
  | fuel + 1, text => do
      if (← get).rest.isEmpty then return text
      let line ← takeWhile (· ≠ '\n')
      let line := if here.stripped then line.dropWhile (· = '\t') else line
      skipChar
      if line = here.ending then return text
      hereLines here fuel (text ++ line ++ ['\n'])

def fallbackKind? : Char → Option Fallback
  | '-' => some .use
  | '=' => some .assign
  | '?' => some .refuse
  | '+' => some .replace
  | _ => none

def parameterName : Reading String := do
  match ← peekChar with
  | some c =>
      if isNameStart c then return String.ofList (← takeWhile isNamePart)
      else if c.isDigit then return String.ofList (← takeWhile Char.isDigit)
      else if isSpecial c then
        skipChar
        return String.singleton c
      else return ""
  | none => return ""

mutual

-- A word, up to a character that cannot be part of one.
def word (parts : Word) : Nat → Reading Word
  | 0 => fail .tooDeep
  | fuel + 1 => do
      match ← peekChar with
      | none => return parts.reverse
      | some c =>
          if endsWord c then return parts.reverse
          else word ((← piece fuel c) ++ parts) fuel

-- What begins with an unquoted character, the last part first.
def piece (fuel : Nat) (c : Char) : Reading Word :=
  match fuel with
  | 0 => fail .tooDeep
  | fuel + 1 => do
      skipChar
      match c with
      | '\\' =>
          match ← nextChar with
          | none => return [.literal ['\\']]
          | some c => return [.literal [c]]
      | '\x27' =>
          match ← through '\x27' with
          | some text => return [.literal text]
          | none => fail .unterminatedQuote
      | '"' => do
          let parts ← quoted true [] fuel
          return if parts.isEmpty then [.literal []] else parts.reverse
      | '$' => return [← dollar false fuel]
      | '\x60' => return [← fromBackquotes false fuel]
      | c => return [.plain c]

-- What stands between double quotes, or in all the rest if nothing closes it.
def quoted (closes : Bool) (parts : Word) : Nat → Reading Word
  | 0 => fail .tooDeep
  | fuel + 1 => do
      match ← peekChar with
      | none => if closes then fail .unterminatedQuote else return parts.reverse
      | some c => do
          skipChar
          if c == '"' && closes then return parts.reverse
          quoted closes ((← quotedPiece c fuel) :: parts) fuel

def quotedPiece (c : Char) : Nat → Reading Part
  | 0 => fail .tooDeep
  | fuel + 1 => do
      match c with
      | '\\' => do
          match (← get).rest.head? with
          | some d =>
              if isEscapable d then
                skipChar
                return .literal [d]
              else return .literal ['\\']
          | none => return .literal ['\\']
      | '$' => dollar true fuel
      | '\x60' => fromBackquotes true fuel
      | c => return .literal [c]

-- What a dollar sign begins.
def dollar (isQuoted : Bool) : Nat → Reading Part
  | 0 => fail .tooDeep
  | fuel + 1 => do
      match ← peekChar with
      | some '(' => do
          skipChar
          if (← peekChar) == some '(' then
            skipChar
            return .arithmetic (← arithmetic 0 [] fuel) isQuoted
          let body ← compound true .nothing fuel
          expect .closing none fuel
          return .output body isQuoted
      | some '\x7b' => do
          skipChar
          braced isQuoted fuel
      | some c =>
          if isNameStart c then
            return .variable (String.ofList (← takeWhile isNamePart)) isQuoted
          else if c.isDigit || isSpecial c then
            skipChar
            return .variable (String.singleton c) isQuoted
          else return if isQuoted then .literal ['$'] else .plain '$'
      | none => return if isQuoted then .literal ['$'] else .plain '$'

def fromBackquotes (isQuoted : Bool) : Nat → Reading Part
  | 0 => fail .tooDeep
  | fuel + 1 => do
      let text ← backquoted isQuoted fuel []
      let outer ← get
      set { outer with rest := text, held := none, regions := [] }
      let body ← compound true .nothing fuel
      expect .finish none fuel
      let inner ← get
      set { inner with
        rest := outer.rest, line := outer.line, held := outer.held, regions := outer.regions }
      return .output body isQuoted

-- An expression up to its two closing parentheses. One alone that closes nothing belongs
-- to the expression.
def arithmetic (depth : Nat) (parts : Word) : Nat → Reading Word
  | 0 => fail .tooDeep
  | fuel + 1 => do
      match ← peekChar with
      | none => fail .missingParentheses
      | some '(' => do
          skipChar
          arithmetic (depth + 1) (.literal ['('] :: parts) fuel
      | some ')' => do
          skipChar
          match depth with
          | depth + 1 => arithmetic depth (.literal [')'] :: parts) fuel
          | 0 =>
              if (← peekChar) == some ')' then
                skipChar
                return parts.reverse
              else arithmetic 0 (.literal [')'] :: parts) fuel
      | some '"' => do
          skipChar
          arithmetic depth parts fuel
      | some c => do
          skipChar
          arithmetic depth ((← quotedPiece c fuel) :: parts) fuel

-- The name after an opening brace and what is to be done with its value.
def braced (isQuoted : Bool) : Nat → Reading Part
  | 0 => fail .tooDeep
  | fuel + 1 => do
      match ← peekChar with
      | some '#' => do
          skipChar
          let next ← peekChar
          let closes := (← get).rest.tail.head? = some '\x7d'
          if next.any isNamePart then
            let name ← parameterName
            if (← peekChar) == some '\x7d' then
              skipChar
              return .size name isQuoted
            badBraces fuel
          else if next == some '\x7d' || !closes then modifier "#" isQuoted fuel
          else
            skipChar
            if !next.any isSpecial then badBraces fuel
            else
              skipChar
              return .size (next.elim "" String.singleton) isQuoted
      | some '\x7d' => badBraces fuel
      | _ => do
          let name ← parameterName
          if name.isEmpty then
            skipChar
            badBraces fuel
          else modifier name isQuoted fuel

def modifier (name : String) (isQuoted : Bool) : Nat → Reading Part
  | 0 => fail .tooDeep
  | fuel + 1 => do
      match ← peekChar with
      | some '\x7d' => do
          skipChar
          return .variable name isQuoted
      | some '%' => do
          skipChar
          if (← peekChar) == some '%' then
            skipChar
            return .trim name .longEnd (← bracedWord false [] fuel) isQuoted
          return .trim name .shortEnd (← bracedWord false [] fuel) isQuoted
      | some '#' => do
          skipChar
          if (← peekChar) == some '#' then
            skipChar
            return .trim name .longStart (← bracedWord false [] fuel) isQuoted
          return .trim name .shortStart (← bracedWord false [] fuel) isQuoted
      | some ':' => do
          skipChar
          let next ← peekChar
          if next.isSome then skipChar
          match next.bind fallbackKind? with
          | some kind => return .fallback name kind true (← bracedWord isQuoted [] fuel) isQuoted
          | none => do
              let bad ← badBraces fuel
              return if next = some '\x7d' then .variable name isQuoted else bad
      | some c => do
          skipChar
          match fallbackKind? c with
          | some kind => return .fallback name kind false (← bracedWord isQuoted [] fuel) isQuoted
          | none => badBraces fuel
      | none => fail .missingBrace

def badBraces : Nat → Reading Part
  | 0 => fail .tooDeep
  | fuel + 1 => do
      let _ ← bracedWord false [] fuel
      return .badSubstitution

-- A word inside braces, which only the closing brace ends.
def bracedWord (isQuoted : Bool) (parts : Word) : Nat → Reading Word
  | 0 => fail .tooDeep
  | fuel + 1 => do
      match ← peekChar with
      | none => fail .missingBrace
      | some '\x7d' => do
          skipChar
          return parts.reverse
      | some c =>
          if !isQuoted then bracedWord isQuoted ((← piece fuel c) ++ parts) fuel
          else if c == '"' then do
            skipChar
            bracedWord isQuoted parts fuel
          else do
            skipChar
            if c == '\\' && (← get).rest.head? == some '\x7d' then
              skipChar
              bracedWord isQuoted (.literal ['\x7d'] :: parts) fuel
            else bracedWord isQuoted ((← quotedPiece c fuel) :: parts) fuel

-- Reads the texts that the commands of the line before are waiting for.
def awaitedTexts : Nat → Reading Unit
  | 0 => fail .tooDeep
  | fuel + 1 => do
      match (← get).awaited with
      | [] => return
      | here :: awaited => do
          modify fun cursor => { cursor with awaited }
          let text ← hereLines here ((← get).rest.length + 1) []
          let outer ← get
          let parts ←
            if here.verbatim then pure [.literal text]
            else do
              set { outer with rest := text, held := none, regions := [] }
              let parts ← quoted false [] fuel
              modify fun cursor =>
                { cursor with rest := outer.rest, line := outer.line, regions := outer.regions }
              pure parts
          modify fun cursor => { cursor with heres := cursor.heres.setIfInBounds here.index parts }
          awaitedTexts fuel

def token : Nat → Reading Token
  | 0 => fail .tooDeep
  | fuel + 1 => do
      match ← peekChar with
      | none => do
          awaitedTexts fuel
          return .finish
      | some c =>
          if isBlank c then
            skipChar
            token fuel
          else if c == '#' then
            let _ ← takeWhile (· ≠ '\n')
            token fuel
          else if c == '\n' then
            skipChar
            awaitedTexts fuel
            return .newline
          else if c.isDigit then
            match (← get).rest with
            | _ :: '<' :: _ | _ :: '>' :: _ => do
                skipChar
                operator (c.toNat - 48) fuel
            | _ => do
                noteStart
                return .word (← word [] fuel)
          else if endsWord c then operator (if c == '<' then 0 else 1) fuel
          else
            noteStart
            return .word (← word [] fuel)

-- A mark that is no part of a word. A redirection without a number gets the usual one.
def operator (number : Nat) : Nat → Reading Token
  | 0 => fail .tooDeep
  | _ + 1 => do
      let next : Char → Token → Token → Reading Token := fun c twice once => do
        if (← peekChar) == some c then
          skipChar
          return twice
        else return once
      match ← nextChar with
      | some ';' => next ';' .armEnd .semicolon
      | some '&' => next '&' .both .ampersand
      | some '|' => next '|' .either .pipe
      | some '(' => return .opening
      | some ')' => return .closing
      | some '<' => do
          match ← peekChar with
          | some '<' => do
              skipChar
              next '-' (.here number true) (.here number false)
          | some '&' => do
              skipChar
              return .redirect number .duplicateInput
          | some '>' => do
              skipChar
              return .redirect number .readWrite
          | _ => return .redirect number .read
      | some '>' => do
          match ← peekChar with
          | some '>' => do
              skipChar
              return .redirect number .append
          | some '&' => do
              skipChar
              return .redirect number .duplicateOutput
          | some '|' => do
              skipChar
              return .redirect number .overwrite
          | _ => return .redirect number .write
      | _ => return .finish

-- The next token, which stays the next one.
def peek : Nat → Reading Token
  | 0 => fail .tooDeep
  | fuel + 1 => do
      match (← get).held with
      | some held => return held
      | none => do
          let cursor ← get
          if !cursor.aliases.isEmpty then
            set { cursor with passed := false, origin := cursor.rest.length }
          let next ← token fuel
          modify fun cursor => { cursor with held := some next }
          match next, (← get).passed with
          | .word parts, true => if ← replaceAlias parts then peek fuel else return next
          | _, _ => return next

-- The next token where a command can begin. Short names are replaced there.
def peekCommand : Nat → Reading Token
  | 0 => fail .tooDeep
  | fuel + 1 => do
      match ← peek fuel with
      | .word parts =>
          if (Token.word parts).keyword?.isSome then return .word parts
          if ← replaceAlias parts then peekCommand fuel else return .word parts
      | next => return next

-- The next token among the words before the name of a command.
def peekName : Nat → Reading Token
  | 0 => fail .tooDeep
  | fuel + 1 => do
      match ← peek fuel with
      | .word parts => if ← replaceAlias parts then peekName fuel else return .word parts
      | next => return next

def take : Nat → Reading Token
  | 0 => fail .tooDeep
  | fuel + 1 => do
      let next ← peek fuel
      modify fun cursor => { cursor with held := none }
      return next

def skipNewlines : Nat → Reading Unit
  | 0 => fail .tooDeep
  | fuel + 1 => do
      match ← peek fuel with
      | .newline => do
          let _ ← take fuel
          skipNewlines fuel
      | _ => return

def expect (wanted : Token) (keyword : Option String) : Nat → Reading Unit
  | 0 => fail .tooDeep
  | fuel + 1 => do
      let found ← take fuel
      match keyword with
      | some keyword =>
          if found.keyword? ≠ some keyword then
            fail (.unexpected found.shown (some ("\"" ++ keyword ++ "\"")))
      | none =>
          if found.shown ≠ wanted.shown then fail (.unexpected found.shown (some wanted.shown))

-- Commands inside another command, up to a token that ends them, which is left.
def compound (mayEnd : Bool) (done : Command) : Nat → Reading Command
  | 0 => fail .tooDeep
  | fuel + 1 => do
      skipNewlines fuel
      let next ← peekCommand fuel
      if mayEnd && next.endsList then return done
      if next matches .finish then return done
      let command ← andOr fuel
      match ← peek fuel with
      | .ampersand => do
          let _ ← take fuel
          compound true (.sequence done (.inBackground (← get).line command)) fuel
      | .semicolon => do
          let _ ← take fuel
          compound true (.sequence done command) fuel
      | .newline => compound true (.sequence done command) fuel
      | _ => return .sequence done command

-- The commands of one line, or of more where a command goes on over the end of a line, and
-- whether the text ends with them.
def line (done : Command) : Nat → Reading (Command × Bool)
  | 0 => fail .tooDeep
  | fuel + 1 => do
      match ← peekCommand fuel with
      | .newline => do
          let _ ← take fuel
          return (done, false)
      | .finish => return (done, true)
      | _ => do
          let command ← andOr fuel
          match ← peek fuel with
          | .ampersand => do
              let _ ← take fuel
              line (.sequence done (.inBackground (← get).line command)) fuel
          | .semicolon => do
              let _ ← take fuel
              line (.sequence done command) fuel
          | .newline | .finish => line (.sequence done command) fuel
          | next => fail (.unexpected next.shown none)

def andOr : Nat → Reading Command
  | 0 => fail .tooDeep
  | fuel + 1 => do andOrFrom (← negatable fuel) fuel

def andOrFrom (first : Command) : Nat → Reading Command
  | 0 => fail .tooDeep
  | fuel + 1 => do
      match ← peek fuel with
      | .both => do
          let _ ← take fuel
          skipNewlines fuel
          andOrFrom (.both first (← negatable fuel)) fuel
      | .either => do
          let _ ← take fuel
          skipNewlines fuel
          andOrFrom (.either first (← negatable fuel)) fuel
      | _ => return first

def negatable : Nat → Reading Command
  | 0 => fail .tooDeep
  | fuel + 1 => do
      if (← peekCommand fuel).keyword? = some "!" then
        let _ ← take fuel
        return .negation (← pipeline [] fuel)
      pipeline [] fuel

-- Commands joined by bars, the last one read first.
def pipeline (stages : List Command) : Nat → Reading Command
  | 0 => fail .tooDeep
  | fuel + 1 => do
      let stage ← command fuel
      match ← peek fuel with
      | .pipe => do
          let _ ← take fuel
          skipNewlines fuel
          pipeline (stage :: stages) fuel
      | _ => return if stages.isEmpty then stage else .pipeline (stage :: stages).reverse false

def command : Nat → Reading Command
  | 0 => fail .tooDeep
  | fuel + 1 => do
      let next ← peekCommand fuel
      let start := (← get).line
      match next.keyword?, next with
      | some "if", _ => do
          let _ ← take fuel
          redirected start (← conditional fuel) fuel
      | some "while", _ => do
          let _ ← take fuel
          redirected start (← loop true fuel) fuel
      | some "until", _ => do
          let _ ← take fuel
          redirected start (← loop false fuel) fuel
      | some "for", _ => do
          let _ ← take fuel
          redirected start (← each fuel) fuel
      | some "case", _ => do
          let _ ← take fuel
          redirected start (← choice fuel) fuel
      | some "\x7b", _ => do
          let _ ← take fuel
          let body ← compound false .nothing fuel
          expect .finish (some "\x7d") fuel
          redirected start body fuel
      | some _, token => fail (.unexpected token.shown none)
      | none, .opening => do
          let _ ← take fuel
          let body ← compound false .nothing fuel
          expect .closing none fuel
          return .subshell start body (← redirections [] fuel)
      | none, .word _ | none, .redirect .. | none, .here .. => simple start [] [] [] fuel
      | none, token => fail (.unexpected token.shown none)

def conditional : Nat → Reading Command
  | 0 => fail .tooDeep
  | fuel + 1 => do
      let test ← compound false .nothing fuel
      expect .finish (some "then") fuel
      let success ← compound false .nothing fuel
      let next ← peek fuel
      if next.keyword? = some "elif" then
        let _ ← take fuel
        return .conditional test success (← conditional fuel)
      let failure ←
        if next.keyword? = some "else" then do
          let _ ← take fuel
          compound false .nothing fuel
        else pure .nothing
      expect .finish (some "fi") fuel
      return .conditional test success failure

def body : Nat → Reading Command
  | 0 => fail .tooDeep
  | fuel + 1 => do
      expect .finish (some "do") fuel
      let body ← compound false .nothing fuel
      expect .finish (some "done") fuel
      return body

def loop (goOnIf : Bool) : Nat → Reading Command
  | 0 => fail .tooDeep
  | fuel + 1 => do
      let test ← compound false .nothing fuel
      return .loop goOnIf test (← body fuel)

def each : Nat → Reading Command
  | 0 => fail .tooDeep
  | fuel + 1 => do
      let start := (← get).line
      match ← take fuel with
      | .word parts => do
          let name := ((plainText? parts).map String.ofList).getD ""
          if !isName name then fail .badLoopVariable
          skipNewlines fuel
          if (← peek fuel).keyword? = some "in" then
            let _ ← take fuel
            let words ← words [] fuel
            match ← take fuel with
            | .newline | .semicolon => pure ⟨⟩
            | other => fail (.unexpected other.shown none)
            skipNewlines fuel
            return .each start name (some words) (← body fuel)
          if (← peek fuel) matches .semicolon then
            let _ ← take fuel
          skipNewlines fuel
          return .each start name none (← body fuel)
      | _ => fail .badLoopVariable

def words (before : List Word) : Nat → Reading (List Word)
  | 0 => fail .tooDeep
  | fuel + 1 => do
      match ← peek fuel with
      | .word parts => do
          let _ ← take fuel
          words (parts :: before) fuel
      | _ => return before.reverse

def choice : Nat → Reading Command
  | 0 => fail .tooDeep
  | fuel + 1 => do
      let start := (← get).line
      match ← take fuel with
      | .word parts => do
          skipNewlines fuel
          expect .finish (some "in") fuel
          return .choice start parts (← arms [] fuel)
      | other => fail (.unexpected other.shown (some "word"))

def arms (before : List (List Word × Command)) : Nat → Reading (List (List Word × Command))
  | 0 => fail .tooDeep
  | fuel + 1 => do
      skipNewlines fuel
      if (← peek fuel).keyword? = some "esac" then
        let _ ← take fuel
        return before.reverse
      if (← peek fuel) matches .opening then
        let _ ← take fuel
      let patterns ← patterns [] fuel
      let body ← compound true .nothing fuel
      let arms' := (patterns, body) :: before
      skipNewlines fuel
      match ← take fuel with
      | .armEnd => arms arms' fuel
      | other =>
          if other.keyword? = some "esac" then return arms'.reverse
          else fail (.unexpected other.shown (some "\";;\""))

def patterns (before : List Word) : Nat → Reading (List Word)
  | 0 => fail .tooDeep
  | fuel + 1 => do
      match ← take fuel with
      | .word parts => do
          match ← take fuel with
          | .pipe => patterns (parts :: before) fuel
          | .closing => return (parts :: before).reverse
          | other => fail (.unexpected other.shown (some "\")\""))
      | other => fail (.unexpected other.shown (some "\")\""))

-- The file or the number that a redirection names.
def target : Nat → Reading Word
  | 0 => fail .tooDeep
  | fuel + 1 => do
      match ← take fuel with
      | .word parts => return parts
      | other => fail (.unexpected other.shown none)

def redirection? : Nat → Reading (Option Redirect)
  | 0 => fail .tooDeep
  | fuel + 1 => do
      match ← peek fuel with
      | .redirect number kind => do
          let _ ← take fuel
          return some (.mk number kind (← target fuel))
      | .here number stripped => do
          let _ ← take fuel
          let (ending, verbatim) := unquoted (← target fuel)
          let index := (← get).heres.size
          let here : Here := { ending, stripped, verbatim, index }
          modify fun cursor =>
            { cursor with awaited := cursor.awaited ++ [here], heres := cursor.heres.push [] }
          return some (.mk number (.here index) [])
      | _ => return none

def redirections (before : List Redirect) : Nat → Reading (List Redirect)
  | 0 => fail .tooDeep
  | fuel + 1 => do
      match ← redirection? fuel with
      | some redirect => redirections (redirect :: before) fuel
      | none => return before.reverse

def redirected (start : Nat) (inner : Command) : Nat → Reading Command
  | 0 => fail .tooDeep
  | fuel + 1 => do
      let redirects ← redirections [] fuel
      return if redirects.isEmpty then inner else .redirected start inner redirects

-- A command of words, which are kept with the last one first. Words before the first that
-- sets no variable set variables.
def simple (start : Nat) (assignments : List (String × Word)) (words : List Word)
    (redirects : List Redirect) : Nat → Reading Command
  | 0 => fail .tooDeep
  | fuel + 1 => do
      match ← redirection? fuel with
      | some redirect => simple start assignments words (redirect :: redirects) fuel
      | none =>
          match ← if words.isEmpty then peekName fuel else peek fuel with
          | .word parts => do
              let _ ← take fuel
              match (if words.isEmpty then assignment? parts else none) with
              | some assignment => simple start (assignment :: assignments) words redirects fuel
              | none => simple start assignments (parts :: words) redirects fuel
          | .opening =>
              match words, assignments, redirects with
              | [name], [], [] => do
                  let _ ← take fuel
                  expect .closing none fuel
                  let name := ((plainText? name).map String.ofList).getD ""
                  if !isName name || specialNames.contains name then fail .badFunctionName
                  skipNewlines fuel
                  return .define name (← command fuel)
              | _, _, _ => return .simple start assignments.reverse words.reverse redirects.reverse
          | _ => return .simple start assignments.reverse words.reverse redirects.reverse

end

end Reading

namespace Cursor

-- The beginning of a text. The texts below its commands are numbered on from the given ones.
def ofText (heres : Array Word) (text : List Char) : Cursor :=
  { rest := text, line := 1, held := none, awaited := [], heres, aliases := SortedMap.empty
    regions := [], origin := 0, start := 0, passed := false }

-- More steps than reading a text takes, short names included.
def fuel (cursor : Cursor) : Nat :=
  let short := (cursor.aliases.values.map String.length).foldl (· + ·) 0
  16 * (cursor.rest.length + 8) * (short + 1)

-- Reads the commands of the next line, given the short names that are known by then.
def next (aliases : SortedMap String String) (cursor : Cursor) :
    Except (Nat × Misreading) ((Command × Bool) × Cursor) :=
  let cursor := { cursor with aliases, held := none }
  (Reading.line .nothing cursor.fuel).run cursor

-- A text read as if it stood between double quotes.
def quotedText (heres : Array Word) (text : List Char) : Option Word :=
  let cursor := ofText heres text
  match (Reading.quoted false [] cursor.fuel).run cursor with
  | .ok (word, _) => some word
  | .error _ => none

end Cursor

end JobScheduler.Shell
