import JobScheduler.Shell.FileTree

namespace JobScheduler.Shell

-- Conditions as `test` reads them from its arguments.
namespace Condition

inductive Fault
  -- A word that something follows which cannot follow it.
  | unexpectedOperator (text next : String)
  | argumentExpected (text : String)
  | closingExpected
  | illegalNumber (text : String)
deriving DecidableEq, Repr

def Fault.message : Fault → String
  | .unexpectedOperator text _ => s!"{text}: unexpected operator"
  | .argumentExpected text => s!"{text}: argument expected"
  | .closingExpected => "closing paren expected"
  | .illegalNumber text => s!"Illegal number: {text}"

-- The files that a condition is about.
structure View where
  tree : FileTree
  directory : String

def unaryOperators : List String :=
  ["-b", "-c", "-d", "-e", "-f", "-g", "-h", "-k", "-L", "-n", "-O", "-G", "-p", "-r", "-s", "-S",
    "-t", "-u", "-w", "-x", "-z"]

def binaryOperators : List String :=
  ["=", "!=", "<", ">", "-eq", "-ne", "-gt", "-ge", "-lt", "-le", "-nt", "-ot", "-ef"]

def number (text : String) : Except Fault Int :=
  let cs := text.toList.dropWhile fun c => c == ' ' || c == '\t' || c == '\n'
  let cs := (cs.reverse.dropWhile fun c => c == ' ' || c == '\t' || c == '\n').reverse
  match integer? (String.ofList cs) with
  | some value => .ok value
  | none => .error (.illegalNumber text)

def isLink (view : View) (path : String) : Bool :=
  match view.tree.locate view.directory path false with
  | .found _ (.link _) => true
  | _ => false

def isRegular : Node → Bool
  | .file _ | .program _ => true
  | _ => false

def isDevice : Node → Bool
  | .device _ => true
  | _ => false

-- What tells one thing from another, whatever the path that leads to it.
def View.identity? (view : View) (path : String) : Option (String × Node) :=
  match view.tree.locate view.directory path true with
  | .found _ (.file index) => some ("", .file index)
  | .found path node => some (path, node)
  | _ => none

def permits (view : View) (bit : Nat) (node : Node) : Bool :=
  match node with
  | .file index => (view.tree.content index).mode / bit % 2 = 1
  | _ => false

def View.unary (view : View) (operator operand : String) : Except Fault Bool := do
  let node := view.tree.nodeAt? view.directory operand
  match operator with
  | "-z" => return operand == ""
  | "-n" => return operand != ""
  | "-d" => return node = some .directory
  | "-f" => return node.any isRegular
  | "-e" | "-r" | "-w" | "-O" | "-G" => return node.isSome
  | "-h" | "-L" => return isLink view operand
  | "-c" => return node.any isDevice
  | "-x" => return node.any view.tree.isExecutable
  | "-u" => return node.any (permits view 2048)
  | "-g" => return node.any (permits view 1024)
  | "-k" => return node.any (permits view 512)
  | "-s" =>
      return node.any fun node =>
        match node with
        | .file index => !(view.tree.content index).bytes.isEmpty
        | .device _ => false
        | _ => true
  | "-t" => do
      let _ ← number operand
      return false
  | _ => return false

def binary (view : View) (operator left right : String) : Except Fault Bool := do
  match operator with
  | "=" => return left == right
  | "!=" => return left != right
  | "<" => return left < right
  | ">" => return right < left
  | "-nt" | "-ot" => return false
  | "-ef" =>
      return (view.identity? left).isSome && view.identity? left = view.identity? right
  | _ => do
      let a ← number left
      let b ← number right
      match operator with
      | "-eq" => return a == b
      | "-ne" => return a != b
      | "-gt" => return b < a
      | "-ge" => return b ≤ a
      | "-lt" => return a < b
      | _ => return a ≤ b

inductive Token
  | finish
  | operand
  | operator (name : String)
deriving DecidableEq, Repr

def otherOperators : List String := ["!", "-a", "-o", "(", ")"]

-- An operator before one operand is an operand itself if nothing follows it, or if the next
-- word goes between two operands.
def isOperand : List String → Bool
  | [] => true
  | [_] => false
  | next :: _ :: _ => binaryOperators.contains next

-- What the first word is.
def token : List String → Token
  | [] => .finish
  | word :: rest =>
      if unaryOperators.contains word then
        if isOperand rest then .operand else .operator word
      else if word == "(" && rest.isEmpty then .operand
      else if (binaryOperators ++ otherOperators).contains word then .operator word
      else .operand

-- The words from the last one that was read on, and what the ones up to it say.
abbrev Read := Nat → List String → Token → Except Fault (Bool × List String)

mutual

def disjunction (view : View) : Read
  | 0, _, _ => .error .closingExpected
  | fuel + 1, words, first => do
      let (left, words) ← conjunction view fuel words first
      if token words.tail = .operator "-o" then
        let words := words.drop 2
        let (right, words) ← disjunction view fuel words (token words)
        return (left || right, words)
      return (left, words)

def conjunction (view : View) : Read
  | 0, _, _ => .error .closingExpected
  | fuel + 1, words, first => do
      let (left, words) ← negation view fuel words first
      if token words.tail = .operator "-a" then
        let words := words.drop 2
        let (right, words) ← conjunction view fuel words (token words)
        return (left && right, words)
      return (left, words)

def negation (view : View) : Read
  | 0, _, _ => .error .closingExpected
  | fuel + 1, words, first => do
      if first ≠ .operator "!" then primary view fuel words first
      else
        let next := token words.tail
        let words := if next = .finish then words else words.tail
        let (inner, words) ← negation view fuel words next
        return (!inner, words)

def primary (view : View) : Read
  | 0, _, _ => .error .closingExpected
  | fuel + 1, words, first => do
      match first, words with
      | .finish, words => return (false, words)
      | _, [] => return (false, [])
      | .operator "(", _ :: words => do
          if token words = .operator ")" then return (false, words)
          let (inner, words) ← disjunction view fuel words (token words)
          if token words.tail = .operator ")" then return (inner, words.tail)
          throw .closingExpected
      | first, word :: rest =>
          if first = .operator word ∧ unaryOperators.contains word then
            match rest with
            | [] => throw (.argumentExpected word)
            | operand :: _ => return (← view.unary word operand, rest)
          else
            match token rest, rest.tail with
            | .operator operator, operands =>
                if !binaryOperators.contains operator then return (word != "", word :: rest)
                match operands with
                | [] => throw (.argumentExpected operator)
                | right :: _ => return (← binary view operator word right, operands)
            | _, _ => return (word != "", word :: rest)

end

def expression (view : View) (words : List String) (first : Token) : Except Fault Bool := do
  match ← disjunction view (4 * words.length + 8) words first with
  | (_, last :: next :: _) => throw (.unexpectedOperator last next)
  | (result, _) => return result

-- Three or four words are looked at as a whole first. No words are false.
def holds (view : View) (negated : Bool) : List String → Except Fault Bool
  | [] => .ok negated
  | words@(first :: rest) => do
      let wanted := !negated
      let size := words.length
      if size = 3 && rest.head?.any binaryOperators.contains then
        return (← expression view words .operand) == wanted
      if (size = 3 || size = 4) && first == "(" && words.getLast? = some ")" then
        let words := rest.dropLast
        return (← expression view words (token words)) == wanted
      if (size = 3 || size = 4) && first == "!" then
        holds view true rest
      else
        return (← expression view words (token words)) == wanted

end Condition

end JobScheduler.Shell
