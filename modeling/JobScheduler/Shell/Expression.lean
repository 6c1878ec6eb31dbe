import JobScheduler.Shell.Octets

namespace JobScheduler.Shell

namespace Expression

inductive BinaryOperator
  | multiply | divide | remainder | add | subtract | shiftLeft | shiftRight
  | less | lessEqual | greater | greaterEqual | equal | unequal
  | bitAnd | bitXor | bitOr
deriving DecidableEq, Repr

inductive UnaryOperator
  | negate | invert | complement
deriving DecidableEq, Repr

inductive Fault
  | expectingPrimary | expectingEnd | expectingParenthesis | expectingColon
  | divisionByZero
  | illegalNumber (text : String)
deriving DecidableEq, Repr

-- The message about a fault in an expression of the given text.
def Fault.message (text : String) : Fault → String
  | .expectingPrimary => s!"arithmetic expression: expecting primary: \"{text}\""
  | .expectingEnd => s!"arithmetic expression: expecting EOF: \"{text}\""
  | .expectingParenthesis => s!"arithmetic expression: expecting ')': \"{text}\""
  | .expectingColon => s!"arithmetic expression: expecting ':': \"{text}\""
  | .divisionByZero => s!"arithmetic expression: division by zero: \"{text}\""
  | .illegalNumber value => s!"Illegal number: {value}"

end Expression

-- An expression over whole numbers of 64 bits. What is written wrongly is an expression up to
-- its fault, so that what stands before the fault counts first.
inductive Expression
  | number (value : Int)
  | variable (name : String)
  | unary (operator : Expression.UnaryOperator) (operand : Expression)
  | binary (operator : Expression.BinaryOperator) (left right : Expression)
  | both (left right : Expression)
  | either (left right : Expression)
  | choose (test success failure : Expression)
  | assign (name : String) (operator : Option Expression.BinaryOperator)
      (value : Expression)
  | wrong (fault : Expression.Fault)
  | stopped (begun : Expression) (fault : Expression.Fault)
deriving Repr

namespace Expression

inductive Token
  | number (value : Int)
  | name (text : String)
  | mark (text : String)
deriving DecidableEq, Repr

def digit? (base : Nat) (c : Char) : Option Nat :=
  let value :=
    if c.isDigit then c.toNat - 48
    else if 'a' ≤ c ∧ c ≤ 'f' then c.toNat - 87
    else if 'A' ≤ c ∧ c ≤ 'F' then c.toNat - 55
    else 99
  if value < base then some value else none

def digits (base : Nat) (cs : List Char) : Nat × List Char :=
  let isDigit := fun c => (digit? base c).isSome
  let value := (cs.takeWhile isDigit).foldl (fun n c => n * base + (digit? base c).getD 0) 0
  (value, cs.dropWhile isDigit)

-- The number that a text begins with, in base 16 after 0x, in base 8 after 0, else in base
-- 10, and what follows it.
def literal (cs : List Char) : Nat × List Char :=
  match cs with
  | '0' :: 'x' :: c :: rest | '0' :: 'X' :: c :: rest =>
      if (digit? 16 c).isSome then digits 16 (c :: rest) else (0, cs.tail)
  | '0' :: rest => digits 8 rest
  | cs => digits 10 cs

def greatest : Nat := Nat.pow 2 63 - 1

-- The value of a variable as a number, if it is one of 64 bits. An empty value is zero.
def value? (text : String) : Option Int := do
  let isSpace := fun c : Char => c == ' ' || ('\t' ≤ c && c ≤ '\r')
  let cs := text.toList.dropWhile isSpace
  let (negative, cs) :=
    match cs with
    | '-' :: rest => (true, rest)
    | '+' :: rest => (false, rest)
    | rest => (false, rest)
  if cs.isEmpty && text.toList.all isSpace then return 0
  if !(cs.head?.any Char.isDigit) then none
  let (value, rest) := literal cs
  if !rest.all isSpace then none
  if negative then
    if value ≤ greatest + 1 then some (-Int.ofNat value) else none
  else
    if value ≤ greatest then some (Int.ofNat value) else none

-- The marks, each before those that it begins with.
def marks : List String :=
  ["<<=", ">>=", "&&", "||", "<<", ">>", "<=", ">=", "==", "!=", "*=", "/=", "%=", "+=", "-=",
    "&=", "^=", "|=", "(", ")", "*", "/", "%", "+", "-", "<", ">", "&", "^", "|", "!", "~", "?",
    ":", "="]

def tokens : Nat → List Char → List Token
  | 0, _ => []
  | _, [] => []
  | fuel + 1, c :: rest =>
      if c == ' ' || c == '\t' || c == '\n' then tokens fuel rest
      else if c.isDigit then
        let (value, rest) := literal (c :: rest)
        .number (Int.ofNat (min value greatest)) :: tokens fuel rest
      else if isNameStart c then
        .name (String.ofList ((c :: rest).takeWhile isNamePart)) ::
          tokens fuel ((c :: rest).dropWhile isNamePart)
      else
        match marks.find? fun mark => mark.toList.isPrefixOf (c :: rest) with
        | some mark => .mark mark :: tokens fuel ((c :: rest).drop mark.length)
        | none => [.mark (String.singleton c)]

-- The operators between two operands, those that bind most loosely first.
def levels : List (List (String × BinaryOperator)) := [
  [("|", .bitOr)],
  [("^", .bitXor)],
  [("&", .bitAnd)],
  [("==", .equal), ("!=", .unequal)],
  [("<", .less), ("<=", .lessEqual), (">", .greater), (">=", .greaterEqual)],
  [("<<", .shiftLeft), (">>", .shiftRight)],
  [("+", .add), ("-", .subtract)],
  [("*", .multiply), ("/", .divide), ("%", .remainder)]]

def assignments : List (String × Option BinaryOperator) := [
  ("=", none), ("*=", some .multiply), ("/=", some .divide), ("%=", some .remainder),
  ("+=", some .add), ("-=", some .subtract), ("<<=", some .shiftLeft), (">>=", some .shiftRight),
  ("&=", some .bitAnd), ("^=", some .bitXor), ("|=", some .bitOr)]

-- What tokens begin with and what follows it, or all there is of it before a fault.
abbrev Read := Nat → List Token → Except Expression (Expression × List Token)

-- Puts what was read, or its beginning, into what it is a part of.
def within (whole : Expression → Expression) (part : Except Expression (Expression × List Token)) :
    Except Expression (Expression × List Token) :=
  match part with
  | .ok (inner, rest) => .ok (whole inner, rest)
  | .error begun => .error (whole begun)

mutual

def assignment : Read
  | 0, _ => .error (.wrong .expectingPrimary)
  | fuel + 1, tokens =>
      match tokens with
      | .name name :: .mark mark :: rest =>
          match assignments.lookup mark with
          | some operator => within (.assign name operator) (assignment fuel rest)
          | none => choice fuel tokens
      | _ => choice fuel tokens

def choice : Read
  | 0, _ => .error (.wrong .expectingPrimary)
  | fuel + 1, tokens => do
      match ← disjunction fuel tokens with
      | (test, .mark "?" :: rest) => do
          match ← within (.choose test · (.number 0)) (assignment fuel rest) with
          | (.choose _ success _, .mark ":" :: rest) =>
              within (.choose test success) (choice fuel rest)
          | (begun, _) => throw (.stopped begun .expectingColon)
      | result => return result

def disjunction : Read
  | 0, _ => .error (.wrong .expectingPrimary)
  | fuel + 1, tokens => do
      match ← conjunction fuel tokens with
      | (left, .mark "||" :: rest) => within (.either left) (disjunction fuel rest)
      | result => return result

def conjunction : Read
  | 0, _ => .error (.wrong .expectingPrimary)
  | fuel + 1, tokens => do
      match ← level levels fuel tokens with
      | (left, .mark "&&" :: rest) => within (.both left) (conjunction fuel rest)
      | result => return result

def level (levels : List (List (String × BinaryOperator))) : Read
  | 0, _ => .error (.wrong .expectingPrimary)
  | fuel + 1, tokens => do
      match levels with
      | [] => primary fuel tokens
      | operators :: tighter => do
          let (left, rest) ← level tighter fuel tokens
          chain operators tighter left fuel rest

def chain (operators : List (String × BinaryOperator))
    (tighter : List (List (String × BinaryOperator))) (left : Expression) : Read
  | 0, _ => .error (.wrong .expectingPrimary)
  | fuel + 1, tokens => do
      match tokens with
      | .mark mark :: rest =>
          match operators.lookup mark with
          | some operator => do
              let (whole, rest) ← within (.binary operator left) (level tighter fuel rest)
              chain operators tighter whole fuel rest
          | none => return (left, tokens)
      | tokens => return (left, tokens)

def primary : Read
  | 0, _ => .error (.wrong .expectingPrimary)
  | fuel + 1, tokens => do
      match tokens with
      | .number value :: rest => return (.number value, rest)
      | .name name :: rest => return (.variable name, rest)
      | .mark "(" :: rest => do
          match ← assignment fuel rest with
          | (inner, .mark ")" :: rest) => return (inner, rest)
          | (begun, _) => throw (.stopped begun .expectingParenthesis)
      | .mark "+" :: rest => primary fuel rest
      | .mark "-" :: rest => within (.unary .negate) (primary fuel rest)
      | .mark "!" :: rest => within (.unary .invert) (primary fuel rest)
      | .mark "~" :: rest => within (.unary .complement) (primary fuel rest)
      | _ => throw (.wrong .expectingPrimary)

end

def read (text : String) : Expression :=
  let cs := text.toList
  match assignment (32 * (cs.length + 2)) (tokens (cs.length + 1) cs) with
  | .ok (expression, []) => expression
  | .ok (begun, _ :: _) => .stopped begun .expectingEnd
  | .error begun => begun

-- Where an expression is written wrongly.
def fault? : Expression → Option Fault
  | .number _ | .variable _ => none
  | .unary _ part | .assign _ _ part => part.fault?
  | .binary _ left right | .both left right | .either left right => left.fault? <|> right.fault?
  | .choose test success failure => test.fault? <|> success.fault? <|> failure.fault?
  | .wrong fault | .stopped _ fault => some fault

def wordSize : Nat := Nat.pow 2 64

def wrap (n : Int) : Int := n.bmod wordSize

def truth (b : Bool) : Int := if b then 1 else 0

def UnaryOperator.apply : UnaryOperator → Int → Int
  | .negate, a => wrap (-a)
  | .invert, a => truth (a == 0)
  | .complement, a => -a - 1

-- Bits are taken from the two's complement form.
def bits (combine : Nat → Nat → Nat) (a b : Int) : Int :=
  wrap (Int.ofNat (combine (a % wordSize).toNat (b % wordSize).toNat))

def BinaryOperator.apply (operator : BinaryOperator) (a b : Int) : Except Fault Int :=
  match operator with
  | .multiply => .ok (wrap (a * b))
  | .divide => if b = 0 then .error .divisionByZero else .ok (wrap (a.tdiv b))
  | .remainder => if b = 0 then .error .divisionByZero else .ok (a.tmod b)
  | .add => .ok (wrap (a + b))
  | .subtract => .ok (wrap (a - b))
  | .shiftLeft => .ok (wrap (a * Int.ofNat (Nat.pow 2 (b % 64).toNat)))
  | .shiftRight => .ok (a.fdiv (Int.ofNat (Nat.pow 2 (b % 64).toNat)))
  | .less => .ok (truth (a < b))
  | .lessEqual => .ok (truth (a ≤ b))
  | .greater => .ok (truth (b < a))
  | .greaterEqual => .ok (truth (b ≤ a))
  | .equal => .ok (truth (a == b))
  | .unequal => .ok (truth (a != b))
  | .bitAnd => .ok (bits (· &&& ·) a b)
  | .bitXor => .ok (bits (· ^^^ ·) a b)
  | .bitOr => .ok (bits (· ||| ·) a b)

variable {m : Type → Type} [Monad m]

-- Passes over a part that does not matter.
def skip (part : Expression) : ExceptT Fault m Unit :=
  match part.fault? with
  | some fault => throw fault
  | none => pure ⟨⟩

-- The value of an expression, given how variables are looked up and set. The side that
-- does not matter is not evaluated.
def evaluate (look : String → m String) (store : String → Int → m Unit) :
    Expression → ExceptT Fault m Int
  | .number value => return wrap value
  | .variable name => number look name
  | .unary operator operand => return operator.apply (← evaluate look store operand)
  | .binary operator left right => do
      let a ← evaluate look store left
      let b ← evaluate look store right
      ExceptT.mk (pure (operator.apply a b))
  | .both left right => do
      if (← evaluate look store left) = 0 then
        skip right
        return 0
      return truth ((← evaluate look store right) != 0)
  | .either left right => do
      if (← evaluate look store left) ≠ 0 then
        skip right
        return 1
      return truth ((← evaluate look store right) != 0)
  | .choose test success failure => do
      if (← evaluate look store test) ≠ 0 then
        let value ← evaluate look store success
        skip failure
        return value
      skip success
      evaluate look store failure
  | .wrong fault => throw fault
  | .stopped begun fault => do
      let _ ← evaluate look store begun
      throw fault
  | .assign name operator value => do
      let operand ← evaluate look store value
      let result ←
        match operator with
        | none => pure operand
        | some operator => do
            let old ← number look name
            ExceptT.mk (pure (operator.apply old operand))
      store name result
      return result
where
  number (look : String → m String) (name : String) : ExceptT Fault m Int := do
    let text ← look name
    match value? text with
    | some value => return wrap value
    | none => throw (.illegalNumber text)

end Expression

end JobScheduler.Shell
