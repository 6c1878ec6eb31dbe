namespace JobScheduler.Shell

-- The shell is the outer layer of the program. It stands in for the shell of the machine and
-- its utilities, so that the commands of tasks can be run, and none of the results about the
-- scheduler and its executor is about it. This is how its scripts are built.

inductive Trim
  | shortEnd | longEnd | shortStart | longStart
deriving DecidableEq, Repr

-- What stands in for the value of a variable that is not set. With a colon an empty value
-- counts as not set.
inductive Fallback
  | use | assign | refuse | replace
deriving DecidableEq, Repr

inductive RedirectKind
  | read | write | overwrite | append | readWrite | duplicateInput | duplicateOutput
  | here (index : Nat)
deriving DecidableEq, Repr

mutual

-- A word is a list of parts. Parts that are quoted are not split into fields.
inductive Part
  | plain (c : Char)
  | literal (text : List Char)
  | variable (name : String) (quoted : Bool)
  | size (name : String) (quoted : Bool)
  | fallback (name : String) (kind : Fallback) (colon : Bool) (word : List Part) (quoted : Bool)
  | trim (name : String) (kind : Trim) (pattern : List Part) (quoted : Bool)
  | arithmetic (expression : List Part) (quoted : Bool)
  | output (commands : Command) (quoted : Bool)
  | badSubstitution

inductive Redirect
  | mk (number : Nat) (kind : RedirectKind) (target : List Part)

inductive Command
  | nothing
  | simple (line : Nat) (assignments : List (String × List Part)) (words : List (List Part))
      (redirects : List Redirect)
  | pipeline (stages : List Command) (background : Bool)
  | negation (command : Command)
  | both (first second : Command)
  | either (first second : Command)
  | sequence (first second : Command)
  | background (line : Nat) (body : Command) (redirects : List Redirect)
  | subshell (line : Nat) (body : Command) (redirects : List Redirect)
  | redirected (line : Nat) (body : Command) (redirects : List Redirect)
  | conditional (test success failure : Command)
  | loop (goOnIf : Bool) (test body : Command)
  | each (line : Nat) (name : String) (words : Option (List (List Part))) (body : Command)
  | choice (line : Nat) (word : List Part) (arms : List (List (List Part) × Command))
  | define (name : String) (body : Command)

end

abbrev Word := List Part

instance : Inhabited Command := ⟨.nothing⟩

-- The command that does not wait for a command to end.
def Command.inBackground (line : Nat) : Command → Command
  | .pipeline stages _ => .pipeline stages true
  | .redirected line body redirects => .background line body redirects
  | command => .background line command []

-- Commands of the shell whose failures end it, and which keep the variables that are set
-- with them. No function can have such a name.
def specialNames : List String :=
  [":", ".", "break", "continue", "eval", "exec", "exit", "export", "local", "readonly", "return",
    "set", "shift", "times", "trap", "unset"]

-- Why a text cannot be read as commands.
inductive Misreading
  | unexpected (token : String) (expected : Option String)
  | unterminatedQuote
  | missingBrace
  | missingParentheses
  | endInBackquotes
  | badLoopVariable
  | badFunctionName
  | badNumber
  | tooDeep
deriving DecidableEq, Repr

def Misreading.message : Misreading → String
  | .unexpected token none => s!"{token} unexpected"
  | .unexpected token (some expected) => s!"{token} unexpected (expecting {expected})"
  | .unterminatedQuote => "Unterminated quoted string"
  | .missingBrace => "Missing '\x7d'"
  | .missingParentheses => "Missing '))'"
  | .endInBackquotes => "EOF in backquote substitution"
  | .badLoopVariable => "Bad for loop variable"
  | .badFunctionName => "Bad function name"
  | .badNumber => "Bad fd number"
  | .tooDeep => "nesting is too deep"

end JobScheduler.Shell
