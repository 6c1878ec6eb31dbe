import JobScheduler.Shell.Condition
import JobScheduler.Shell.Format
import JobScheduler.Shell.Utility.Call

namespace JobScheduler.Shell.Utility

open UtilityM

-- Utilities that write their arguments, tell something about them, or do nothing.

def true_ : Utility := return 0

def false_ : Utility := return 1

def echo : Utility := do
  let arguments := (← read).arguments
  if arguments = ["--help"] || arguments = ["--version"] then leave 0
  say (Format.programEcho arguments)
  return 0

def printfMessage : Format.Complaint → String
  | .notNumeric text => Quoting.curly text ++ ": expected a numeric value"
  | .trailing text => Quoting.curly text ++ ": value not completely converted"
  | .outOfRange text => Quoting.curly text ++ ": Numerical result out of range"
  | .ignored text =>
      s!"warning: {text}: character(s) following character constant have been ignored"
  | .surplus text =>
      "warning: ignoring excess arguments, starting with " ++ Quoting.curly text
  | .invalidDirective text => s!"{text}: invalid conversion specification"
  | .missingCharacter => "missing format character"
  | .incompleteEscape => "missing hexadecimal number in escape"

def isWarning : Format.Complaint → Bool
  | .ignored _ | .surplus _ => true
  | _ => false

def printf : Utility := do
  let arguments := (← read).arguments
  if arguments = ["--help"] || arguments = ["--version"] then leave 0
  let arguments := if arguments.head? = some "--" then arguments.drop 1 else arguments
  match arguments with
  | [] => refuse 1 "missing operand"
  | format :: arguments => do
      let printed := Format.print .program format arguments
      let complaints := printed.complaints
      let sayAll := fun (complaints : List Format.Complaint) =>
        complaints.forM fun complaint => complain (printfMessage complaint)
      let isLate := fun (complaint : Format.Complaint) =>
        match complaint with
        | .surplus _ => true
        | _ => printed.stopped
      sayAll (complaints.filter (!isLate ·))
      say printed.text
      sayAll (complaints.filter isLate)
      return statusOf (complaints.all isWarning)

def conditionMessage : Condition.Fault → String
  | .unexpectedOperator _ next => "extra argument " ++ Quoting.curly next
  | .argumentExpected text => "missing argument after " ++ Quoting.curly text
  | .closingExpected => Quoting.curly ")" ++ " expected"
  | .illegalNumber text => "invalid integer " ++ Quoting.curly text

def testWords (words : List String) : Utility := do
  let view : Condition.View := ⟨← tree, ← directory⟩
  match Condition.holds view false words with
  | .ok result => return statusOf result
  | .error fault => fail 2 (conditionMessage fault)

def test : Utility := do testWords (← read).arguments

def bracket : Utility := do
  let words := (← read).arguments
  if words.getLast? = some "]" then testWords words.dropLast
  else fail 2 ("missing " ++ Quoting.curly "]")

-- The microseconds of a length of time with a letter for its unit.
def span? (text : String) : Option Nat := do
  let (value, rest) ← Fraction.read? text.toList
  let scale ←
    match rest with
    | [] | ['s'] => some 1000000
    | ['m'] => some 60000000
    | ['h'] => some 3600000000
    | ['d'] => some 86400000000
    | _ => none
  match value with
  | .finite false numerator denominator =>
      return (numerator * scale + denominator - 1) / denominator
  | .finite true 0 _ => return 0
  | .infinite false => return ProcessM.patience
  | _ => none

def sleep : Utility := do
  let call ← call 1 { letters := "" }
  needOperand call 1
  let spans ← call.operands.mapM fun operand => do
    match span? operand with
    | some span => return some span
    | none => do
        complain s!"invalid time interval {Quoting.curly operand}"
        return none
  if spans.contains none then hint 1
  perform (ProcessM.sleep ((spans.map (·.getD 0)).foldl (· + ·) 0))
  return 0

def sayEnvironment (stop : String) (entries : List (String × String)) : UtilityM Unit :=
  say (String.join (entries.map fun entry => entry.1 ++ "=" ++ entry.2 ++ stop)).toList

def printenv : Utility := do
  let call ← call 2 { letters := "0", strict := true, words := [("null", '0')] }
  let stop := if call.has '0' then "\x00" else "\n"
  let environment := (← read).environment
  if call.operands.isEmpty then
    sayEnvironment stop environment.entries
    return 0
  let found ← call.operands.mapM fun name => do
    match environment.find? name with
    | some value => do
        say (value ++ stop).toList
        return true
    | none => return false
  return statusOf (found.all id)

def whoami : Utility := do
  let call ← call 1 { letters := "" }
  if let some extra := call.operands.head? then extraOperand 1 extra
  sayLine "root"
  return 0

def id_ : Utility := do
  let call ← call 1
    { letters := "gGnruz"
      words := [("user", 'u'), ("group", 'g'), ("groups", 'G'), ("name", 'n'), ("real", 'r')] }
  if call.has 'u' || call.has 'g' || call.has 'G' then
    sayLine (if call.has 'n' then "root" else "0")
  else sayLine "uid=0(root) gid=0(root) groups=0(root)"
  return 0

def uname : Utility := do
  let call ← call 1
    { letters := "asnrvmpio", words := [("kernel-name", 's'), ("operating-system", 'o')] }
  if let some extra := call.operands.head? then extraOperand 1 extra
  sayLine (if call.last? ['s', 'o'] = some 'o' then "GNU/Linux" else "Linux")
  return 0

def tty : Utility := do
  let call ← call 2 { letters := "s", words := [("silent", 's'), ("quiet", 's')] }
  if !call.has 's' then sayLine "not a tty"
  return 1

end JobScheduler.Shell.Utility
