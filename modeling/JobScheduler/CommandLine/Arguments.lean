namespace JobScheduler.CommandLine

inductive LogLevel
  | error | warn | info | debug | trace
deriving DecidableEq, Repr

namespace LogLevel

def all : List LogLevel := [.error, .warn, .info, .debug, .trace]

def name : LogLevel → String
  | .error => "error"
  | .warn => "warn"
  | .info => "info"
  | .debug => "debug"
  | .trace => "trace"

def ofName? (text : String) : Option LogLevel := all.find? (·.name == text)

end LogLevel

structure Arguments where
  config : String
  logLevel : Option LogLevel
  dryRun : Bool
  keepRunning : Bool
deriving DecidableEq, Repr

-- Why no run follows from the arguments. The last two are requests and not mistakes.
inductive Objection
  | unknownArgument
  | invalidValue
  | conflict
  | surplusValue
  | help
  | version
deriving DecidableEq, Repr

inductive Setting
  | config | logLevel
deriving DecidableEq, Repr

inductive Flag
  | dryRun | keepRunning | help | version
deriving DecidableEq, Repr

-- What was read so far. `awaiting` is a setting whose value is not settled yet: a value
-- is looked at only when the next argument begins or the arguments end.
structure Progress where
  config : Option String
  logLevel : Option LogLevel
  dryRun : Bool
  keepRunning : Bool
  awaiting : Option (Setting × Option String)

namespace Progress

def start : Progress := ⟨none, none, false, false, none⟩

def setSetting (progress : Progress) (setting : Setting) (value : String) :
    Except Objection Progress :=
  match setting with
  | .config =>
      if progress.config.isSome then .error .conflict
      else .ok { progress with config := some value }
  | .logLevel =>
      if progress.logLevel.isSome then .error .conflict
      else
        match LogLevel.ofName? value with
        | some level => .ok { progress with logLevel := some level }
        | none => .error .invalidValue

-- Settles the setting that is waiting. One that got no value is refused.
def settle (progress : Progress) : Except Objection Progress :=
  match progress.awaiting with
  | none => .ok progress
  | some (_, none) => .error .invalidValue
  | some (setting, some value) => { progress with awaiting := none }.setSetting setting value

def setFlag (progress : Progress) (flag : Flag) : Except Objection Progress := do
  let progress ← progress.settle
  match flag with
  | .dryRun =>
      if progress.dryRun then .error .conflict else .ok { progress with dryRun := true }
  | .keepRunning =>
      if progress.keepRunning then .error .conflict else .ok { progress with keepRunning := true }
  | .help => .error .help
  | .version => .error .version

def setting? (name : String) : Option Setting :=
  if name = "config" then some .config
  else if name = "log-level" then some .logLevel
  else none

def flag? (name : String) : Option Flag :=
  if name = "dry-run" then some .dryRun
  else if name = "keep-running" then some .keepRunning
  else if name = "help" then some .help
  else if name = "version" then some .version
  else none

-- An argument that begins with two dashes, without them. A value may be attached.
def addLong (progress : Progress) (name : String) (attached : Option String) :
    Except Objection Progress :=
  match setting? name, flag? name, attached with
  | some setting, _, some value => do (← progress.settle).setSetting setting value
  | some setting, _, none => do
      let progress ← progress.settle
      return { progress with awaiting := some (setting, none) }
  | none, some _, some _ => .error .surplusValue
  | none, some flag, none => progress.setFlag flag
  | none, none, _ => .error .unknownArgument

-- An argument that begins with one dash. All that is known ends the reading.
def addShort (progress : Progress) (letter : Char) : Except Objection Progress :=
  if letter = 'h' then progress.setFlag .help
  else if letter = 'V' then progress.setFlag .version
  else .error .unknownArgument

-- An argument without dashes can only be a value.
def addWord (progress : Progress) (word : String) : Except Objection Progress :=
  match progress.awaiting with
  | some (setting, none) => .ok { progress with awaiting := some (setting, some word) }
  | _ => .error .unknownArgument

def add (progress : Progress) (argument : String) : Except Objection Progress :=
  match argument.toList with
  | '-' :: '-' :: rest =>
      let name := String.ofList (rest.takeWhile (· ≠ '='))
      match rest.dropWhile (· ≠ '=') with
      | [] => progress.addLong name none
      | _ :: value => progress.addLong name (some (String.ofList value))
  | '-' :: letter :: _ => progress.addShort letter
  | _ => progress.addWord argument

-- Nothing may follow two dashes that stand alone.
def addAll (progress : Progress) : List String → Except Objection Progress
  | [] => progress.settle
  | "--" :: rest => if rest.isEmpty then progress.settle else .error .unknownArgument
  | argument :: rest => do (← progress.add argument).addAll rest

end Progress

def parse (arguments : List String) : Except Objection Arguments := do
  let progress ← Progress.start.addAll arguments
  return {
    config := progress.config.getD "Jobs.toml"
    logLevel := progress.logLevel
    dryRun := progress.dryRun
    keepRunning := progress.keepRunning }

end JobScheduler.CommandLine
