import JobScheduler.Shell.Builtin.Basic

namespace JobScheduler.Shell.Builtin

open ShellM

-- An argument that names a variable and may give it a value.
def setting (text : String) : String × Option String :=
  match text.toList.dropWhile (· ≠ '=') with
  | [] => (text, none)
  | _ :: value => (String.ofList (text.toList.takeWhile (· ≠ '=')), some (String.ofList value))

def nothing : Variable := ⟨none, false, false⟩

-- The variables of a kind, as commands that make them so.
def showMarked (word : String) (isMarked : Variable → Bool) : ShellM Unit := do
  let marked := (← get).bindings.entries.filter fun entry => isMarked entry.2
  sayLines (marked.map fun entry =>
    match entry.2.value with
    | some value => s!"{word} {entry.1}={quote value}"
    | none => s!"{word} {entry.1}")

def mark (word : String) (isMarked : Variable → Bool) (change : Variable → Variable) : Builtin :=
  fun arguments => do
    let (flags, settings) ← flags ['p'] arguments
    if settings.isEmpty || !flags.isEmpty then showMarked word isMarked
    else
      settings.forM fun argument => do
        let (name, value) := setting argument
        if !isName name then refuse s!"{name}: bad variable name"
        if let some value := value then setVariable name value
        define name (some (change ((← variableOf name).getD nothing)))
      setStatus 0

def export_ : Builtin := mark "export" (·.exported) fun old => { old with exported := true }

def readonly : Builtin := mark "readonly" (·.fixed) fun old => { old with fixed := true }

-- A local variable keeps its value until it is set. What it was comes back in the end.
def local_ : Builtin := fun arguments => do
  if !(← get).inFunction then refuse "not in a function"
  arguments.forM fun argument => do
    if argument == "-" then setAside (.options (← get).options)
    else
      let (name, value) := setting argument
      makeLocal name
      if let some value := value then
        if isName name then setVariable name value
  setStatus 0

def unset : Builtin := fun arguments => do
  let (flags, names) ← flags ['v', 'f'] arguments
  names.forM fun name => do
    if flags.getLast? = some 'f' then
      modify fun session => { session with functions := session.functions.erase name }
    else
      if !isName name then refuse s!"{name}: bad variable name"
      if (← variableOf name).any (·.fixed) then refuse s!"{name}: is read only"
      define name none
  setStatus 0

def showVariables : ShellM Unit := do
  sayLines ((← get).bindings.entries.filterMap fun entry =>
    entry.2.value.map fun value => s!"{entry.1}={quote value}")

def optionSign (on : Bool) : String := if on then "-" else "+"

def showOptions (asCommands : Bool) : ShellM Unit := do
  let options := (← get).options
  let isSet := fun (letter : Option Char) => letter.any options.contains
  if asCommands then
    sayLines (optionNames.map fun entry => s!"set {optionSign (isSet entry.2)}o {entry.1}")
  else
    let padded := fun (name : String) =>
      name ++ String.ofList (List.replicate (16 - name.length) ' ')
    sayLines ("Current option settings" :: optionNames.map fun entry =>
      padded entry.1 ++ (if isSet entry.2 then "on" else "off"))

def setOption (on : Bool) (letter : Char) : ShellM Unit := do
  if !(optionNames.any fun entry => entry.2 = some letter) then
    refuse s!"Illegal option {optionSign on}{letter}"
  modify fun session =>
    { session with
      options :=
        (if on then [letter] else []) ++ session.options.filter (· != letter) }

def setNamedOption (on : Bool) (name : String) : ShellM Unit := do
  match optionNames.lookup name with
  | some (some letter) => setOption on letter
  | some none => pure ⟨⟩
  | none => refuse s!"Illegal option {optionSign on}o {name}"

-- The letters of an argument with options. An `o` stands for a name that comes after it.
def setLetters (on : Bool) : List Char → List String → ShellM (List String)
  | [], arguments => return arguments
  | 'o' :: letters, arguments => do
      match arguments with
      | [] => do
          showOptions !on
          setLetters on letters []
      | name :: arguments => do
          setNamedOption on name
          setLetters on letters arguments
  | letter :: letters, arguments => do
      setOption on letter
      setLetters on letters arguments

-- Sets options and tells the arguments behind them, if they are to be set as well.
def setOptions : Nat → List String → ShellM (Option (List String))
  | 0, _ => return none
  | fuel + 1, arguments => do
      match arguments with
      | [] => return none
      | first :: rest =>
          match first.toList with
          | ['-', '-'] => return some rest
          | ['-'] => do
              setOption false 'x'
              setOption false 'v'
              return if rest.isEmpty then none else some rest
          | '-' :: letters => setOptions fuel (← setLetters true letters rest)
          | '+' :: letters => setOptions fuel (← setLetters false letters rest)
          | _ => return some arguments

def setArguments (arguments : List String) : ShellM Unit :=
  modify fun session => { session with arguments, optionPlace := ⟨1, none⟩ }

def set_ : Builtin := fun arguments => do
  if arguments.isEmpty then showVariables
  else
    if let some arguments ← setOptions (arguments.length + 1) arguments then
      setArguments arguments
    setStatus 0

def shift : Builtin := fun arguments => do
  let count ←
    match arguments with
    | [] => pure 1
    | text :: _ => numberOf text
  let old := (← get).arguments
  if old.length < count then refuse "can't shift that many"
  setArguments (old.drop count)
  setStatus 0

-- The characters of a line, each with a mark that says whether a backslash stood before it.
abbrev Line := List (Char × Bool)

-- Reads on in a line, whose characters so far come with the last one first. Without `raw` a
-- backslash keeps the character behind it from being a separator or the end of the line.
-- The answer tells what is left if the line ends here.
def scanLine (raw : Bool) : Line → Bool → List Char → Line × Bool × Option (List Char)
  | line, escaped, [] => (line, escaped, none)
  | line, escaped, c :: rest =>
      if c = '\x00' then scanLine raw line escaped rest
      else if escaped then scanLine raw (if c = '\n' then line else (c, true) :: line) false rest
      else if c = '\n' then (line, false, some rest)
      else if c = '\\' && !raw then scanLine raw line true rest
      else scanLine raw ((c, false) :: line) false rest

def chunk : Nat := 4096

def readLine (raw : Bool) : Nat → Line → Bool → ShellM (Line × Bool)
  | 0, line, _ => return (line.reverse, false)
  | fuel + 1, line, escaped => do
      match ← perform (ProcessM.readBytes 0 chunk) with
      | .error _ | .ok [] => return (line.reverse, false)
      | .ok bytes =>
          match scanLine raw line escaped bytes with
          | (line, _, some rest) => do
              perform (ProcessM.giveBack 0 rest)
              return (line.reverse, true)
          | (line, escaped, none) => readLine raw fuel line escaped

-- Shares a line out to so many names. The last one gets what is left.
def share (separators : List Char) : Nat → Line → List (List Char)
  | 0, _ => []
  | count + 1, line =>
      let isSeparator : Char × Bool → Bool := fun (c, escaped) =>
        !escaped && separators.contains c
      let isGap : Char × Bool → Bool := fun (c, escaped) =>
        isSeparator (c, escaped) && (c == ' ' || c == '\t' || c == '\n')
      let line := line.dropWhile isGap
      if count = 0 then [((line.reverse.dropWhile isGap).reverse).map (·.1)]
      else
        let rest := (line.dropWhile fun c => !isSeparator c).dropWhile isGap
        let rest :=
          match line.dropWhile (fun c => !isSeparator c), rest with
          | first :: _, second :: more =>
              if isGap first then (if isSeparator second then more else rest)
              else more
          | _, rest => rest
        (line.takeWhile fun c => !isSeparator c).map (·.1) :: share separators count rest

def read : Builtin := fun arguments => do
  let (options, names) ← options [('p', true), ('r', false)] arguments.length arguments
  if names.isEmpty then refuse "arg count"
  let raw := options.any fun option => option.1 == 'r'
  let (line, ended) ← readLine raw ProcessM.patience [] false
  let separators := ((← valueOf "IFS").getD " \t\n").toList
  let values := share separators names.length line
  (names.zip values).forM fun (name, value) => do
    if !isName name then refuse s!"{name}: bad variable name"
    setVariable name (String.ofList value)
  setStatus (if ended then 0 else 1)

-- Whether a letter is among the options, and if so whether it takes a value.
def findLetter (letter : Char) : List Char → Option Bool
  | [] => none
  | c :: ':' :: rest => if c = letter then some true else findLetter letter rest
  | c :: rest => if c = letter then some false else findLetter letter rest

-- Sets the variables that tell about an option, and what comes next.
def tellOption (variable_ : String) (letter : Char) (argument : Option String)
    (place : OptionPlace) : ShellM Unit := do
  match argument with
  | some argument => setVariable "OPTARG" argument
  | none => define "OPTARG" none
  setVariable "OPTIND" (toString place.index)
  setVariable variable_ (String.singleton letter)
  modify fun session => { session with optionPlace := place }

-- Takes the next option from the arguments. `letters` says which ones there are.
def nextOption (letters : List Char) (variable_ : String) (arguments : List String) :
    ShellM Unit := do
  let place := (← get).optionPlace
  let quiet := letters.head? = some ':'
  let current : List Char :=
    match place.offset with
    | some offset => ((arguments[place.index - 2]?).getD "").toList.drop offset
    | none => []
  -- The letters that are left of the current argument, and the number of the next one.
  let (rest, index) : Option (List Char) × Nat :=
    if !current.isEmpty then (some current, place.index)
    else
      match (arguments[place.index - 1]?).map String.toList with
      | some ['-', '-'] => (none, place.index + 1)
      | some ('-' :: c :: rest) => (some (c :: rest), place.index + 1)
      | _ => (none, place.index)
  match rest with
  | none | some [] => do
      setVariable "OPTIND" (toString index)
      setVariable variable_ "?"
      modify fun session => { session with optionPlace := ⟨index, none⟩ }
      setStatus 1
  | some (c :: rest) => do
      setStatus 0
      let within : OptionPlace :=
        let word := (arguments[index - 2]?).getD ""
        ⟨index, some (word.length - rest.length)⟩
      match findLetter c letters, rest with
      | none, _ => do
          if !quiet then whisper s!"Illegal option -{c}"
          tellOption variable_ '?' (if quiet then some (String.singleton c) else none) within
      | some false, _ => tellOption variable_ c (some "") within
      | some true, [] =>
          match arguments[index - 1]? with
          | some value => tellOption variable_ c (some value) ⟨index + 1, none⟩
          | none => do
              if quiet then
                tellOption variable_ ':' (some (String.singleton c)) ⟨index, none⟩
              else
                whisper s!"No arg for -{c} option"
                tellOption variable_ '?' none ⟨index, none⟩
      | some true, rest => tellOption variable_ c (some (String.ofList rest)) ⟨index, none⟩

def getopts : Builtin := fun arguments => do
  match ← operands arguments with
  | letters :: variable_ :: given => do
      let session ← get
      let arguments := if given.isEmpty then session.arguments else given
      if arguments.length + 1 < session.optionPlace.index then
        modify fun session => { session with optionPlace := ⟨1, none⟩ }
      nextOption letters.toList variable_ arguments
  | _ => refuse "Usage: getopts optstring var [arg...]"

-- The order in which short names are shown.
def aliasRank (name : String) : Nat :=
  match name.toList with
  | [] => 0
  | c :: rest => ((c :: rest).foldl (fun n c => n + c.toNat) (c.toNat * 16)) % 39

def aliasLine (entry : String × String) : String := s!"{entry.1}={quote entry.2}"

def alias_ : Builtin := fun arguments => do
  if arguments.isEmpty then
    let entries := (← get).aliases.entries
    sayLines ((entries.mergeSort fun a b => aliasRank a.1 ≤ aliasRank b.1).map aliasLine)
  else
    let status ← arguments.foldlM
      (fun status argument => do
        match argument.toList with
        | [] => return status
        | first :: rest =>
            match setting (String.ofList rest) with
            | (name, some value) => do
                let name := String.ofList (first :: name.toList)
                modify fun session => { session with aliases := session.aliases.insert name value }
                return status
            | (_, none) => do
                match (← get).aliases.find? argument with
                | some value => do
                    sayLines [aliasLine (argument, value)]
                    return status
                | none => do
                    whisper s!"alias: {argument} not found"
                    return 1)
      0
    setStatus status

def unalias : Builtin := fun arguments => do
  let (flags, names) ← flags ['a'] arguments
  if !flags.isEmpty then
    modify fun session => { session with aliases := SortedMap.empty }
    setStatus 0
  else
    let status ← names.foldlM
      (fun status name => do
        if (← get).aliases.contains name then
          modify fun session => { session with aliases := session.aliases.erase name }
          return status
        else
          whisper s!"unalias: {name} not found"
          return 1)
      0
    setStatus status

def octalText (places n : Nat) : String :=
  let digits := Nat.toDigits 8 n
  String.ofList (List.replicate (places - digits.length) '0' ++ digits)

-- The permissions of one class of users, as letters.
def permissionLetters (bits : Nat) : String :=
  (if bits / 4 % 2 = 1 then "r" else "") ++ (if bits / 2 % 2 = 1 then "w" else "") ++
    (if bits % 2 = 1 then "x" else "")

-- A mode of permissions, given as a number or as changes of an old one.
def mode? (text : String) (old : Nat) : Option Nat :=
  let isOctal := fun c : Char => '0' ≤ c && c ≤ '7'
  if text.toList.any Char.isDigit then
    if text.toList.all isOctal then
      some (text.toList.foldl (fun n c => n * 8 + (c.toNat - 48)) 0)
    else none
  else (splitAt ',' text.toList).foldlM clause old
where
  clause (old : Nat) (text : List Char) : Option Nat :=
    let isWho := fun c : Char => ['u', 'g', 'o', 'a'].contains c
    let who := text.takeWhile isWho
    let covers := fun c : Char => who.isEmpty || who.contains c || who.contains 'a'
    let mask := (if covers 'u' then 448 else 0) + (if covers 'g' then 56 else 0) +
      (if covers 'o' then 7 else 0)
    actions mask text.length old (text.dropWhile isWho)
  actions (mask : Nat) : Nat → Nat → List Char → Option Nat
    | 0, _, _ => none
    | _, old, [] => some old
    | fuel + 1, old, sign :: rest =>
        if ['+', '-', '='].contains sign then
          let isBit := fun c : Char =>
            ['r', 'w', 'x', 'X', 's', 't', 'u', 'g', 'o'].contains c
          let letters := rest.takeWhile isBit
          let bits := letters.foldl
            (fun bits c => bits |||
              (match c with
              | 'r' => 292
              | 'w' => 146
              | 'x' => 73
              | 'X' => if old &&& 73 = 0 then 0 else 73
              | 'u' => (old / 64 % 8) * 73
              | 'g' => (old / 8 % 8) * 73
              | 'o' => (old % 8) * 73
              | _ => 0))
            0 &&& mask
          let new :=
            if sign = '+' then old ||| bits
            else if sign = '-' then old - (old &&& bits)
            else (old - (old &&& mask)) ||| bits
          actions mask fuel new (rest.dropWhile isBit)
        else none

def umask : Builtin := fun arguments => do
  let (flags, operands) ← flags ['S'] arguments
  let mask := (← perform ProcessM.self).mask
  match operands with
  | [] =>
      if flags.isEmpty then sayLines [octalText 4 mask]
      else
        let given := 511 - mask
        sayLines [s!"u={permissionLetters (given / 64)},g={permissionLetters (given / 8)}," ++
          s!"o={permissionLetters given}"]
  | text :: _ =>
      let isNumber := (text.toList.head?).any Char.isDigit
      match mode? text (511 - mask) with
      | some new => do
          let mask := if isNumber then new % 512 else 511 - new % 512
          perform (ProcessM.modifySelf fun process => { process with mask })
          setStatus 0
      | none =>
          let kind := if isNumber then "number" else "mode"
          refuse s!"Illegal {kind}: {text}"

def ulimit : Builtin := fun arguments => do
  let letters := "HSatfdscmlpnvwr".toList.map (·, false)
  let (flags, operands) ← options letters arguments.length arguments
  let limits : List (Char × String) :=
    [('s', "8192"), ('c', "0"), ('l', "8192"), ('r', "0"), ('n', "1048576")]
  let shown := ((flags.map (·.1)).filter fun c => c != 'H' && c != 'S').getLast?.getD 'f'
  if operands.isEmpty then sayLines [(limits.lookup shown).getD "unlimited"] else setStatus 0

def times : Builtin := fun _ =>
  sayLines ["0m0.000000s 0m0.000000s", "0m0.000000s 0m0.000000s"]

end JobScheduler.Shell.Builtin
